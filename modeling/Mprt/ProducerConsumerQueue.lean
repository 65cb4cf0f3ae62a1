import Mprt.AtomicObject
import Mprt.BoundedQueue
import Mprt.RotatedRing

/-!
# The queue between two threads

The two queues of a chunk buffer are rings of records with a position for reading and one
for writing. One thread writes and one reads. Each loads the position of the other one,
works on the record at its own position and stores the next position; only the loads and
stores of the two positions are shared.

A step here is one access to a position or to a record, and the two threads interleave.
A thread alone stores its own position, so that its load of it is made with the call. A
record is raw memory before it is constructed and after it is destroyed. An access to a
record that the language leaves undefined, and the failure of an assertion, is no step.

The records that were constructed and those that were destroyed are history, like the calls
and returns: no step reads them.
-/

namespace Mprt

/-- A place of `records_`. -/
inductive Slot (α : Type) where
  | raw
  | live (record : α)
  | movedFrom
deriving DecidableEq

/-- `folly::ProducerConsumerQueue`. -/
structure ProducerConsumerQueue (α : Type) where
  size : Nat
  records : List (Slot α)
  readIndex : Nat
  writeIndex : Nat
deriving DecidableEq

/-- Questions that both threads may ask. -/
inductive QueueQuery where
  | isEmpty
  | isFull
  | sizeGuess
deriving DecidableEq

inductive QueueCall (α : Type) where
  | write (record : α)
  | read
  | frontPtr
  | popFront
  | query (query : QueueQuery)
deriving DecidableEq

/-- What a call returns. A record is what `read` has moved out or what a pointer points to,
if there is one. -/
inductive QueueResult (α : Type) where
  | flag (ok : Bool)
  | record (record : Option α)
  | count (size : Nat)
  | done
deriving DecidableEq

inductive QueueEnd where
  | producer
  | consumer
deriving DecidableEq

namespace ProducerConsumerQueue

variable {α : Type}

/-- The constructor. -/
def make (size : Nat) : ProducerConsumerQueue α := ⟨size, List.replicate size .raw, 0, 0⟩

def nextRecord (queue : ProducerConsumerQueue α) (current : Nat) : Nat :=
  let nextRecord := current + 1
  if nextRecord = queue.size then 0 else nextRecord

def capacity (queue : ProducerConsumerQueue α) : Nat := queue.size - 1

/-- `sizeGuess` for the positions loaded: their difference as a signed 32-bit number, and the
result as an unsigned 64-bit one. -/
def sizeGuess (queue : ProducerConsumerQueue α) (readIndex writeIndex : Nat) : Nat :=
  let ret : Int := Int.bmod (writeIndex - readIndex) (2 ^ 32)
  let ret := if ret < 0 then Int.bmod (ret + queue.size) (2 ^ 32) else ret
  (ret % 2 ^ 64).toNat

/-- The answer to a question for the positions loaded. -/
def answer (queue : ProducerConsumerQueue α) (readIndex writeIndex : Nat) :
    QueueQuery → QueueResult α
  | .isEmpty => .flag (readIndex == writeIndex)
  | .isFull => .flag (queue.nextRecord writeIndex == readIndex)
  | .sizeGuess => .count (queue.sizeGuess readIndex writeIndex)

/-- Where the writing thread is: before its load of the other position, before the
construction of the record, before its store, and before its return. -/
inductive Producer (α : Type) where
  | idle
  | writing (record : α) (currentWrite : Nat)
  | constructing (record : α) (currentWrite nextRecord : Nat)
  | storing (record : α) (nextRecord : Nat)
  | asking (query : QueueQuery) (currentWrite : Nat)
  | returning (result : QueueResult α)
deriving DecidableEq

/-- Where the reading thread is. A record that is to be destroyed has been moved out by
`read`, and not by `popFront`. -/
inductive Consumer (α : Type) where
  | idle
  | reading (currentRead : Nat)
  | fronting (currentRead : Nat)
  | popping (currentRead : Nat)
  | moving (currentRead nextRecord : Nat)
  | destroying (moved : Option α) (currentRead nextRecord : Nat)
  | storing (moved : Option α) (nextRecord : Nat)
  | asking (query : QueueQuery) (currentRead : Nat)
  | returning (result : QueueResult α)
deriving DecidableEq

/-- The start of a call of the writing thread. -/
def producerCall (queue : ProducerConsumerQueue α) : QueueCall α → Option (Producer α)
  | .write record => some (.writing record queue.writeIndex)
  | .query query => some (.asking query queue.writeIndex)
  | _ => none

/-- The start of a call of the reading thread. -/
def consumerCall (queue : ProducerConsumerQueue α) : QueueCall α → Option (Consumer α)
  | .read => some (.reading queue.readIndex)
  | .frontPtr => some (.fronting queue.readIndex)
  | .popFront => some (.popping queue.readIndex)
  | .query query => some (.asking query queue.readIndex)
  | .write _ => none

/-- The next access of the writing thread. -/
def producerStep (queue : ProducerConsumerQueue α) :
    Producer α → Option (ProducerConsumerQueue α × Producer α)
  | .writing record currentWrite =>
    let nextRecord := queue.nextRecord currentWrite
    if nextRecord ≠ queue.readIndex then
      some (queue, .constructing record currentWrite nextRecord)
    else some (queue, .returning (.flag false))
  | .constructing record currentWrite nextRecord =>
    some ({ queue with records := queue.records.set currentWrite (.live record) },
      .storing record nextRecord)
  | .storing _ nextRecord =>
    some ({ queue with writeIndex := nextRecord }, .returning (.flag true))
  | .asking query currentWrite =>
    some (queue, .returning (queue.answer queue.readIndex currentWrite query))
  | .idle | .returning _ => none

/-- The next access of the reading thread. -/
def consumerStep (queue : ProducerConsumerQueue α) :
    Consumer α → Option (ProducerConsumerQueue α × Consumer α)
  | .reading currentRead =>
    if currentRead = queue.writeIndex then some (queue, .returning (.record none))
    else some (queue, .moving currentRead (queue.nextRecord currentRead))
  | .fronting currentRead =>
    if currentRead = queue.writeIndex then some (queue, .returning (.record none))
    else
      match queue.records[currentRead]? with
      | some (.live record) => some (queue, .returning (.record (some record)))
      | _ => none
  | .popping currentRead =>
    if currentRead ≠ queue.writeIndex then
      some (queue, .destroying none currentRead (queue.nextRecord currentRead))
    else none
  | .moving currentRead nextRecord =>
    match queue.records[currentRead]? with
    | some (.live record) =>
      some ({ queue with records := queue.records.set currentRead .movedFrom },
        .destroying (some record) currentRead nextRecord)
    | _ => none
  | .destroying moved currentRead nextRecord =>
    match queue.records[currentRead]? with
    | none | some .raw => none
    | some _ =>
      some ({ queue with records := queue.records.set currentRead .raw }, .storing moved nextRecord)
  | .storing moved nextRecord =>
    some ({ queue with readIndex := nextRecord },
      .returning (match moved with | some record => .record (some record) | none => .done))
  | .asking query currentRead =>
    some (queue, .returning (queue.answer currentRead queue.writeIndex query))
  | .idle | .returning _ => none

/-- The record that the next access constructs. -/
def Producer.constructs : Producer α → List α
  | .constructing record _ _ => [record]
  | _ => []

/-- The record that the next access destroys. -/
def Consumer.destroys (queue : ProducerConsumerQueue α) : Consumer α → List α
  | .destroying (some record) _ _ => [record]
  | .destroying none currentRead _ =>
    match queue.records[currentRead]? with
    | some (.live record) => [record]
    | _ => []
  | _ => []

/-- The loop of the destructor, which is given a number of passes: the records destroyed and
the memory that is left. -/
def destructLoop (queue : ProducerConsumerQueue α) (endIndex : Nat) :
    Nat → Nat → List (Slot α) → Option (List α × List (Slot α))
  | passes, readIndex, records =>
    if readIndex = endIndex then some ([], records)
    else
      match passes, records[readIndex]? with
      | passes + 1, some (.live record) =>
        (destructLoop queue endIndex passes (queue.nextRecord readIndex)
          (records.set readIndex .raw)).map (fun further => (record :: further.1, further.2))
      | passes + 1, some .movedFrom =>
        destructLoop queue endIndex passes (queue.nextRecord readIndex)
          (records.set readIndex .raw)
      | _, _ => none

/-- `~ProducerConsumerQueue`. -/
def destruct (queue : ProducerConsumerQueue α) (passes : Nat) :
    Option (List α × List (Slot α)) :=
  queue.destructLoop queue.writeIndex passes queue.readIndex queue.records

/-- The queue with both threads, and the histories. -/
structure State (α : Type) where
  queue : ProducerConsumerQueue α
  producer : Producer α
  consumer : Consumer α
  history : List (AtomicObject.Event QueueEnd (QueueCall α) (QueueResult α))
  constructed : List α
  destroyed : List α
deriving DecidableEq

/-- A thread calls an operation, or makes its next access or its return. -/
inductive Action (α : Type) where
  | call (thread : QueueEnd) (call : QueueCall α)
  | advance (thread : QueueEnd)
deriving DecidableEq

def step (state : State α) : Action α → Option (State α)
  | .call .producer call =>
    if state.producer matches .idle then
      (state.queue.producerCall call).map (fun producer => { state with
        producer := producer
        history := state.history ++ [.called .producer call] })
    else none
  | .call .consumer call =>
    if state.consumer matches .idle then
      (state.queue.consumerCall call).map (fun consumer => { state with
        consumer := consumer
        history := state.history ++ [.called .consumer call] })
    else none
  | .advance .producer =>
    match state.producer with
    | .returning result => some { state with
        producer := .idle
        history := state.history ++ [.returned .producer result] }
    | producer => (state.queue.producerStep producer).map (fun moved => { state with
        queue := moved.1
        producer := moved.2
        constructed := state.constructed ++ producer.constructs })
  | .advance .consumer =>
    match state.consumer with
    | .returning result => some { state with
        consumer := .idle
        history := state.history ++ [.returned .consumer result] }
    | consumer => (state.queue.consumerStep consumer).map (fun moved => { state with
        queue := moved.1
        consumer := moved.2
        destroyed := state.destroyed ++ consumer.destroys state.queue })

/-- A new queue with both threads between calls. -/
def start (size : Nat) : State α := ⟨make size, .idle, .idle, [], [], []⟩

/-! ## What the queue is for -/

/-- The operations as those of a bounded queue. -/
def apply (queue : BoundedQueue α) : QueueCall α → Option (QueueResult α × BoundedQueue α)
  | .write record => some (.flag (queue.write record).1, (queue.write record).2)
  | .read =>
    match queue.read with
    | none => some (.record none, queue)
    | some (record, rest) => some (.record (some record), rest)
  | .frontPtr => some (.record queue.front, queue)
  | .popFront => queue.read.map (fun taken => (.done, taken.2))
  | .query .isEmpty => some (.flag queue.isEmpty, queue)
  | .query .isFull => some (.flag queue.isFull, queue)
  | .query .sizeGuess => some (.count queue.items.length, queue)

end ProducerConsumerQueue

end Mprt
