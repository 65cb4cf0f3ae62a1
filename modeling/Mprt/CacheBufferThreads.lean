import Mprt.LabelledRuns
import Mprt.CacheBuffer

/-!
# The two threads of a chunk buffer

One producer and one consumer run the public operations of `CacheBuffer`
concurrently. A step is one access to shared state: an operation is taken up to
the point where it would read or write a queue as its consumer or producer end,
and each rotation is two steps, its read and its write, with the chunk in
transit between them. Everything else that an operation touches belongs to its
own thread, or is the atomic byte counter.

`clear_cache` and `sync_cache` are producer operations, `clear_data` and the two
bulk reads are consumer operations whose loops go on after each rotation. The
histories `written` and `taken` are read by no step.
-/

namespace Mprt.CacheBufferThreads

/-- Where the producer is: between operations, about to read inside
`rotate_cache`, or holding the chunk it has read there. -/
inductive Producer where
  | ready
  | rotating
  | carrying (val : Chunk)
deriving DecidableEq

/-- Where the consumer is: at the head of a task, about to read inside
`rotate_data`, or holding the cleared chunk it has read there. -/
inductive Consumer (Task : Type) where
  | ready (task : Task)
  | rotating (next : Task)
  | carrying (val : Chunk) (next : Task)
deriving DecidableEq

/-- The same place with another task. -/
def Consumer.map {Task Other : Type} (change : Task → Other) : Consumer Task → Consumer Other
  | .ready task => .ready (change task)
  | .rotating next => .rotating (change next)
  | .carrying val next => .carrying val (change next)

/-- The operation the consumer is at the head of; `idle` is between operations. -/
inductive Task where
  | idle
  | write (size : Int) (removeData : Bool)
  | discard (seekPoint : Int)
  | clear
deriving DecidableEq

inductive ProducerAction where
  | getCachePtr
  | append (bytes : List UInt8)
  | putCachePtr (rotate : Bool)
  | clearCache
  | syncCache
  | advance
deriving DecidableEq

inductive ConsumerAction where
  | getDataPtr
  | eraseBegin (count : Nat)
  | insertBegin (bytes : List UInt8) (first : Int)
  | putDataPtr (rotate : Bool)
  | writeIntoRawBuffer (size : Int) (removeData : Bool)
  | discardDataUpto (seekPoint : Int)
  | clearData
  | advance
deriving DecidableEq

inductive Action where
  | producer (action : ProducerAction)
  | consumer (action : ConsumerAction)
deriving DecidableEq

structure State where
  buffer : CacheBuffer
  producer : Producer
  consumer : Consumer Task
  written : List UInt8
  taken : List UInt8
deriving DecidableEq

/-- `put_cache_ptr` up to the read of its rotation. -/
def producerPut (buffer : CacheBuffer) (rotate : Bool) : CacheBuffer × Producer :=
  let updated := buffer.putCachePtrSize rotate
  (updated.1, if updated.2 then .rotating else .ready)

/-- `put_data_ptr` up to the read of its rotation; the task goes on afterwards. -/
def consumerPut {Task : Type} (buffer : CacheBuffer) (rotate : Bool) (next : Task) :
    CacheBuffer × Consumer Task :=
  let updated := buffer.putDataPtrSize rotate
  (updated.1, if updated.2 then .rotating next else .ready next)

/-- The producer's bytes must fit the front chunk; an operation starts only
when the one before has ended. -/
def producerStep (buffer : CacheBuffer) :
    Producer → ProducerAction → Option (CacheBuffer × Producer)
  | .ready, .getCachePtr =>
      match buffer.getCachePtr with
      | none => some (buffer, .ready)
      | some (_, held) => some (held, .ready)
  | .ready, .append bytes =>
      match buffer.cacheBuffer.front with
      | none => none
      | some chunk =>
        if bytes.length ≤ chunk.second.reserve then
          some (buffer.modifyCache (·.append bytes), .ready)
        else none
  | .ready, .putCachePtr rotate => some (producerPut buffer rotate)
  | .ready, .clearCache =>
      match buffer.getCachePtr with
      | none => some (buffer, .ready)
      | some (_, held) => some (producerPut (held.modifyCache Chunk.clear) false)
  | .ready, .syncCache =>
      match buffer.getCachePtr with
      | none => some (buffer, .ready)
      | some (_, held) => some (producerPut held true)
  | .rotating, .advance =>
      match buffer.rotateCacheRead with
      | none => some (buffer, .ready)
      | some (val, rest) => some (rest, .carrying val)
  | .carrying val, .advance => some (buffer.rotateCacheWrite val, .ready)
  | _, _ => none

/-- The two steps of `rotate_data`, whatever task follows. -/
def consumerRotate {Task : Type} (buffer : CacheBuffer) :
    Consumer Task → Option (CacheBuffer × Consumer Task)
  | .ready _ => none
  | .rotating next =>
      match buffer.rotateDataRead with
      | none => some (buffer, .ready next)
      | some (val, rest) => some (rest, .carrying val next)
  | .carrying val next => some (buffer.rotateDataWrite val, .ready next)

/-- One pass of a task, with the bytes it removes. A discard with no data chunk
waits. -/
def taskStep (buffer : CacheBuffer) : Task → Option (List UInt8 × CacheBuffer × Consumer Task)
  | .idle => none
  | .write size removeData =>
      match buffer.getDataPtr with
      | none => some ([], buffer, .ready .idle)
      | some (chunk, held) =>
        let (circBufferEnough, itemCount) := CacheBuffer.getCircBufEnough chunk size
        let next : Task :=
          if !circBufferEnough ∧ size - itemCount > 0 then .write (size - itemCount) removeData
          else .idle
        if removeData then
          some (chunk.second.items.take itemCount,
            consumerPut (held.modifyData (·.eraseBegin itemCount)) false next)
        else some ([], consumerPut held false next)
  | .discard seekPoint =>
      if seekPoint ≤ 0 then some ([], buffer, .ready .idle)
      else
        match buffer.getDataPtr with
        | none => none
        | some (chunk, held) =>
          let discardDataLength := min seekPoint.toNat chunk.second.size
          some (chunk.second.items.take discardDataLength,
            consumerPut (held.modifyData (·.eraseBegin discardDataLength)) false
              (.discard (seekPoint - discardDataLength)))
  | .clear =>
      match buffer.getDataPtr with
      | none => some ([], buffer, .ready .idle)
      | some (_, held) => some ([], consumerPut (held.modifyData Chunk.clear) true .clear)

/-- The first step of an operation. An erasure is of at most what the front
chunk holds, and the two bulk reads and `clear_data` only take up their task. -/
def consumerBegin (buffer : CacheBuffer) :
    ConsumerAction → Option (List UInt8 × CacheBuffer × Consumer Task)
  | .getDataPtr =>
      match buffer.getDataPtr with
      | none => some ([], buffer, .ready .idle)
      | some (_, held) => some ([], held, .ready .idle)
  | .eraseBegin count =>
      match buffer.dataBuffer.front with
      | none => none
      | some chunk =>
        if count ≤ chunk.second.size then
          some (chunk.second.items.take count, buffer.modifyData (·.eraseBegin count), .ready .idle)
        else none
  | .insertBegin bytes first =>
      match buffer.dataBuffer.front with
      | none => none
      | some _ => some ([], buffer.modifyData (·.insertBegin bytes first), .ready .idle)
  | .putDataPtr rotate => some ([], consumerPut buffer rotate .idle)
  | .writeIntoRawBuffer size removeData => some ([], buffer, .ready (.write size removeData))
  | .discardDataUpto seekPoint => some ([], buffer, .ready (.discard seekPoint))
  | .clearData => some ([], buffer, .ready .clear)
  | .advance => none

/-- An operation starts only when the one before has ended. -/
def consumerStep (buffer : CacheBuffer) (consumer : Consumer Task) (action : ConsumerAction) :
    Option (List UInt8 × CacheBuffer × Consumer Task) :=
  if action = .advance then
    match consumer with
    | .ready task => taskStep buffer task
    | moving => (consumerRotate buffer moving).map (fun moved => ([], moved))
  else if consumer = .ready .idle then consumerBegin buffer action
  else none

/-- The bytes an action appends. -/
def appended : ProducerAction → List UInt8
  | .append bytes => bytes
  | _ => []

def step (state : State) : Action → Option State
  | .producer action =>
      (producerStep state.buffer state.producer action).map (fun moved =>
        { state with
          buffer := moved.1
          producer := moved.2
          written := state.written ++ appended action })
  | .consumer action =>
      (consumerStep state.buffer state.consumer action).map (fun moved =>
        { state with
          buffer := moved.2.1
          consumer := moved.2.2
          taken := state.taken ++ moved.1 })

/-- A new buffer with both threads between operations. -/
def start (bufferSize elemSize : Nat) (cacheLastSize dataLastSize : Int) : State :=
  { buffer := CacheBuffer.make bufferSize elemSize cacheLastSize dataLastSize
    producer := .ready
    consumer := .ready .idle
    written := []
    taken := [] }

/-- The chunk the producer holds outside both queues. -/
def producerHeld : Producer → List Chunk
  | .carrying val => [val]
  | _ => []

/-- The chunk the consumer holds outside both queues. -/
def consumerHeld {Task : Type} : Consumer Task → List Chunk
  | .carrying val _ => [val]
  | _ => []

/-- The number of chunks in the two queues and in transit. -/
def chunkCount {Task : Type} (buffer : CacheBuffer) (producer : Producer)
    (consumer : Consumer Task) : Nat :=
  buffer.cacheBuffer.items.length + buffer.dataBuffer.items.length +
    (producerHeld producer).length + (consumerHeld consumer).length

/-- What one producer step does to the two queues. The cases say all that a
step can do: the operations that leave every chunk in its place, the two that
change the front chunk, and the rotation's entry, read and write. -/
inductive ProducerEffect (before after : CacheBuffer) :
    Producer → ProducerAction → Producer → Prop where
  | kept {action : ProducerAction} (silent : appended action = [])
      (cache : after.cacheBuffer = before.cacheBuffer)
      (data : after.dataBuffer = before.dataBuffer) :
      ProducerEffect before after .ready action .ready
  | filled {bytes : List UInt8} {chunk : Chunk} {rest : List Chunk}
      (front : before.cacheBuffer.items = chunk :: rest)
      (fits : bytes.length ≤ chunk.second.reserve)
      (cache : after.cacheBuffer = before.cacheBuffer.modifyFront (·.append bytes))
      (data : after.dataBuffer = before.dataBuffer) :
      ProducerEffect before after .ready (.append bytes) .ready
  | cleared {chunk : Chunk} {rest : List Chunk} {next : Producer}
      (front : before.cacheBuffer.items = chunk :: rest)
      (cache : after.cacheBuffer = before.cacheBuffer.modifyFront Chunk.clear)
      (data : after.dataBuffer = before.dataBuffer)
      (room : 0 < chunk.second.capacity → next = .ready) :
      ProducerEffect before after .ready .clearCache next
  | entered {action : ProducerAction} {chunk : Chunk} {rest : List Chunk}
      (silent : appended action = [])
      (front : before.cacheBuffer.items = chunk :: rest)
      (cause : chunk.second.full = true ∨ action = .putCachePtr true ∨ action = .syncCache)
      (cache : after.cacheBuffer = before.cacheBuffer)
      (data : after.dataBuffer = before.dataBuffer) :
      ProducerEffect before after .ready action .rotating
  | missed (vacant : before.cacheBuffer.items = []) (same : after = before) :
      ProducerEffect before after .rotating .advance .ready
  | read {val : Chunk} (cache : before.cacheBuffer.read = some (val, after.cacheBuffer))
      (data : after.dataBuffer = before.dataBuffer) :
      ProducerEffect before after .rotating .advance (.carrying val)
  | dropped {val : Chunk} (vacant : val.second.items = []) (same : after = before) :
      ProducerEffect before after (.carrying val) .advance .ready
  | queued {val : Chunk} (filled : val.second.items ≠ [])
      (cache : after.cacheBuffer = before.cacheBuffer)
      (data : after.dataBuffer = (before.dataBuffer.write val).2) :
      ProducerEffect before after (.carrying val) .advance .ready

/-- `put_cache_ptr` either ends or enters the rotation of its front chunk. -/
theorem producerPut_effect {before held after : CacheBuffer} {action : ProducerAction}
    {rotate : Bool} {next : Producer} (silent : appended action = [])
    (forced : rotate = true → action = .putCachePtr true ∨ action = .syncCache)
    (cache : held.cacheBuffer = before.cacheBuffer) (data : held.dataBuffer = before.dataBuffer)
    (moved : producerPut held rotate = (after, next)) :
    ProducerEffect before after .ready action next := by
  simp only [producerPut, Prod.mk.injEq] at moved
  obtain ⟨rfl, ended⟩ := moved
  have sameCache : (held.putCachePtrSize rotate).1.cacheBuffer = before.cacheBuffer :=
    (CacheBuffer.putCachePtrSize_cache held rotate).trans cache
  have sameData : (held.putCachePtrSize rotate).1.dataBuffer = before.dataBuffer :=
    (CacheBuffer.putCachePtrSize_data held rotate).trans data
  cases rotates : (held.putCachePtrSize rotate).2 with
  | false =>
    simp only [rotates, Bool.false_eq_true, if_false] at ended
    subst ended
    exact .kept silent sameCache sameData
  | true =>
    simp only [rotates, if_true] at ended
    subst ended
    obtain ⟨chunk, rest, front, cause⟩ := CacheBuffer.putCachePtrSize_rotates rotates
    rw [cache] at front
    exact .entered silent front (cause.imp_right forced) sameCache sameData

/-- `clear_cache` empties the front chunk, which is then full only when it has no
room at all. -/
theorem clear_cache_effect {before held after : CacheBuffer} {chunk : Chunk} {next : Producer}
    (found : before.getCachePtr = some (chunk, held))
    (moved : producerPut (held.modifyCache Chunk.clear) false = (after, next)) :
    ProducerEffect before after .ready .clearCache next := by
  obtain ⟨⟨rest, front⟩, cache, data⟩ := CacheBuffer.getCachePtr_some found
  simp only [producerPut, Prod.mk.injEq] at moved
  obtain ⟨rfl, ended⟩ := moved
  refine .cleared front ?_ ?_ ?_
  · simp [CacheBuffer.modifyCache, cache]
  · simp [CacheBuffer.modifyCache, data]
  · intro room
    have stays : ((held.modifyCache Chunk.clear).putCachePtrSize false).2 = false := by
      apply Bool.eq_false_iff.mpr
      intro rotates
      obtain ⟨other, others, items, cause⟩ := CacheBuffer.putCachePtrSize_rotates rotates
      have changed := BoundedQueue.modifyFront_cons (cache ▸ front) Chunk.clear
      simp only [CacheBuffer.modifyCache] at items
      rw [changed, List.cons.injEq] at items
      obtain ⟨rfl, _⟩ := items
      have full := cause.resolve_right Bool.false_ne_true
      exact CircularBuffer.full_not_empty (by simpa [Chunk.clear] using room) full rfl
    rw [← ended, stays]
    rfl

/-- The first step of every operation has an effect. -/
theorem producer_begin_effect {before after : CacheBuffer} {next : Producer}
    {action : ProducerAction} (taken : producerStep before .ready action = some (after, next)) :
    ProducerEffect before after .ready action next := by
  cases action with
  | getCachePtr =>
    cases found : before.getCachePtr with
    | none =>
      simp only [producerStep, found, Option.some.injEq, Prod.mk.injEq] at taken
      obtain ⟨rfl, rfl⟩ := taken
      exact .kept rfl rfl rfl
    | some result =>
      obtain ⟨chunk, held⟩ := result
      simp only [producerStep, found, Option.some.injEq, Prod.mk.injEq] at taken
      obtain ⟨rfl, rfl⟩ := taken
      obtain ⟨_, cache, data⟩ := CacheBuffer.getCachePtr_some found
      exact .kept rfl cache data
  | append bytes =>
    cases found : before.cacheBuffer.front with
    | none => simp [producerStep, found] at taken
    | some chunk =>
      obtain ⟨rest, front⟩ := BoundedQueue.front_eq_some_iff.mp found
      simp only [producerStep, found] at taken
      split at taken
      · rename_i fits
        simp only [Option.some.injEq, Prod.mk.injEq] at taken
        obtain ⟨rfl, rfl⟩ := taken
        exact .filled front fits rfl rfl
      · contradiction
  | putCachePtr rotate =>
    simp only [producerStep, Option.some.injEq] at taken
    exact producerPut_effect rfl (fun forced => .inl (by rw [forced])) rfl rfl taken
  | clearCache =>
    cases found : before.getCachePtr with
    | none =>
      simp only [producerStep, found, Option.some.injEq, Prod.mk.injEq] at taken
      obtain ⟨rfl, rfl⟩ := taken
      exact .kept rfl rfl rfl
    | some result =>
      obtain ⟨chunk, held⟩ := result
      simp only [producerStep, found, Option.some.injEq] at taken
      exact clear_cache_effect found taken
  | syncCache =>
    cases found : before.getCachePtr with
    | none =>
      simp only [producerStep, found, Option.some.injEq, Prod.mk.injEq] at taken
      obtain ⟨rfl, rfl⟩ := taken
      exact .kept rfl rfl rfl
    | some result =>
      obtain ⟨chunk, held⟩ := result
      obtain ⟨_, cache, data⟩ := CacheBuffer.getCachePtr_some found
      simp only [producerStep, found, Option.some.injEq] at taken
      exact producerPut_effect rfl (fun _ => .inr rfl) cache data taken
  | advance => simp [producerStep] at taken

/-- The read of a rotation takes the front chunk, if there is one. -/
theorem rotate_read_effect {before after : CacheBuffer} {next : Producer}
    (taken : producerStep before .rotating .advance = some (after, next)) :
    ProducerEffect before after .rotating .advance next := by
  cases found : before.rotateCacheRead with
  | none =>
    simp only [producerStep, found, Option.some.injEq, Prod.mk.injEq] at taken
    obtain ⟨rfl, rfl⟩ := taken
    refine .missed (BoundedQueue.read_none_iff.mp ?_) rfl
    simpa [CacheBuffer.rotateCacheRead] using found
  | some result =>
    obtain ⟨val, rest⟩ := result
    simp only [producerStep, found, Option.some.injEq, Prod.mk.injEq] at taken
    obtain ⟨rfl, rfl⟩ := taken
    simp only [CacheBuffer.rotateCacheRead, Option.map_eq_some_iff, Prod.mk.injEq] at found
    obtain ⟨⟨front, remaining⟩, read, rfl, rfl⟩ := found
    exact .read read rfl

/-- The rest of a rotation drops an empty chunk and queues any other. -/
theorem rotate_write_effect {before after : CacheBuffer} {val : Chunk} {next : Producer}
    (taken : producerStep before (.carrying val) .advance = some (after, next)) :
    ProducerEffect before after (.carrying val) .advance next := by
  simp only [producerStep, Option.some.injEq, Prod.mk.injEq] at taken
  obtain ⟨rfl, rfl⟩ := taken
  rw [CacheBuffer.rotateCacheWrite]
  split
  · rename_i vacant
    exact .dropped (CircularBuffer.empty_iff.mp vacant) rfl
  · rename_i filled
    exact .queued (fun vacant => filled (CircularBuffer.empty_iff.mpr vacant)) rfl rfl

/-- Every producer step has one of the effects. -/
theorem producer_step_effect {before after : CacheBuffer} {producer next : Producer}
    {action : ProducerAction} (taken : producerStep before producer action = some (after, next)) :
    ProducerEffect before after producer action next := by
  cases producer with
  | ready => exact producer_begin_effect taken
  | rotating =>
    cases action with
    | advance => exact rotate_read_effect taken
    | _ => simp [producerStep] at taken
  | carrying val =>
    cases action with
    | advance => exact rotate_write_effect taken
    | _ => simp [producerStep] at taken

/-- What one consumer step does to the two queues: at the head of a task it
changes at most the front data chunk, without shrinking its capacity; a
rotation moves one chunk out of the data queue and then into the cache queue. -/
inductive ConsumerEffect {Task : Type} (before after : CacheBuffer) :
    Consumer Task → Consumer Task → Prop where
  | handled {task : Task} {next : Consumer Task} (change : Chunk → Chunk)
      (keeps : ∀ chunk, chunk.second.capacity ≤ (change chunk).second.capacity)
      (cache : after.cacheBuffer = before.cacheBuffer)
      (data : after.dataBuffer = before.dataBuffer.modifyFront change)
      (arrives : ∃ following, next = .ready following ∨ next = .rotating following) :
      ConsumerEffect before after (.ready task) next
  | missed {next : Task} (vacant : before.dataBuffer.items = []) (same : after = before) :
      ConsumerEffect before after (.rotating next) (.ready next)
  | read {val : Chunk} {next : Task}
      (data : before.dataBuffer.read = some (val, after.dataBuffer))
      (cache : after.cacheBuffer = before.cacheBuffer) :
      ConsumerEffect before after (.rotating next) (.carrying val.clear next)
  | queued {val : Chunk} {next : Task} (data : after.dataBuffer = before.dataBuffer)
      (cache : after.cacheBuffer = (before.cacheBuffer.write val).2) :
      ConsumerEffect before after (.carrying val next) (.ready next)

/-- `put_data_ptr` after a change of the front chunk either ends or enters the
rotation of that chunk. -/
theorem consumerPut_effect {Task : Type} {before held after : CacheBuffer} {task : Task}
    {rotate : Bool} {following : Task} {next : Consumer Task} (change : Chunk → Chunk)
    (keeps : ∀ chunk, chunk.second.capacity ≤ (change chunk).second.capacity)
    (cache : held.cacheBuffer = before.cacheBuffer)
    (data : held.dataBuffer = before.dataBuffer.modifyFront change)
    (moved : consumerPut held rotate following = (after, next)) :
    ConsumerEffect before after (.ready task) next := by
  simp only [consumerPut, Prod.mk.injEq] at moved
  obtain ⟨rfl, rfl⟩ := moved
  refine .handled change keeps ?_ ?_ ⟨following, ?_⟩
  · exact (CacheBuffer.putDataPtrSize_cache held rotate).trans cache
  · exact (CacheBuffer.putDataPtrSize_data held rotate).trans data
  · cases (held.putDataPtrSize rotate).2 <;> simp

/-- Nothing at the front changes when the front is replaced by itself. -/
theorem modifyFront_id (queue : BoundedQueue Chunk) : queue.modifyFront (fun chunk => chunk) = queue := by
  obtain ⟨capacity, items, bounded⟩ := queue
  cases items <;> rfl

/-- A consumer step that leaves both queues alone. -/
theorem consumer_rests {Task : Type} {before after : CacheBuffer} {task following : Task}
    (cache : after.cacheBuffer = before.cacheBuffer) (data : after.dataBuffer = before.dataBuffer) :
    ConsumerEffect before after (.ready task) (.ready following) :=
  .handled (fun chunk => chunk) (fun _ => Nat.le_refl _) cache
    (data.trans (modifyFront_id _).symm) ⟨following, .inl rfl⟩

/-- Every pass of a task has a consumer effect. -/
theorem task_step_effect {before after : CacheBuffer} {task : Task} {bytes : List UInt8}
    {next : Consumer Task} (taken : taskStep before task = some (bytes, after, next)) :
    ConsumerEffect before after (.ready task) next := by
  cases task with
  | idle => simp [taskStep] at taken
  | write size removeData =>
    cases found : before.getDataPtr with
    | none =>
      simp only [taskStep, found, Option.some.injEq, Prod.mk.injEq] at taken
      obtain ⟨_, rfl, rfl⟩ := taken
      exact consumer_rests rfl rfl
    | some result =>
      obtain ⟨chunk, held⟩ := result
      obtain ⟨_, cache, data⟩ := CacheBuffer.getDataPtr_some found
      simp only [taskStep, found] at taken
      split at taken <;> simp only [Option.some.injEq, Prod.mk.injEq] at taken
      · exact consumerPut_effect (·.eraseBegin (CacheBuffer.getCircBufEnough chunk size).2)
          (fun _ => Nat.le_refl _) (by simp [CacheBuffer.modifyData, cache])
          (by simp [CacheBuffer.modifyData, data]) taken.2
      · exact consumerPut_effect (fun chunk => chunk) (fun _ => Nat.le_refl _) cache
          (data.trans (modifyFront_id _).symm) taken.2
  | discard seekPoint =>
    simp only [taskStep] at taken
    split at taken
    · simp only [Option.some.injEq, Prod.mk.injEq] at taken
      obtain ⟨_, rfl, rfl⟩ := taken
      exact consumer_rests rfl rfl
    · cases found : before.getDataPtr with
      | none => simp [found] at taken
      | some result =>
        obtain ⟨chunk, held⟩ := result
        obtain ⟨_, cache, data⟩ := CacheBuffer.getDataPtr_some found
        simp only [found, Option.some.injEq, Prod.mk.injEq] at taken
        exact consumerPut_effect (·.eraseBegin (min seekPoint.toNat chunk.second.size))
          (fun _ => Nat.le_refl _) (by simp [CacheBuffer.modifyData, cache])
          (by simp [CacheBuffer.modifyData, data]) taken.2
  | clear =>
    cases found : before.getDataPtr with
    | none =>
      simp only [taskStep, found, Option.some.injEq, Prod.mk.injEq] at taken
      obtain ⟨_, rfl, rfl⟩ := taken
      exact consumer_rests rfl rfl
    | some result =>
      obtain ⟨chunk, held⟩ := result
      obtain ⟨_, cache, data⟩ := CacheBuffer.getDataPtr_some found
      simp only [taskStep, found, Option.some.injEq, Prod.mk.injEq] at taken
      exact consumerPut_effect Chunk.clear (fun _ => Nat.le_refl _)
        (by simp [CacheBuffer.modifyData, cache]) (by simp [CacheBuffer.modifyData, data]) taken.2

/-- The two steps of a rotation have their effects, whatever task follows. -/
theorem consumer_rotate_effect {Task : Type} {before after : CacheBuffer}
    {consumer next : Consumer Task}
    (taken : consumerRotate before consumer = some (after, next)) :
    ConsumerEffect before after consumer next := by
  cases consumer with
  | ready task => simp [consumerRotate] at taken
  | rotating following =>
    cases found : before.rotateDataRead with
    | none =>
      simp only [consumerRotate, found, Option.some.injEq, Prod.mk.injEq] at taken
      obtain ⟨rfl, rfl⟩ := taken
      refine .missed (BoundedQueue.read_none_iff.mp ?_) rfl
      simpa [CacheBuffer.rotateDataRead] using found
    | some result =>
      obtain ⟨val, rest⟩ := result
      simp only [consumerRotate, found, Option.some.injEq, Prod.mk.injEq] at taken
      obtain ⟨rfl, rfl⟩ := taken
      simp only [CacheBuffer.rotateDataRead, Option.map_eq_some_iff, Prod.mk.injEq] at found
      obtain ⟨⟨front, remaining⟩, read, rfl, rfl⟩ := found
      exact .read read rfl
  | carrying val following =>
    simp only [consumerRotate, Option.some.injEq, Prod.mk.injEq] at taken
    obtain ⟨rfl, rfl⟩ := taken
    exact .queued rfl rfl

/-- Putting bytes before the first one never shrinks a chunk. -/
theorem insertBegin_capacity (chunk : Chunk) (bytes : List UInt8) (first : Int) :
    chunk.second.capacity ≤ (chunk.insertBegin bytes first).second.capacity := by
  simp only [Chunk.insertBegin, CircularBuffer.insert_capacity]
  split
  · rename_i larger
    exact Nat.le_of_lt larger
  · exact Nat.le_refl _

/-- Every first step of an operation has a consumer effect. -/
theorem consumer_begin_effect {before after : CacheBuffer} {next : Consumer Task}
    {action : ConsumerAction} {bytes : List UInt8}
    (taken : consumerBegin before action = some (bytes, after, next)) :
    ConsumerEffect before after (.ready Task.idle) next := by
  cases action with
  | getDataPtr =>
    cases found : before.getDataPtr with
    | none =>
      simp only [consumerBegin, found, Option.some.injEq, Prod.mk.injEq] at taken
      obtain ⟨_, rfl, rfl⟩ := taken
      exact consumer_rests rfl rfl
    | some result =>
      obtain ⟨chunk, held⟩ := result
      obtain ⟨_, cache, data⟩ := CacheBuffer.getDataPtr_some found
      simp only [consumerBegin, found, Option.some.injEq, Prod.mk.injEq] at taken
      obtain ⟨_, rfl, rfl⟩ := taken
      exact consumer_rests cache data
  | eraseBegin count =>
    simp only [consumerBegin] at taken
    split at taken
    · contradiction
    · split at taken
      · simp only [Option.some.injEq, Prod.mk.injEq] at taken
        obtain ⟨_, rfl, rfl⟩ := taken
        exact .handled (·.eraseBegin count) (fun _ => Nat.le_refl _) rfl rfl ⟨_, .inl rfl⟩
      · contradiction
  | insertBegin inserted first =>
    simp only [consumerBegin] at taken
    split at taken
    · contradiction
    · simp only [Option.some.injEq, Prod.mk.injEq] at taken
      obtain ⟨_, rfl, rfl⟩ := taken
      exact .handled (·.insertBegin inserted first)
        (fun chunk => insertBegin_capacity chunk inserted first) rfl rfl ⟨_, .inl rfl⟩
  | putDataPtr rotate =>
    simp only [consumerBegin, Option.some.injEq, Prod.mk.injEq] at taken
    exact consumerPut_effect (fun chunk => chunk) (fun _ => Nat.le_refl _) rfl
      (modifyFront_id _).symm taken.2
  | writeIntoRawBuffer size removeData | discardDataUpto seekPoint | clearData =>
    simp only [consumerBegin, Option.some.injEq, Prod.mk.injEq] at taken
    obtain ⟨_, rfl, rfl⟩ := taken
    exact consumer_rests rfl rfl
  | advance => contradiction

/-- Every consumer step has one of the effects. -/
theorem consumer_step_effect {before after : CacheBuffer} {consumer next : Consumer Task}
    {action : ConsumerAction} {bytes : List UInt8}
    (taken : consumerStep before consumer action = some (bytes, after, next)) :
    ConsumerEffect before after consumer next := by
  unfold consumerStep at taken
  split at taken
  · split at taken
    · exact task_step_effect taken
    · rw [Option.map_eq_some_iff] at taken
      obtain ⟨moved, rotated, ended⟩ := taken
      obtain ⟨_, rfl⟩ := Prod.mk.inj ended
      exact consumer_rotate_effect rotated
  · split at taken
    · rename_i ready
      exact ready ▸ consumer_begin_effect taken
    · contradiction

end Mprt.CacheBufferThreads
