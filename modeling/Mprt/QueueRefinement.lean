import Mprt.ProducerConsumerQueue

/-!
# The queue between two threads is a bounded queue

Seen from the position for reading, the ring holds the elements in their order, then one
place that is kept free, and raw memory. The reading thread changes the first place alone
and the writing thread the free one, whatever the other thread does in between.

So each operation takes effect at one moment: a successful one with the store of its
position, any other one with its load of the other position. Every history of the two
threads is one of a bounded queue with one element less than there are places. No access is
to a record that is not there, and all that was constructed is destroyed once, in order.
-/

namespace Mprt.ProducerConsumerQueue

open AtomicObject (Place)

variable {α : Type}

/-! ## The ring -/

/-- The ring holds a number of elements, and is seen from the position for reading. -/
structure Ring (queue : ProducerConsumerQueue α) (count : Nat) (seen : List (Slot α)) : Prop where
  inside : queue.readIndex < queue.size
  written : queue.writeIndex = (queue.readIndex + count) % queue.size
  room : count < queue.size
  length : queue.records.length = queue.size
  seen : queue.records.rotate queue.readIndex = seen

theorem nextRecord_eq (queue : ProducerConsumerQueue α) (current : Nat) :
    queue.nextRecord current = RotatedRing.advance queue.size current := rfl

namespace Ring

variable {queue : ProducerConsumerQueue α} {count : Nat} {seen : List (Slot α)}

/-- The position to write to is a place of the ring. -/
theorem writeIndex_lt (ring : Ring queue count seen) : queue.writeIndex < queue.size := by
  rw [ring.written]
  exact Nat.mod_lt _ (Nat.zero_lt_of_lt ring.inside)

/-- The positions meet in an empty ring. -/
theorem empty_iff (ring : Ring queue count seen) :
    queue.readIndex = queue.writeIndex ↔ count = 0 := by
  have positive : 0 < queue.size := Nat.zero_lt_of_lt ring.inside
  have first : queue.readIndex = (queue.readIndex + 0) % queue.size :=
    (Nat.mod_eq_of_lt ring.inside).symm
  rw [ring.written]
  conv => lhs; lhs; rw [first]
  rw [RotatedRing.place_inj positive ring.room, eq_comm]

/-- The next position for writing meets the other one in a full ring. -/
theorem full_iff (ring : Ring queue count seen) :
    queue.nextRecord queue.writeIndex = queue.readIndex ↔ count + 1 = queue.size := by
  have next : queue.nextRecord queue.writeIndex =
      (queue.readIndex + (count + 1)) % queue.size := by
    rw [nextRecord_eq, RotatedRing.advance_eq ring.writeIndex_lt, ring.written, Nat.mod_add_mod,
      Nat.add_assoc]
  rw [next]
  by_cases full : count + 1 = queue.size
  · rw [full, Nat.add_mod_right, Nat.mod_eq_of_lt ring.inside]
    exact iff_of_true rfl rfl
  · have room := ring.room
    have positive : 0 < queue.size := Nat.zero_lt_of_lt ring.inside
    refine iff_of_false (fun same => ?_) full
    have zero : (queue.readIndex + (count + 1)) % queue.size =
        (queue.readIndex + 0) % queue.size := by
      rw [same, Nat.add_zero, Nat.mod_eq_of_lt ring.inside]
    exact absurd ((RotatedRing.place_inj (by omega) positive).mp zero) (Nat.succ_ne_zero count)

/-- The difference of the positions is the number of elements. -/
theorem sizeGuess_eq (ring : Ring queue count seen) (fits : queue.size ≤ 2 ^ 31) :
    queue.sizeGuess queue.readIndex queue.writeIndex = count := by
  have inside := ring.inside
  have room := ring.room
  have place : queue.writeIndex = queue.readIndex + count ∨
      queue.writeIndex + queue.size = queue.readIndex + count := by
    rw [ring.written]
    by_cases straight : queue.readIndex + count < queue.size
    · exact Or.inl (Nat.mod_eq_of_lt straight)
    · rw [Nat.mod_eq_sub_mod (by omega), Nat.mod_eq_of_lt (by omega)]
      omega
  have small : ∀ value : Int, -2 ^ 31 ≤ value → value < 2 ^ 31 →
      Int.bmod value (2 ^ 32) = value := by
    intro value above below
    exact Int.bmod_eq_of_le (by omega) (by omega)
  have difference := small (queue.writeIndex - queue.readIndex) (by omega) (by omega)
  rw [sizeGuess, difference]
  split
  · rw [small _ (by omega) (by omega), Int.emod_eq_of_lt (by omega) (by omega)]
    omega
  · rw [Int.emod_eq_of_lt (by omega) (by omega)]
    omega

/-- The place to read from is the first one as the reading thread sees the ring. -/
theorem front (ring : Ring queue count seen) : queue.records[queue.readIndex]? = seen[0]? := by
  have positive : 0 < queue.records.length := by
    rw [ring.length]
    exact Nat.zero_lt_of_lt ring.inside
  rw [← ring.seen, RotatedRing.getElem?_rotate positive, Nat.add_zero, ring.length,
    Nat.mod_eq_of_lt ring.inside]

/-- The place to write to comes right behind the elements. -/
theorem back (ring : Ring queue count seen) : queue.records[queue.writeIndex]? = seen[count]? := by
  rw [← ring.seen, RotatedRing.getElem?_rotate (by rw [ring.length]; exact ring.room), ring.length,
    ring.written]

/-- A change of the first place. -/
theorem setFront (ring : Ring queue count seen) (slot : Slot α) :
    Ring { queue with records := queue.records.set queue.readIndex slot } count
      (seen.set 0 slot) where
  inside := ring.inside
  written := ring.written
  room := ring.room
  length := by rw [List.length_set, ring.length]
  seen := by
    have positive : 0 < queue.records.length := by
      rw [ring.length]
      exact Nat.zero_lt_of_lt ring.inside
    have changed := RotatedRing.rotate_set queue.readIndex positive slot
    rw [Nat.add_zero, ring.length, Nat.mod_eq_of_lt ring.inside, ring.seen] at changed
    exact changed

/-- A change of the place behind the elements. -/
theorem setBack (ring : Ring queue count seen) (slot : Slot α) :
    Ring { queue with records := queue.records.set queue.writeIndex slot } count
      (seen.set count slot) where
  inside := ring.inside
  written := ring.written
  room := ring.room
  length := by rw [List.length_set, ring.length]
  seen := by
    have changed := RotatedRing.rotate_set queue.readIndex
      (by rw [ring.length]; exact ring.room) slot
    rw [ring.length, ← ring.written, ring.seen] at changed
    exact changed

/-- The store of the position for writing adds a place to the elements. -/
theorem stored (ring : Ring queue count seen) (room : count + 1 < queue.size) :
    Ring { queue with writeIndex := queue.nextRecord queue.writeIndex } (count + 1) seen where
  inside := ring.inside
  written := by
    rw [nextRecord_eq, RotatedRing.advance_eq ring.writeIndex_lt, ring.written, Nat.mod_add_mod,
      Nat.add_assoc]
  room := room
  length := ring.length
  seen := ring.seen

/-- The store of the position for reading moves the first place to the end. -/
theorem freed {first : Slot α} {rest : List (Slot α)}
    (ring : Ring queue (count + 1) (first :: rest)) :
    Ring { queue with readIndex := queue.nextRecord queue.readIndex } count (rest ++ [first]) where
  inside := RotatedRing.advance_lt ring.inside
  written := by
    rw [nextRecord_eq, RotatedRing.advance_eq ring.inside, ring.written, Nat.mod_add_mod,
      Nat.add_assoc, Nat.add_comm 1]
  room := Nat.lt_of_succ_lt ring.room
  length := ring.length
  seen := by
    have moved := RotatedRing.rotate_advance_cons (by rw [ring.length]; exact ring.inside) ring.seen
    rw [ring.length] at moved
    exact moved

end Ring

/-! ## The places of the threads -/

/-- The elements as the reading thread leaves them in the ring. -/
def frontSlots : Consumer α → List α → List (Slot α)
  | .destroying (some _) _ _, _ :: rest => .movedFrom :: rest.map .live
  | .storing _ _, _ :: rest => .raw :: rest.map .live
  | _, items => items.map .live

/-- The free place as the writing thread leaves it. -/
def backSlot : Producer α → Slot α
  | .storing record _ => .live record
  | _ => .raw

/-- The elements that the reading thread has not destroyed. -/
def undestroyed : Consumer α → List α → List α
  | .storing _ _, items => items.tail
  | _, items => items

/-- What the writing thread has constructed and not stored. -/
def unstored : Producer α → List α
  | .storing record _ => [record]
  | _ => []

/-- The positions that the writing thread has loaded, and the place that it has found. -/
def ProducerHeld (queue : ProducerConsumerQueue α) (items : List α) : Producer α → Prop
  | .idle | .returning _ => True
  | .writing _ currentWrite | .asking _ currentWrite => currentWrite = queue.writeIndex
  | .constructing _ currentWrite nextRecord =>
    currentWrite = queue.writeIndex ∧ nextRecord = queue.nextRecord queue.writeIndex ∧
      items.length + 1 < queue.size
  | .storing _ nextRecord =>
    nextRecord = queue.nextRecord queue.writeIndex ∧ items.length + 1 < queue.size

/-- The positions that the reading thread has loaded, and the element that it has found. -/
def ConsumerHeld (queue : ProducerConsumerQueue α) (items : List α) : Consumer α → Prop
  | .idle | .returning _ => True
  | .reading currentRead | .fronting currentRead | .popping currentRead
  | .asking _ currentRead => currentRead = queue.readIndex
  | .moving currentRead nextRecord =>
    currentRead = queue.readIndex ∧ nextRecord = queue.nextRecord queue.readIndex ∧ items ≠ []
  | .destroying moved currentRead nextRecord =>
    currentRead = queue.readIndex ∧ nextRecord = queue.nextRecord queue.readIndex ∧
      ∃ first rest, items = first :: rest ∧ ∀ record ∈ moved, record = first
  | .storing moved nextRecord =>
    nextRecord = queue.nextRecord queue.readIndex ∧
      ∃ first rest, items = first :: rest ∧ ∀ record ∈ moved, record = first

/-- The queue holds the elements, and the threads are where they left it. -/
structure Held (state : State α) (items : List α) : Prop where
  ring : Ring state.queue items.length (frontSlots state.consumer items ++
    backSlot state.producer :: List.replicate (state.queue.size - 1 - items.length) .raw)
  producer : ProducerHeld state.queue items state.producer
  consumer : ConsumerHeld state.queue items state.consumer
  ledger : state.constructed =
    state.destroyed ++ undestroyed state.consumer items ++ unstored state.producer

/-- A new queue holds nothing. -/
theorem start_held {size : Nat} (two : 2 ≤ size) : Held (start size : State α) [] where
  ring :=
    { inside := Nat.zero_lt_of_lt two
      written := (Nat.zero_mod size).symm
      room := Nat.zero_lt_of_lt two
      length := List.length_replicate
      seen := by
        have places : size = size - 1 + 1 := by omega
        have one : List.replicate size (Slot.raw : Slot α) =
            .raw :: List.replicate (size - 1) .raw := by
          conv => lhs; rw [places, List.replicate_succ]
        exact (List.rotate_zero _).trans one }
  producer := trivial
  consumer := trivial
  ledger := rfl

section Steps

variable {state : State α} {items : List α}

/-- A step of the writing thread between accesses to records. -/
theorem Held.producerAt (held : Held state items) (producer : Producer α)
    (there : ProducerHeld state.queue items producer)
    (back : backSlot producer = backSlot state.producer)
    (pending : unstored producer = unstored state.producer)
    (history : List (AtomicObject.Event QueueEnd (QueueCall α) (QueueResult α))) :
    Held { state with producer := producer, history := history } items where
  ring := by
    have ring := held.ring
    rw [← back] at ring
    exact ring
  producer := there
  consumer := held.consumer
  ledger := by
    have ledger := held.ledger
    rw [← pending] at ledger
    exact ledger

/-- A step of the reading thread between accesses to records. -/
theorem Held.consumerAt (held : Held state items) (consumer : Consumer α)
    (there : ConsumerHeld state.queue items consumer)
    (front : frontSlots consumer items = frontSlots state.consumer items)
    (left : undestroyed consumer items = undestroyed state.consumer items)
    (history : List (AtomicObject.Event QueueEnd (QueueCall α) (QueueResult α))) :
    Held { state with consumer := consumer, history := history } items where
  ring := by
    have ring := held.ring
    rw [← front] at ring
    exact ring
  producer := held.producer
  consumer := there
  ledger := by
    have ledger := held.ledger
    rw [← left] at ledger
    exact ledger

theorem frontSlots_length (consumer : Consumer α) (items : List α) :
    (frontSlots consumer items).length = items.length := by
  fun_cases frontSlots consumer items <;> simp

/-- The construction of the record changes the free place alone. -/
theorem Held.constructed (held : Held state items) {record : α} {currentWrite nextRecord : Nat}
    (place : state.producer = .constructing record currentWrite nextRecord) :
    Held { state with
      queue := { state.queue with records := state.queue.records.set currentWrite (.live record) }
      producer := .storing record nextRecord
      constructed := state.constructed ++ [record] } items := by
  have there := held.producer
  have ledger := held.ledger
  have changed := held.ring.setBack (.live record)
  rw [place] at there ledger changed
  obtain ⟨rfl, there⟩ := there
  have back := List.set_append_right (s := frontSlots state.consumer items)
    (t := backSlot (.constructing record state.queue.writeIndex nextRecord) ::
      List.replicate (state.queue.size - 1 - items.length) .raw) items.length
    (.live record) (Nat.le_of_eq (frontSlots_length _ _))
  rw [back, frontSlots_length, Nat.sub_self, List.set_cons_zero] at changed
  simp only [unstored, List.append_nil] at ledger
  exact ⟨changed, there, held.consumer, by simp only [unstored, ledger]⟩

/-- A new element comes behind those that the reading thread looks at. -/
theorem newest {queue : ProducerConsumerQueue α} {consumer : Consumer α}
    (there : ConsumerHeld queue items consumer) (record : α) :
    frontSlots consumer (items ++ [record]) = frontSlots consumer items ++ [.live record] ∧
      undestroyed consumer (items ++ [record]) = undestroyed consumer items ++ [record] ∧
      ConsumerHeld queue (items ++ [record]) consumer := by
  cases consumer with
  | destroying moved currentRead nextRecord =>
    obtain ⟨current, next, first, rest, rfl, same⟩ := there
    refine ⟨?_, rfl, current, next, first, rest ++ [record], rfl, same⟩
    cases moved <;> simp [frontSlots]
  | storing moved nextRecord =>
    obtain ⟨next, first, rest, rfl, same⟩ := there
    exact ⟨by simp [frontSlots], rfl, next, first, rest ++ [record], rfl, same⟩
  | moving currentRead nextRecord =>
    exact ⟨by simp [frontSlots], rfl, there.1, there.2.1, by simp⟩
  | _ => exact ⟨by simp [frontSlots], rfl, there⟩

/-- The store of the position for writing makes the record the newest element. -/
theorem Held.written (held : Held state items) {record : α} {nextRecord : Nat}
    (place : state.producer = .storing record nextRecord) (result : QueueResult α) :
    Held { state with
      queue := { state.queue with writeIndex := nextRecord }
      producer := .returning result } (items ++ [record]) := by
  have there := held.producer
  have ledger := held.ledger
  have ring := held.ring
  rw [place] at there ledger ring
  obtain ⟨rfl, room⟩ := there
  obtain ⟨front, left, consumer⟩ := newest held.consumer record
  have places : List.replicate (state.queue.size - 1 - items.length) (Slot.raw : Slot α) =
      .raw :: List.replicate (state.queue.size - 1 - (items ++ [record]).length) .raw := by
    rw [List.length_append, List.length_singleton, ← List.replicate_succ]
    congr 1
    omega
  refine ⟨?_, trivial, ?_, ?_⟩
  · have stored := ring.stored room
    rw [places, backSlot] at stored
    simp only [front, List.append_assoc, List.singleton_append, List.length_append,
      List.length_singleton, backSlot] at stored ⊢
    exact stored
  · cases placed : state.consumer <;> rw [placed] at consumer <;> exact consumer
  · simp only [left, unstored, List.append_nil]
    rw [ledger, unstored, List.append_assoc]

/-- The first element is there while the reading thread is about to move or point to it. -/
theorem Held.first (held : Held state items) {first : α} {rest : List α}
    (elements : items = first :: rest)
    (front : frontSlots state.consumer items = items.map .live) :
    state.queue.records[state.queue.readIndex]? = some (.live first) := by
  rw [held.ring.front, front, elements]
  rfl

/-- A change of the first place alone. -/
theorem Held.setFirst (held : Held state items) {consumer : Consumer α} {slot : Slot α}
    (destroyed : List α) (front : (frontSlots state.consumer items ++ backSlot state.producer ::
      List.replicate (state.queue.size - 1 - items.length) .raw).set 0 slot =
        frontSlots consumer items ++ backSlot state.producer ::
          List.replicate (state.queue.size - 1 - items.length) .raw)
    (there : ConsumerHeld state.queue items consumer)
    (left : destroyed ++ undestroyed consumer items =
      state.destroyed ++ undestroyed state.consumer items) :
    Held { state with
      queue := { state.queue with
        records := state.queue.records.set state.queue.readIndex slot }
      consumer := consumer
      destroyed := destroyed } items where
  ring := by
    have changed := held.ring.setFront slot
    rw [front] at changed
    exact changed
  producer := held.producer
  consumer := by
    cases consumer <;> exact there
  ledger := by
    simp only [left]
    exact held.ledger

/-- The record is moved out of the first place. -/
theorem Held.moved (held : Held state items) {first : α} {rest : List α}
    (elements : items = first :: rest) {currentRead nextRecord : Nat}
    (place : state.consumer = .moving currentRead nextRecord) :
    currentRead = state.queue.readIndex ∧ Held { state with
      queue := { state.queue with
        records := state.queue.records.set state.queue.readIndex .movedFrom }
      consumer := .destroying (some first) currentRead nextRecord } items := by
  have there := held.consumer
  rw [place] at there
  obtain ⟨rfl, next, _⟩ := there
  refine ⟨rfl, held.setFirst state.destroyed ?_ ?_ ?_⟩
  · rw [place, elements]
    rfl
  · refine ⟨rfl, next, first, rest, elements, ?_⟩
    rintro record ⟨⟩
    rfl
  · rw [place]
    rfl

/-- The object at the first place is destroyed. -/
theorem Held.destroyed (held : Held state items) {moved : Option α} {currentRead nextRecord : Nat}
    (place : state.consumer = .destroying moved currentRead nextRecord) :
    currentRead = state.queue.readIndex ∧
      (∃ slot, state.queue.records[currentRead]? = some slot ∧ slot ≠ .raw) ∧
      Held { state with
        queue := { state.queue with
          records := state.queue.records.set state.queue.readIndex .raw }
        consumer := .storing moved nextRecord
        destroyed := state.destroyed ++ Consumer.destroys state.queue
          (.destroying moved currentRead nextRecord) } items := by
  have there := held.consumer
  rw [place] at there
  obtain ⟨rfl, next, first, rest, rfl, same⟩ := there
  have front := held.ring.front
  have destroys : (∃ slot, state.queue.records[state.queue.readIndex]? = some slot ∧ slot ≠ .raw) ∧
      Consumer.destroys state.queue
        (.destroying moved state.queue.readIndex nextRecord) = [first] := by
    cases moved with
    | none =>
      rw [place] at front
      refine ⟨⟨.live first, front, by simp⟩, ?_⟩
      simp only [Consumer.destroys, front]
      rfl
    | some record =>
      rw [place] at front
      refine ⟨⟨.movedFrom, front, by simp⟩, ?_⟩
      rw [same record rfl]
      rfl
  refine ⟨rfl, destroys.1, ?_⟩
  rw [destroys.2]
  refine held.setFirst (state.destroyed ++ [first]) ?_ ⟨next, first, rest, rfl, same⟩ ?_
  · rw [place]
    cases moved <;> rfl
  · rw [place, List.append_assoc]
    rfl

/-- The store of the position for reading frees the place. -/
theorem Held.freed (held : Held state items) {moved : Option α} {nextRecord : Nat}
    (place : state.consumer = .storing moved nextRecord) {first : α} {rest : List α}
    (elements : items = first :: rest) (result : QueueResult α) :
    Held { state with
      queue := { state.queue with readIndex := nextRecord }
      consumer := .returning result } rest := by
  have there := held.consumer
  have ledger := held.ledger
  have ring := held.ring
  rw [place] at there ledger ring
  obtain ⟨rfl, _⟩ := there
  subst elements
  have room := ring.room
  rw [List.length_cons] at room
  have places : List.replicate (state.queue.size - 1 - rest.length) (Slot.raw : Slot α) =
      List.replicate (state.queue.size - 1 - (first :: rest).length) .raw ++ [.raw] := by
    rw [← List.replicate_succ', List.length_cons]
    congr 1
    omega
  refine ⟨?_, ?_, trivial, ledger⟩
  · have freed : Ring _ rest.length ((rest.map .live ++ backSlot state.producer ::
        List.replicate (state.queue.size - 1 - (first :: rest).length) .raw) ++ [.raw]) :=
      ring.freed
    rw [List.append_assoc, List.cons_append, ← places] at freed
    exact freed
  · have producer := held.producer
    cases placed : state.producer <;> rw [placed] at producer <;>
      simp only [ProducerHeld] at producer ⊢
    · exact producer
    · exact ⟨producer.1, producer.2.1, by rw [List.length_cons] at producer; omega⟩
    · exact ⟨producer.1, by rw [List.length_cons] at producer; omega⟩
    · exact producer

end Steps

/-! ## The bounded queue -/

abbrev Atomic (α : Type) : Type :=
  AtomicObject.State QueueEnd (BoundedQueue α) (QueueCall α) (QueueResult α)

/-- A call of the writing thread takes effect with the store of the position. -/
def producerPlace : Producer α → Place (QueueCall α) (QueueResult α)
  | .idle => .idle
  | .writing record _ | .constructing record _ _ | .storing record _ => .called (.write record)
  | .asking query _ => .called (.query query)
  | .returning result => .answered result

/-- What the reading thread is about to return for a record that it has removed. -/
def removal : Option α → QueueCall α
  | some _ => .read
  | none => .popFront

def removalResult : Option α → QueueResult α
  | some record => .record (some record)
  | none => .done

/-- A call of the reading thread takes effect with the store of the position. -/
def consumerPlace : Consumer α → Place (QueueCall α) (QueueResult α)
  | .idle => .idle
  | .reading _ | .moving _ _ => .called .read
  | .fronting _ => .called .frontPtr
  | .popping _ => .called .popFront
  | .destroying moved _ _ | .storing moved _ => .called (removal moved)
  | .asking query _ => .called (.query query)
  | .returning result => .answered result

def places (producer consumer : Place (QueueCall α) (QueueResult α)) :
    QueueEnd → Place (QueueCall α) (QueueResult α)
  | .producer => producer
  | .consumer => consumer

theorem update_producer (producer consumer moved : Place (QueueCall α) (QueueResult α)) :
    Function.update (places producer consumer) .producer moved = places moved consumer := by
  funext thread
  cases thread <;> rfl

theorem update_consumer (producer consumer moved : Place (QueueCall α) (QueueResult α)) :
    Function.update (places producer consumer) .consumer moved = places producer moved := by
  funext thread
  cases thread <;> rfl

/-- The ring holds the elements of the bounded queue, each thread is in the same call, and
the histories are the same. -/
structure Related (concrete : State α) (state : Atomic α) : Prop where
  held : Held concrete state.object.items
  capacity : state.object.capacity = concrete.queue.capacity
  fits : concrete.queue.size ≤ 2 ^ 31
  place : state.place = places (producerPlace concrete.producer) (consumerPlace concrete.consumer)
  history : state.history = concrete.history

/-- A step of the ring is answered by none or one of the bounded queue. -/
def Answered (after : State α) (state : Atomic α) : Prop :=
  Related after state ∨
    ∃ action next, AtomicObject.step apply state action = some next ∧ Related after next

section Answers

variable {before after : State α} {state : Atomic α}

/-- The answer to a question is that of the bounded queue. -/
theorem Related.query (related : Related before state) (query : QueueQuery) :
    apply state.object (.query query) = some
      (before.queue.answer before.queue.readIndex before.queue.writeIndex query, state.object) := by
  have ring := related.held.ring
  have capacity := related.capacity
  have room := ring.room
  cases query with
  | isEmpty =>
    have empty : state.object.isEmpty =
        (before.queue.readIndex == before.queue.writeIndex) := by
      rw [Bool.eq_iff_iff, beq_iff_eq, ring.empty_iff, BoundedQueue.isEmpty, List.isEmpty_iff,
        List.length_eq_zero_iff]
    rw [apply, answer, empty]
  | isFull =>
    have full : state.object.isFull =
        (before.queue.nextRecord before.queue.writeIndex == before.queue.readIndex) := by
      rw [Bool.eq_iff_iff, beq_iff_eq, ring.full_iff, BoundedQueue.isFull, beq_iff_eq, capacity,
        ProducerConsumerQueue.capacity]
      omega
    rw [apply, answer, full]
  | sizeGuess => rw [apply, answer, ring.sizeGuess_eq related.fits]

/-- A step that keeps the elements is answered by none when the places are the same. -/
theorem Related.still (related : Related before state) (held : Held after state.object.items)
    (size : after.queue.size = before.queue.size)
    (producer : producerPlace after.producer = producerPlace before.producer)
    (consumer : consumerPlace after.consumer = consumerPlace before.consumer)
    (history : after.history = before.history) : Answered after state := by
  refine Or.inl ⟨held, ?_, ?_, ?_, ?_⟩
  · simp only [related.capacity, ProducerConsumerQueue.capacity, size]
  · rw [size]
    exact related.fits
  · rw [related.place, producer, consumer]
  · rw [related.history, history]

/-- A call is answered by the same call. -/
theorem Related.called {thread : QueueEnd} {call : QueueCall α}
    (related : Related before state) (held : Held after state.object.items)
    (queue : after.queue = before.queue)
    (idle : state.place thread = .idle)
    (place : places (producerPlace after.producer) (consumerPlace after.consumer) =
      Function.update state.place thread (.called call))
    (history : after.history = before.history ++ [.called thread call]) :
    Answered after state := by
  refine Or.inr ⟨.call thread call, _, AtomicObject.call_step idle call, held, ?_, ?_,
    place.symm, ?_⟩
  · rw [queue]
    exact related.capacity
  · rw [queue]
    exact related.fits
  · rw [related.history, history]

/-- A return is answered by the same return. -/
theorem Related.returned {thread : QueueEnd} {result : QueueResult α}
    (related : Related before state) (held : Held after state.object.items)
    (queue : after.queue = before.queue)
    (answered : state.place thread = .answered result)
    (place : places (producerPlace after.producer) (consumerPlace after.consumer) =
      Function.update state.place thread .idle)
    (history : after.history = before.history ++ [.returned thread result]) :
    Answered after state := by
  refine Or.inr ⟨.answer thread, _, AtomicObject.answer_step answered, held, ?_, ?_,
    place.symm, ?_⟩
  · rw [queue]
    exact related.capacity
  · rw [queue]
    exact related.fits
  · rw [related.history, history]

/-- A step at which a call takes effect. -/
theorem Related.effected {thread : QueueEnd} {call : QueueCall α} {result : QueueResult α}
    {object : BoundedQueue α} (related : Related before state)
    (called : state.place thread = .called call)
    (applied : apply state.object call = some (result, object))
    (held : Held after object.items) (bound : object.capacity = state.object.capacity)
    (size : after.queue.size = before.queue.size)
    (place : places (producerPlace after.producer) (consumerPlace after.consumer) =
      Function.update state.place thread (.answered result))
    (history : after.history = before.history) : Answered after state := by
  refine Or.inr ⟨.effect thread, _, AtomicObject.effect_step called applied, held, ?_, ?_,
    place.symm, ?_⟩
  · simp only [bound, related.capacity, ProducerConsumerQueue.capacity, size]
  · rw [size]
    exact related.fits
  · rw [related.history, history]

theorem Related.producer_place (related : Related before state) :
    state.place .producer = producerPlace before.producer := by
  rw [related.place, places]

theorem Related.consumer_place (related : Related before state) :
    state.place .consumer = consumerPlace before.consumer := by
  rw [related.place, places]

/-- The writing thread finds room exactly when the bounded queue has room. -/
theorem Related.room_iff (related : Related before state) :
    before.queue.nextRecord before.queue.writeIndex ≠ before.queue.readIndex ↔
      state.object.items.length + 1 < before.queue.size := by
  have room := related.held.ring.room
  rw [ne_eq, related.held.ring.full_iff]
  omega

/-- What the writing thread does next is what the other one sees of it: only its own place changes
in the abstract queue. -/
theorem Related.producer_moves (related : Related before state) (moved : AtomicObject.Place
    (QueueCall α) (QueueResult α)) : places moved (consumerPlace before.consumer) =
      Function.update state.place .producer moved := by
  rw [related.place, update_producer]

/-- And so it is for the reading thread. -/
theorem Related.consumer_moves (related : Related before state) (moved : AtomicObject.Place
    (QueueCall α) (QueueResult α)) : places (producerPlace before.producer) moved =
      Function.update state.place .consumer moved := by
  rw [related.place, update_consumer]

/-- Where the reading thread finds the positions apart there is a first element, and the rest
behind it. -/
theorem Related.filled (related : Related before state)
    (apart : ¬ before.queue.readIndex = before.queue.writeIndex) :
    ∃ first rest, state.object.items = first :: rest := by
  refine List.exists_cons_of_ne_nil (fun none => apart ?_)
  rw [related.held.ring.empty_iff, none]
  rfl

/-- The load of a write: with room the element is to be constructed, which the queue does not see
yet, and without it the write is refused here, since the room can only grow until it returns. -/
theorem Related.producer_writes (related : Related before state) {record : α} {currentWrite : Nat}
    (placed : before.producer = .writing record currentWrite)
    (taken : step before (.advance .producer) = some after) : Answered after state := by
  have held := related.held
  have there := held.producer
  have place := related.producer_place
  rw [placed] at there place
  obtain rfl : currentWrite = before.queue.writeIndex := there
  simp only [step, placed, producerStep] at taken
  split at taken
  · rename_i room
    obtain rfl := Option.some.inj taken
    have kept := held.producerAt (.constructing record before.queue.writeIndex
      (before.queue.nextRecord before.queue.writeIndex)) ⟨rfl, rfl, related.room_iff.mp room⟩
      (by rw [placed]; rfl) (by rw [placed]; rfl) before.history
    refine related.still ?_ rfl (by rw [placed]; rfl) rfl rfl
    simp only [Producer.constructs, List.append_nil]
    exact kept
  · rename_i full
    obtain rfl := Option.some.inj taken
    have kept := held.producerAt (.returning (.flag false)) trivial
      (by rw [placed]; rfl) (by rw [placed]; rfl) before.history
    have refused : apply state.object (.write record) = some (.flag false, state.object) := by
      have noRoom : ¬ state.object.items.length < state.object.capacity := by
        rw [related.room_iff] at full
        rw [related.capacity, ProducerConsumerQueue.capacity]
        omega
      rw [apply, BoundedQueue.write, dif_neg noRoom]
    refine related.effected place refused ?_ rfl rfl (related.producer_moves _) rfl
    simp only [Producer.constructs, List.append_nil]
    exact kept

/-- The store of the position is where a write takes effect: from then on the reading thread finds
the element that was constructed before. -/
theorem Related.producer_stores (related : Related before state) {record : α} {nextRecord : Nat}
    (placed : before.producer = .storing record nextRecord)
    (taken : step before (.advance .producer) = some after) : Answered after state := by
  have held := related.held
  have current := held.producer
  have place := related.producer_place
  rw [placed] at current place
  obtain ⟨rfl, room⟩ := current
  simp only [step, placed, producerStep] at taken
  obtain rfl := Option.some.inj taken
  have fits : state.object.items.length < state.object.capacity := by
    rw [related.capacity, ProducerConsumerQueue.capacity]
    omega
  have stored : apply state.object (.write record) =
      some (.flag true, (state.object.write record).2) := by
    rw [apply, (BoundedQueue.write_succeeds_iff _ _).mpr fits]
  refine related.effected place stored ?_ (BoundedQueue.write_capacity _ _) rfl
    (related.producer_moves _) rfl
  rw [BoundedQueue.write_items fits]
  simp only [Producer.constructs, List.append_nil]
  exact held.written placed (.flag true)

/-- A write takes effect with the store of the position, and a refused one with the load. The
construction between them is not seen, and a question takes effect with its load. -/
theorem Related.producer_answers (related : Related before state)
    (taken : step before (.advance .producer) = some after) : Answered after state := by
  have held := related.held
  have there := held.producer
  have place := related.producer_place
  cases placed : before.producer with
  | idle =>
    rw [step, placed] at taken
    cases taken
  | writing record currentWrite => exact related.producer_writes placed taken
  | constructing record currentWrite nextRecord =>
    rw [placed] at there
    obtain ⟨rfl, _⟩ := there
    simp only [step, placed, producerStep] at taken
    obtain rfl := Option.some.inj taken
    exact related.still (held.constructed placed) rfl (by rw [placed]; rfl) rfl rfl
  | storing record nextRecord => exact related.producer_stores placed taken
  | asking query currentWrite =>
    rw [placed] at there place
    obtain rfl : currentWrite = before.queue.writeIndex := there
    simp only [step, placed, producerStep] at taken
    obtain rfl := Option.some.inj taken
    refine related.effected place (related.query query) ?_ rfl rfl (related.producer_moves _) rfl
    simp only [Producer.constructs, List.append_nil]
    exact held.producerAt (.returning _) trivial (by rw [placed]; rfl)
      (by rw [placed]; rfl) before.history
  | returning result =>
    rw [placed] at place
    simp only [step, placed] at taken
    obtain rfl := Option.some.inj taken
    exact related.returned (held.producerAt (.idle) trivial (by rw [placed]; rfl)
      (by rw [placed]; rfl) _) rfl place (related.producer_moves _) rfl

/-- The removal of the first element. -/
theorem apply_removal {queue : BoundedQueue α} {first : α} {rest : List α}
    (elements : queue.items = first :: rest) {moved : Option α}
    (same : ∀ record ∈ moved, record = first) : ∃ object,
    apply queue (removal moved) = some (removalResult moved, object) ∧
      object.capacity = queue.capacity ∧ object.items = rest := by
  obtain ⟨object, read, items, capacity⟩ := BoundedQueue.read_cons elements
  refine ⟨object, ?_, capacity, items⟩
  cases moved with
  | none => simp only [removal, apply, read, Option.map_some, removalResult]
  | some record =>
    obtain rfl := same record rfl
    simp only [removal, apply, read, removalResult]

/-- The load of a read: of an empty queue the read fails here, and else the first element is to be
moved out, which the queue does not see yet. -/
theorem Related.consumer_reads (related : Related before state) {currentRead : Nat}
    (placed : before.consumer = .reading currentRead)
    (taken : step before (.advance .consumer) = some after) : Answered after state := by
  have held := related.held
  have there := held.consumer
  have place := related.consumer_place
  rw [placed] at there place
  obtain rfl : currentRead = before.queue.readIndex := there
  simp only [step, placed, consumerStep] at taken
  split at taken
  · rename_i empty
    obtain rfl := Option.some.inj taken
    have failed : apply state.object .read = some (.record none, state.object) := by
      have nothing : state.object.read = none := by
        rw [BoundedQueue.read_none_iff, ← List.length_eq_zero_iff]
        exact held.ring.empty_iff.mp empty
      rw [apply, nothing]
    refine related.effected place failed ?_ rfl rfl (related.consumer_moves _) rfl
    simp only [Consumer.destroys, List.append_nil]
    exact held.consumerAt (.returning _) trivial (by rw [placed]; rfl) (by rw [placed]; rfl) _
  · rename_i apart
    obtain rfl := Option.some.inj taken
    obtain ⟨first, rest, elements⟩ := related.filled apart
    refine related.still ?_ rfl rfl (by rw [placed]; rfl) rfl
    simp only [Consumer.destroys, List.append_nil]
    exact held.consumerAt (.moving before.queue.readIndex _)
      ⟨rfl, rfl, elements ▸ List.cons_ne_nil first rest⟩ (by rw [placed]; rfl)
      (by rw [placed]; rfl) _

/-- A pointer to the front takes effect with the load: it is null for an empty queue, and else it
points to the first element, which stays alive in its place. -/
theorem Related.consumer_fronts (related : Related before state) {currentRead : Nat}
    (placed : before.consumer = .fronting currentRead)
    (taken : step before (.advance .consumer) = some after) : Answered after state := by
  have held := related.held
  have there := held.consumer
  have place := related.consumer_place
  rw [placed] at there place
  obtain rfl : currentRead = before.queue.readIndex := there
  simp only [step, placed, consumerStep] at taken
  have effect : ∀ record, state.object.items.head? = record →
      Answered { before with consumer := .returning (.record record) } state := by
    rintro record rfl
    have pointed : apply state.object .frontPtr =
        some (.record state.object.items.head?, state.object) := rfl
    exact related.effected place pointed (held.consumerAt (.returning _) trivial
      (by rw [placed]; rfl) (by rw [placed]; rfl) _) rfl rfl (related.consumer_moves _) rfl
  split at taken
  · rename_i empty
    obtain rfl := Option.some.inj taken
    simp only [Consumer.destroys, List.append_nil]
    refine effect none ?_
    rw [List.head?_eq_none_iff, ← List.length_eq_zero_iff]
    exact held.ring.empty_iff.mp empty
  · rename_i apart
    obtain ⟨first, rest, elements⟩ := related.filled apart
    rw [held.first elements (by rw [placed]; rfl)] at taken
    obtain rfl := Option.some.inj taken
    simp only [Consumer.destroys, List.append_nil]
    exact effect (some first) (by rw [elements]; rfl)

/-- A pop that passes its assertion has an element to destroy. Nothing was moved out of it. -/
theorem Related.consumer_pops (related : Related before state) {currentRead : Nat}
    (placed : before.consumer = .popping currentRead)
    (taken : step before (.advance .consumer) = some after) : Answered after state := by
  have held := related.held
  have there := held.consumer
  rw [placed] at there
  obtain rfl : currentRead = before.queue.readIndex := there
  simp only [step, placed, consumerStep] at taken
  split at taken
  · rename_i apart
    obtain rfl := Option.some.inj taken
    obtain ⟨first, rest, elements⟩ := related.filled apart
    refine related.still ?_ rfl rfl (by rw [placed]; rfl) rfl
    simp only [Consumer.destroys, List.append_nil]
    refine held.consumerAt (.destroying none before.queue.readIndex _)
      ⟨rfl, rfl, first, rest, elements, ?_⟩ (by rw [placed]; rfl) (by rw [placed]; rfl) _
    rintro record ⟨⟩
  · cases taken

/-- The first element is moved out of its place, which the queue does not see: the place is not
given back before the position is stored. -/
theorem Related.consumer_takes (related : Related before state) {currentRead nextRecord : Nat}
    (placed : before.consumer = .moving currentRead nextRecord)
    (taken : step before (.advance .consumer) = some after) : Answered after state := by
  have held := related.held
  have current := held.consumer
  rw [placed] at current
  obtain ⟨first, rest, elements⟩ := List.exists_cons_of_ne_nil current.2.2
  obtain ⟨rfl, kept⟩ := held.moved elements placed
  simp only [step, placed, consumerStep, held.first elements (by rw [placed]; rfl)] at taken
  obtain rfl := Option.some.inj taken
  refine related.still ?_ rfl rfl (by rw [placed]; rfl) rfl
  simp only [Consumer.destroys, List.append_nil]
  exact kept

/-- The element is destroyed in its place, moved from or not. There is one: the place was not raw
when the thread found it, and the writing thread does not come there. -/
theorem Related.consumer_destroys (related : Related before state) {moved : Option α}
    {currentRead nextRecord : Nat}
    (placed : before.consumer = .destroying moved currentRead nextRecord)
    (taken : step before (.advance .consumer) = some after) : Answered after state := by
  obtain ⟨rfl, ⟨slot, present, there⟩, kept⟩ := related.held.destroyed placed
  simp only [step, placed, consumerStep, present] at taken
  cases slot with
  | raw => exact absurd rfl there
  | live | movedFrom =>
    obtain rfl := Option.some.inj taken
    exact related.still kept rfl rfl (by rw [placed]; rfl) rfl

/-- The store of the position is where a read or a pop takes effect: the place is the writing
thread's from then on. -/
theorem Related.consumer_stores (related : Related before state) {moved : Option α}
    {nextRecord : Nat} (placed : before.consumer = .storing moved nextRecord)
    (taken : step before (.advance .consumer) = some after) : Answered after state := by
  have held := related.held
  have current := held.consumer
  have place := related.consumer_place
  rw [placed] at current place
  obtain ⟨rfl, first, rest, elements, same⟩ := current
  simp only [step, placed, consumerStep] at taken
  obtain rfl := Option.some.inj taken
  obtain ⟨object, removed, bound, left⟩ := apply_removal elements same
  refine related.effected place removed ?_ bound rfl ?_ rfl
  · rw [left]
    simp only [Consumer.destroys, List.append_nil]
    exact held.freed placed elements _
  · rw [← related.consumer_moves]
    cases moved <;> rfl

/-- A read takes effect with the store of the position, and a failed one with the load, as the
pointer to the front and the questions do. The steps between are not seen. -/
theorem Related.consumer_answers (related : Related before state)
    (taken : step before (.advance .consumer) = some after) : Answered after state := by
  have held := related.held
  have there := held.consumer
  have place := related.consumer_place
  cases placed : before.consumer with
  | idle =>
    rw [step, placed] at taken
    cases taken
  | reading currentRead => exact related.consumer_reads placed taken
  | fronting currentRead => exact related.consumer_fronts placed taken
  | popping currentRead => exact related.consumer_pops placed taken
  | moving currentRead nextRecord => exact related.consumer_takes placed taken
  | destroying moved currentRead nextRecord => exact related.consumer_destroys placed taken
  | storing moved nextRecord => exact related.consumer_stores placed taken
  | asking query currentRead =>
    rw [placed] at there place
    obtain rfl : currentRead = before.queue.readIndex := there
    simp only [step, placed, consumerStep] at taken
    obtain rfl := Option.some.inj taken
    refine related.effected place (related.query query) ?_ rfl rfl (related.consumer_moves _) rfl
    simp only [Consumer.destroys, List.append_nil]
    exact held.consumerAt (.returning _) trivial (by rw [placed]; rfl) (by rw [placed]; rfl) _
  | returning result =>
    rw [placed] at place
    simp only [step, placed] at taken
    obtain rfl := Option.some.inj taken
    exact related.returned (held.consumerAt .idle trivial (by rw [placed]; rfl)
      (by rw [placed]; rfl) _) rfl place (related.consumer_moves _) rfl

/-- A call loads the position that the thread itself stores. -/
theorem Related.producer_calls (related : Related before state) {call : QueueCall α}
    (taken : step before (.call .producer call) = some after) : Answered after state := by
  have held := related.held
  have place := related.producer_place
  cases placed : before.producer with
  | idle =>
    rw [placed] at place
    simp only [step, placed, if_true] at taken
    obtain ⟨producer, called, rfl⟩ := Option.map_eq_some_iff.mp taken
    have there : ProducerHeld before.queue state.object.items producer ∧
        backSlot producer = .raw ∧ unstored producer = [] ∧
        producerPlace producer = .called call := by
      cases call with
      | write record =>
        obtain rfl := Option.some.inj called
        exact ⟨rfl, rfl, rfl, rfl⟩
      | query query =>
        obtain rfl := Option.some.inj called
        exact ⟨rfl, rfl, rfl, rfl⟩
      | _ => cases called
    obtain ⟨there, back, pending, moved⟩ := there
    refine related.called (held.producerAt producer there (by rw [back, placed]; rfl)
      (by rw [pending, placed]; rfl) _) rfl place ?_ rfl
    rw [related.place, update_producer, ← moved]
  | _ => simp [step, placed] at taken

/-- A call of the reading thread loads its own position too, and is answered by the same call. -/
theorem Related.consumer_calls (related : Related before state) {call : QueueCall α}
    (taken : step before (.call .consumer call) = some after) : Answered after state := by
  have held := related.held
  have place := related.consumer_place
  cases placed : before.consumer with
  | idle =>
    rw [placed] at place
    simp only [step, placed, if_true] at taken
    obtain ⟨consumer, called, rfl⟩ := Option.map_eq_some_iff.mp taken
    have there : ConsumerHeld before.queue state.object.items consumer ∧
        frontSlots consumer state.object.items = state.object.items.map .live ∧
        undestroyed consumer state.object.items = state.object.items ∧
        consumerPlace consumer = .called call := by
      cases call with
      | write record => cases called
      | _ =>
        obtain rfl := Option.some.inj called
        exact ⟨rfl, by simp only [frontSlots], rfl, rfl⟩
    obtain ⟨there, front, left, moved⟩ := there
    have kept : frontSlots consumer state.object.items =
        frontSlots before.consumer state.object.items := by
      rw [front, placed]
      simp only [frontSlots]
    refine related.called (held.consumerAt consumer there kept (by rw [left, placed]; rfl) _)
      rfl place ?_ rfl
    rw [related.place, update_consumer, ← moved]
  | _ => simp [step, placed] at taken

/-- Each step of the ring is answered. -/
theorem answers : AtomicObject.Answers step apply (@Related α) := by
  intro before action after state related taken
  match action with
  | .call .producer _ => exact related.producer_calls taken
  | .call .consumer _ => exact related.consumer_calls taken
  | .advance .producer => exact related.producer_answers taken
  | .advance .consumer => exact related.consumer_answers taken

end Answers

/-- A new ring is the vacant queue. -/
theorem start_related {size : Nat} (two : 2 ≤ size) (fits : size ≤ 2 ^ 31) :
    Related (start size : State α) (AtomicObject.start (BoundedQueue.vacant (size - 1))) where
  held := start_held two
  capacity := rfl
  fits := fits
  place := by
    funext thread
    cases thread <;> rfl
  history := rfl

/-- What the two threads observe of the ring, in whatever order their accesses come, they can
observe of a bounded queue with one element less than the ring has places. -/
theorem linearizable {size : Nat} (two : 2 ≤ size) (fits : size ≤ 2 ^ 31)
    {actions : List (Action α)} {after : State α}
    (ran : LabelledRuns.run step (start size) actions = some after) :
    AtomicObject.Observed apply (BoundedQueue.vacant (size - 1)) after.history :=
  answers.observed (fun _ _ related => related.history) (start_related two fits) ran

/-- A write between the load and the return of a question. -/
theorem linearizable_overlapping : AtomicObject.Observed apply
    (BoundedQueue.vacant 1 : BoundedQueue Nat)
    ([.called .consumer (.query .isEmpty), .called .producer (.write 7),
      .returned .producer (.flag true), .returned .consumer (.flag true),
      .called .consumer .read, .returned .consumer (.record (some 7))] :
        List (AtomicObject.Event QueueEnd (QueueCall Nat) (QueueResult Nat))) :=
  linearizable (by decide) (by decide) (show LabelledRuns.run step (start 2)
    [.call .consumer (.query .isEmpty), .call .producer (.write 7), .advance .producer,
      .advance .producer, .advance .consumer, .advance .producer, .advance .producer,
      .advance .consumer, .call .consumer .read, .advance .consumer, .advance .consumer,
      .advance .consumer, .advance .consumer, .advance .consumer] = some _ from rfl)

end Mprt.ProducerConsumerQueue
