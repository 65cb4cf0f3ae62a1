import Mprt.CacheBufferThreads

/-!
# Circulating chunks

What holds of a buffer whose producer fills only the front of the cache queue
and whose consumer gives back only empty chunks: the chunks of the cache queue
behind the front are empty, and the two queues, of one capacity, never hold
more chunks together than one of them can take. Then no queue write fails, and
a rotation moves bytes without losing, repeating or reordering any.

The lemmas speak about one change of a front chunk or one rotation step. A
machine with these two threads composes them, whatever tasks its consumer has;
the operations run without interruption compose them too.
-/

namespace Mprt.Circulation

open CacheBufferThreads
open CacheBuffer (queueBytes)

variable {Task : Type}

/-- A chunk without bytes. -/
def Vacant (chunk : Chunk) : Prop := chunk.second.items = []

/-- The chunks of the cache queue that the producer is not filling: all of them
while it holds the chunk it filled last. -/
def waiting (buffer : CacheBuffer) : Producer → List Chunk
  | .carrying _ => buffer.cacheBuffer.items
  | _ => buffer.cacheBuffer.items.tail

/-- The chunk a consumer rotates is empty. -/
def Emptied (buffer : CacheBuffer) : Consumer Task → Prop
  | .ready _ => True
  | .rotating _ => ∃ chunk rest, buffer.dataBuffer.items = chunk :: rest ∧ Vacant chunk
  | .carrying val _ => Vacant val

/-- The consumer's task, now or after its rotation. -/
def taskOf : Consumer Task → Task
  | .ready task => task
  | .rotating next => next
  | .carrying _ next => next

/-- The bytes inside the buffer, in the order in which they will be taken. -/
def pending (buffer : CacheBuffer) (producer : Producer) : List UInt8 :=
  buffer.dataBytes ++ queueBytes (producerHeld producer) ++ buffer.frontBytes

/-- The chunks with bytes. -/
def occupied (chunks : List Chunk) : List Chunk := chunks.filter (fun chunk => !chunk.second.empty)

/-- What the producer has, in transit and at the front of the cache queue. -/
def producerSide (buffer : CacheBuffer) (producer : Producer) : List Chunk :=
  producerHeld producer ++ buffer.cacheBuffer.items.take 1

/-- The invariant of circulating chunks. -/
structure Circulates (buffer : CacheBuffer) (producer : Producer) (consumer : Consumer Task) :
    Prop where
  capacities : buffer.dataBuffer.capacity = buffer.cacheBuffer.capacity
  total : chunkCount buffer producer consumer ≤ buffer.cacheBuffer.capacity
  vacant : ∀ chunk ∈ waiting buffer producer, Vacant chunk
  emptied : Emptied buffer consumer

theorem occupied_append (first second : List Chunk) :
    occupied (first ++ second) = occupied first ++ occupied second :=
  List.filter_append ..

theorem mem_occupied {chunk : Chunk} {chunks : List Chunk} :
    chunk ∈ occupied chunks ↔ chunk ∈ chunks ∧ ¬ Vacant chunk := by
  simp [occupied, Vacant, ← CircularBuffer.empty_iff]

/-- Empty chunks are not among those with bytes. -/
theorem occupied_vacant {chunks : List Chunk} (vacant : ∀ chunk ∈ chunks, Vacant chunk) :
    occupied chunks = [] := by
  apply List.filter_eq_nil_iff.mpr
  intro chunk member
  simpa [CircularBuffer.empty_iff, Vacant] using vacant chunk member

/-- Chunks with bytes are all among those with bytes. -/
theorem occupied_filled {chunks : List Chunk} (filled : ∀ chunk ∈ chunks, ¬ Vacant chunk) :
    occupied chunks = chunks := by
  apply List.filter_eq_self.mpr
  intro chunk member
  have holdsBytes : chunk.second.items ≠ [] := filled chunk member
  simp [CircularBuffer.empty, holdsBytes]

/-- All bytes are in the chunks with bytes. -/
theorem queueBytes_occupied (chunks : List Chunk) : queueBytes (occupied chunks) = queueBytes chunks := by
  induction chunks with
  | nil => rfl
  | cons chunk rest inductionHypothesis =>
    by_cases vacant : chunk.second.items = []
    · have dropped : occupied (chunk :: rest) = occupied rest := by
        simp [occupied, CircularBuffer.empty, vacant]
      rw [dropped, inductionHypothesis, CacheBuffer.queueBytes_cons, vacant, List.nil_append]
    · have kept : occupied (chunk :: rest) = chunk :: occupied rest := by
        simp [occupied, CircularBuffer.empty, vacant]
      rw [kept, CacheBuffer.queueBytes_cons, inductionHypothesis, CacheBuffer.queueBytes_cons]

/-- The pending bytes are those of the data queue and of the producer's side. -/
theorem pending_eq (buffer : CacheBuffer) (producer : Producer) :
    pending buffer producer = buffer.dataBytes ++ queueBytes (producerSide buffer producer) := by
  rw [producerSide, CacheBuffer.queueBytes_append, ← List.append_assoc]
  rfl

/-- The producer's side depends on the cache queue alone. -/
theorem producerSide_congr {before after : CacheBuffer} (producer : Producer)
    (cache : after.cacheBuffer = before.cacheBuffer) :
    producerSide after producer = producerSide before producer := by
  rw [producerSide, producerSide, cache]

/-- The front of a queue of empty chunks is empty. -/
theorem take_vacant {chunks : List Chunk} (vacant : ∀ chunk ∈ chunks, Vacant chunk) :
    occupied (chunks.take 1) = [] :=
  occupied_vacant (fun chunk member => vacant chunk (List.mem_of_mem_take member))

/-- An empty chunk written behind the others does not change the front. -/
theorem take_write {chunks : List Chunk} {val : Chunk} (vacantVal : Vacant val) :
    occupied ((chunks ++ [val]).take 1) = occupied (chunks.take 1) := by
  cases chunks with
  | nil => exact occupied_vacant (by simpa using vacantVal)
  | cons front rest => rfl

/-- A chunk written behind the others that waits is itself empty. -/
theorem waiting_write {before after : CacheBuffer} {producer : Producer} {val : Chunk}
    (vacantVal : Vacant val) (cache : after.cacheBuffer.items = before.cacheBuffer.items ++ [val])
    (vacant : ∀ chunk ∈ waiting before producer, Vacant chunk) :
    ∀ chunk ∈ waiting after producer, Vacant chunk := by
  have later : ∀ chunk ∈ waiting after producer, chunk ∈ waiting before producer ∨ chunk = val := by
    intro chunk member
    cases producer with
    | carrying held => simpa [waiting, cache] using member
    | _ =>
      simp only [waiting, cache] at member ⊢
      cases items : before.cacheBuffer.items with
      | nil => simp [items] at member
      | cons front rest => simpa [items] using member
  intro chunk member
  rcases later chunk member with earlier | rfl
  · exact vacant chunk earlier
  · exact vacantVal

/-- What the producer adds behind the data queue does not disturb the consumer. -/
theorem emptied_append {before after : CacheBuffer} {consumer : Consumer Task} {more : List Chunk}
    (data : after.dataBuffer.items = before.dataBuffer.items ++ more)
    (emptied : Emptied before consumer) : Emptied after consumer := by
  cases consumer with
  | rotating next =>
    obtain ⟨chunk, rest, front, empty⟩ := emptied
    exact ⟨chunk, rest ++ more, by rw [data, front, List.cons_append], empty⟩
  | _ => exact emptied

/-- Whatever the producer does to its front chunk, and whether it then rotates
it or not, the chunks circulate. -/
theorem Circulates.change_front {before after : CacheBuffer} {consumer : Consumer Task}
    {next : Producer} (circulates : Circulates before .ready consumer) (change : Chunk → Chunk)
    (following : next = .ready ∨ next = .rotating)
    (cache : after.cacheBuffer = before.cacheBuffer.modifyFront change)
    (data : after.dataBuffer = before.dataBuffer) : Circulates after next consumer := by
  obtain ⟨capacities, total, vacant, emptied⟩ := circulates
  have tail : (before.cacheBuffer.modifyFront change).items.tail = before.cacheBuffer.items.tail := by
    cases items : before.cacheBuffer.items with
    | nil => rw [BoundedQueue.modifyFront_nil items]
    | cons front rest => rw [BoundedQueue.modifyFront_cons items, List.tail_cons, List.tail_cons]
  have idle : producerHeld next = [] := by rcases following with rfl | rfl <;> rfl
  have waits : waiting after next = waiting before .ready := by
    rcases following with rfl | rfl <;> simp only [waiting, cache, tail]
  refine ⟨?_, ?_, ?_, ?_⟩
  · rw [data, cache, BoundedQueue.modifyFront_capacity]
    exact capacities
  · simp only [chunkCount, producerHeld] at total
    simp only [chunkCount, idle, cache, data, BoundedQueue.modifyFront_length,
      BoundedQueue.modifyFront_capacity]
    exact total
  · rw [waits]
    exact vacant
  · exact emptied_append (by rw [data, List.append_nil]) emptied

/-- A rotation step of the producer keeps the chunks circulating and moves only
a chunk with bytes behind the data queue. -/
theorem Circulates.producer_moves {before after : CacheBuffer} {consumer : Consumer Task}
    {producer next : Producer} (circulates : Circulates before producer consumer)
    (taken : producerStep before producer .advance = some (after, next)) :
    Circulates after next consumer ∧
      ∃ more, after.dataBuffer.items = before.dataBuffer.items ++ more ∧
        (∀ chunk ∈ more, ¬ Vacant chunk) ∧
        occupied (more ++ producerSide after next) = occupied (producerSide before producer) := by
  obtain ⟨capacities, total, vacant, emptied⟩ := circulates
  have effect := producer_step_effect taken
  cases effect with
  | kept | entered => simp [producerStep] at taken
  | missed empty same =>
    subst same
    exact ⟨⟨capacities, total, vacant, emptied⟩, [], by simp, by simp, rfl⟩
  | @read val cache data =>
    obtain ⟨items, capacity⟩ := BoundedQueue.read_some_iff.mp cache
    simp only [waiting, items, List.tail_cons] at vacant
    refine ⟨⟨by rw [data, capacity]; exact capacities, ?_, vacant,
      emptied_append (by rw [data, List.append_nil]) emptied⟩, [], by simp [data], by simp, ?_⟩
    · simp only [chunkCount, items, producerHeld, List.length_cons, List.length_nil] at total
      simp only [chunkCount, data, capacity, producerHeld, List.length_cons, List.length_nil]
      omega
    · rw [List.nil_append, producerSide, occupied_append, take_vacant vacant, List.append_nil,
        producerSide, items]
      rfl
  | @dropped val empty same =>
    subst same
    refine ⟨⟨capacities, ?_, ?_, emptied⟩, [], by simp, by simp, ?_⟩
    · exact Nat.le_trans (by simp [chunkCount, producerHeld]) total
    · intro chunk member
      exact vacant chunk (List.mem_of_mem_tail member)
    · have gone : occupied [val] = [] := occupied_vacant (by simpa [Vacant] using empty)
      rw [List.nil_append, producerSide, producerSide, occupied_append, occupied_append]
      simp only [producerHeld, gone]
      rfl
  | @queued val filled cache data =>
    simp only [chunkCount, producerHeld, List.length_singleton] at total
    have room : before.dataBuffer.items.length < before.dataBuffer.capacity := by omega
    have items : after.dataBuffer.items = before.dataBuffer.items ++ [val] := by
      rw [data, BoundedQueue.write_items room]
    refine ⟨⟨by rw [data, cache]; simpa using capacities, ?_, ?_,
      emptied_append items emptied⟩, [val], items, by simpa [Vacant] using filled, ?_⟩
    · simp only [chunkCount, items, cache, producerHeld, List.length_append,
        List.length_singleton, List.length_nil]
      omega
    · intro chunk member
      simp only [waiting, cache] at member
      exact vacant chunk (List.mem_of_mem_tail member)
    · rw [producerSide, producerSide, cache]
      rfl

/-- A rotation step of the producer keeps the chunks circulating and the pending
bytes as they are. -/
theorem Circulates.producer_rotates {before after : CacheBuffer} {consumer : Consumer Task}
    {producer next : Producer} (circulates : Circulates before producer consumer)
    (taken : producerStep before producer .advance = some (after, next)) :
    Circulates after next consumer ∧ pending after next = pending before producer := by
  obtain ⟨circulating, more, items, _, moved⟩ := circulates.producer_moves taken
  refine ⟨circulating, ?_⟩
  rw [pending_eq, pending_eq, ← queueBytes_occupied (producerSide before producer), ← moved,
    queueBytes_occupied, CacheBuffer.queueBytes_append, ← List.append_assoc,
    CacheBuffer.dataBytes, items, CacheBuffer.queueBytes_append]
  rfl

/-- A consumer between operations may do anything to its front chunk, and enter
a rotation of it when it is then empty. -/
theorem Circulates.change_data {before after : CacheBuffer} {producer : Producer} {task : Task}
    {next : Consumer Task} (circulates : Circulates before producer (.ready task))
    (change : Chunk → Chunk) (cache : after.cacheBuffer = before.cacheBuffer)
    (data : after.dataBuffer = before.dataBuffer.modifyFront change)
    (held : consumerHeld next = []) (emptied : Emptied after next) :
    Circulates after producer next := by
  obtain ⟨capacities, total, vacant, _⟩ := circulates
  have waits : waiting after producer = waiting before producer := by
    cases producer <;> simp only [waiting, cache]
  refine ⟨?_, ?_, ?_, emptied⟩
  · rw [data, cache, BoundedQueue.modifyFront_capacity]
    exact capacities
  · simp only [chunkCount, consumerHeld] at total
    simp only [chunkCount, held, cache, data, BoundedQueue.modifyFront_length]
    exact total
  · rw [waits]
    exact vacant

/-- `put_data_ptr` after a change of the front chunk keeps the chunks
circulating when it forces a rotation only of a chunk it has emptied. -/
theorem Circulates.put_data {before held after : CacheBuffer} {producer : Producer}
    {task following : Task} {next : Consumer Task} {chunk : Chunk} {rotate : Bool}
    (circulates : Circulates before producer (.ready task)) (change : Chunk → Chunk)
    (found : before.getDataPtr = some (chunk, held))
    (forced : rotate = true → Vacant (change chunk))
    (moved : consumerPut (held.modifyData change) rotate following = (after, next)) :
    Circulates after producer next ∧ taskOf next = following ∧
      after.dataBuffer = before.dataBuffer.modifyFront change ∧
      after.cacheBuffer = before.cacheBuffer := by
  obtain ⟨⟨rest, front⟩, cache, data⟩ := CacheBuffer.getDataPtr_some found
  simp only [consumerPut, Prod.mk.injEq] at moved
  obtain ⟨rfl, ended⟩ := moved
  have sameData : ((held.modifyData change).putDataPtrSize rotate).1.dataBuffer =
      before.dataBuffer.modifyFront change := by
    rw [CacheBuffer.putDataPtrSize_data, CacheBuffer.modifyData, data]
  have sameCache : ((held.modifyData change).putDataPtrSize rotate).1.cacheBuffer =
      before.cacheBuffer :=
    (CacheBuffer.putDataPtrSize_cache _ rotate).trans cache
  have changed := BoundedQueue.modifyFront_cons front change
  cases rotates : ((held.modifyData change).putDataPtrSize rotate).2 with
  | false =>
    simp only [rotates, Bool.false_eq_true, if_false] at ended
    subst ended
    exact ⟨circulates.change_data change sameCache sameData rfl trivial, rfl, sameData, sameCache⟩
  | true =>
    simp only [rotates, if_true] at ended
    subst ended
    obtain ⟨other, others, items, cause⟩ := CacheBuffer.putDataPtrSize_rotates rotates
    have emptied : Vacant (change chunk) := by
      simp only [CacheBuffer.modifyData, data, changed, List.cons.injEq] at items
      rcases cause with vacant | rotated
      · rw [items.1]
        exact vacant
      · exact forced rotated
    have rotating : Emptied ((held.modifyData change).putDataPtrSize rotate).1
        (.rotating following) :=
      ⟨change chunk, rest, by rw [sameData, changed], emptied⟩
    exact ⟨circulates.change_data change sameCache sameData rfl rotating, rfl, sameData, sameCache⟩

/-- Erasing at the front takes the erased bytes off the head of the pending bytes. -/
theorem pending_erase {before held after : CacheBuffer} {chunk : Chunk} (count : Nat)
    (producer : Producer) (found : before.getDataPtr = some (chunk, held))
    (cache : after.cacheBuffer = before.cacheBuffer)
    (data : after.dataBuffer = before.dataBuffer.modifyFront (·.eraseBegin count)) :
    pending before producer = chunk.second.items.take count ++ pending after producer := by
  obtain ⟨⟨rest, front⟩, _⟩ := CacheBuffer.getDataPtr_some found
  have erased : after.dataBuffer.items = chunk.eraseBegin count :: rest := by
    rw [data, BoundedQueue.modifyFront_cons front]
  have bytes : before.dataBytes = chunk.second.items.take count ++ after.dataBytes := by
    simp only [CacheBuffer.dataBytes, front, erased, CacheBuffer.queueBytes_cons, Chunk.eraseBegin,
      CircularBuffer.eraseBegin_items, ← List.append_assoc, List.take_append_drop]
  simp only [pending, bytes, CacheBuffer.frontBytes, cache, List.append_assoc]

/-- A pass of a task that clears nothing keeps the chunks circulating, takes its
bytes off the head of the pending ones, and goes on with such a task. -/
theorem Circulates.takes {before after : CacheBuffer} {producer : Producer}
    {task : CacheBufferThreads.Task} {bytes : List UInt8}
    {next : Consumer CacheBufferThreads.Task}
    (circulates : Circulates before producer (.ready task)) (takes : task ≠ .clear)
    (taken : taskStep before task = some (bytes, after, next)) :
    Circulates after producer next ∧ pending before producer = bytes ++ pending after producer ∧
      taskOf next ≠ .clear := by
  have rests : Circulates before producer (Consumer.ready CacheBufferThreads.Task.idle) :=
    circulates.change_data (fun chunk => chunk) rfl (modifyFront_id _).symm rfl trivial
  cases task with
  | idle => simp [taskStep] at taken
  | clear => contradiction
  | write size removeData =>
    cases found : before.getDataPtr with
    | none =>
      simp only [taskStep, found, Option.some.injEq, Prod.mk.injEq] at taken
      obtain ⟨rfl, rfl, rfl⟩ := taken
      exact ⟨rests, rfl, by simp [taskOf]⟩
    | some result =>
      obtain ⟨chunk, held⟩ := result
      have goesOn : ∀ circBufferEnough itemCount,
          (if (!circBufferEnough) = true ∧ size - itemCount > 0 then
            CacheBufferThreads.Task.write (size - itemCount) removeData else .idle) ≠ .clear := by
        intro circBufferEnough itemCount
        split <;> simp
      simp only [taskStep, found] at taken
      split at taken <;> simp only [Option.some.injEq, Prod.mk.injEq] at taken
      · obtain ⟨rfl, moved⟩ := taken
        obtain ⟨circulating, following, data, cache⟩ :=
          circulates.put_data (·.eraseBegin _) found (by simp) moved
        exact ⟨circulating, pending_erase _ producer found cache data, following ▸ goesOn _ _⟩
      · obtain ⟨rfl, moved⟩ := taken
        have unchanged : held.modifyData (fun chunk => chunk) = held := by
          rw [CacheBuffer.modifyData, modifyFront_id]
        rw [← unchanged] at moved
        obtain ⟨circulating, following, data, cache⟩ :=
          circulates.put_data (fun chunk => chunk) found (by simp) moved
        rw [modifyFront_id] at data
        refine ⟨circulating, ?_, following ▸ goesOn _ _⟩
        simp only [pending, CacheBuffer.dataBytes, CacheBuffer.frontBytes, data, cache,
          List.nil_append]
  | discard seekPoint =>
    simp only [taskStep] at taken
    split at taken
    · simp only [Option.some.injEq, Prod.mk.injEq] at taken
      obtain ⟨rfl, rfl, rfl⟩ := taken
      exact ⟨rests, rfl, by simp [taskOf]⟩
    · cases found : before.getDataPtr with
      | none => simp [found] at taken
      | some result =>
        obtain ⟨chunk, held⟩ := result
        simp only [found, Option.some.injEq, Prod.mk.injEq] at taken
        obtain ⟨rfl, moved⟩ := taken
        obtain ⟨circulating, following, data, cache⟩ :=
          circulates.put_data (·.eraseBegin _) found (by simp) moved
        exact ⟨circulating, pending_erase _ producer found cache data, by simp [following]⟩

/-- A rotation step of the consumer keeps the chunks circulating and takes only
an empty chunk off the data queue. -/
theorem Circulates.consumer_moves {before after : CacheBuffer} {producer : Producer}
    {consumer next : Consumer Task} (circulates : Circulates before producer consumer)
    (rotated : consumerRotate before consumer = some (after, next)) :
    Circulates after producer next ∧
      (∃ gone, before.dataBuffer.items = gone ++ after.dataBuffer.items ∧
        gone.length ≤ 1 ∧ ∀ chunk ∈ gone, Vacant chunk) ∧
      occupied (producerSide after producer) = occupied (producerSide before producer) := by
  obtain ⟨capacities, total, vacant, emptied⟩ := circulates
  have effect := consumer_rotate_effect rotated
  cases effect with
  | handled => simp [consumerRotate] at rotated
  | missed empty same =>
    subst same
    exact ⟨⟨capacities, total, vacant, trivial⟩, ⟨[], rfl, Nat.zero_le 1, by simp⟩, rfl⟩
  | @read val following data cache =>
    obtain ⟨items, capacity⟩ := BoundedQueue.read_some_iff.mp data
    obtain ⟨chunk, rest, front, empty⟩ := emptied
    rw [items, List.cons.injEq] at front
    obtain ⟨rfl, _⟩ := front
    have waits : waiting after producer = waiting before producer := by
      cases producer <;> simp only [waiting, cache]
    refine ⟨⟨by rw [capacity, cache]; exact capacities, ?_, by rw [waits]; exact vacant, rfl⟩,
      ⟨[val], items, Nat.le_refl 1, by simpa using empty⟩, by rw [producerSide, cache]; rfl⟩
    simp only [chunkCount, items, consumerHeld, List.length_cons, List.length_nil] at total
    simp only [chunkCount, cache, consumerHeld, List.length_cons, List.length_nil]
    omega
  | @queued val following data cache =>
    simp only [chunkCount, consumerHeld, List.length_singleton] at total
    have room : before.cacheBuffer.items.length < before.cacheBuffer.capacity := by omega
    have items : after.cacheBuffer.items = before.cacheBuffer.items ++ [val] := by
      rw [cache, BoundedQueue.write_items room]
    have capacity : after.cacheBuffer.capacity = before.cacheBuffer.capacity := by
      rw [cache, BoundedQueue.write_capacity]
    refine ⟨⟨by rw [data, capacity]; exact capacities, ?_, waiting_write emptied items vacant,
      trivial⟩, ⟨[], by rw [data]; rfl, Nat.zero_le 1, by simp⟩, ?_⟩
    · simp only [chunkCount, items, data, capacity, consumerHeld, List.length_append,
        List.length_singleton, List.length_nil]
      omega
    · rw [producerSide, producerSide, occupied_append, occupied_append, items, take_write emptied]

/-- A rotation step of the consumer moves an empty chunk: it keeps the chunks
circulating and the pending bytes as they are. -/
theorem Circulates.consumer_rotates {before after : CacheBuffer} {producer : Producer}
    {consumer next : Consumer Task} (circulates : Circulates before producer consumer)
    (rotated : consumerRotate before consumer = some (after, next)) :
    Circulates after producer next ∧ pending after producer = pending before producer := by
  obtain ⟨circulating, ⟨gone, items, _, vacant⟩, side⟩ := circulates.consumer_moves rotated
  refine ⟨circulating, ?_⟩
  rw [pending_eq, pending_eq, ← queueBytes_occupied (producerSide after producer), side,
    queueBytes_occupied, CacheBuffer.dataBytes, CacheBuffer.dataBytes, items,
    CacheBuffer.queueBytes_append, CacheBuffer.queueBytes_of_empty vacant, List.nil_append]

/-- A consumer that renames its tasks is where it was. -/
theorem Circulates.map {Other : Type} {buffer : CacheBuffer} {producer : Producer}
    {consumer : Consumer Task} (circulates : Circulates buffer producer consumer)
    (change : Task → Other) : Circulates buffer producer (consumer.map change) := by
  obtain ⟨capacities, total, vacant, emptied⟩ := circulates
  cases consumer <;> exact ⟨capacities, total, vacant, emptied⟩

/-- Between operations the consumer may take up any task. -/
theorem Circulates.takes_up {Other : Type} {buffer : CacheBuffer} {producer : Producer}
    {task : Task} (circulates : Circulates buffer producer (.ready task)) (other : Other) :
    Circulates buffer producer (.ready other) :=
  circulates.map (fun _ => other)

/-- A rotation goes on with the task it was entered for. -/
theorem rotates_task {before after : CacheBuffer} {consumer next : Consumer Task}
    (rotated : consumerRotate before consumer = some (after, next)) :
    taskOf next = taskOf consumer := by
  have effect := consumer_rotate_effect rotated
  cases effect with
  | handled => simp [consumerRotate] at rotated
  | missed | read | queued => rfl

/-- The chunks of a new buffer circulate, and no byte is pending. -/
theorem make_circulates (bufferSize elemSize : Nat) (cacheLastSize dataLastSize : Int)
    (task : Task) :
    Circulates (CacheBuffer.make bufferSize elemSize cacheLastSize dataLastSize) .ready
        (.ready task) ∧
      pending (CacheBuffer.make bufferSize elemSize cacheLastSize dataLastSize) .ready = [] := by
  have items := CacheBuffer.make_cache_items bufferSize elemSize cacheLastSize dataLastSize
  let made := CacheBuffer.make bufferSize elemSize cacheLastSize dataLastSize
  have empty : ∀ chunk ∈ made.cacheBuffer.items, Vacant chunk := by
    intro chunk member
    rw [items] at member
    rw [List.eq_of_mem_replicate member]
    rfl
  have capacities : made.cacheBuffer.capacity =
      CacheBuffer.queueCapacity (CacheBuffer.bufferSizeCount bufferSize elemSize + 1) := by
    simp [made, CacheBuffer.make, CacheBuffer.initBuffer]
  have nothing : made.frontBytes = [] :=
    CacheBuffer.queueBytes_of_empty (fun chunk member => empty chunk (List.mem_of_mem_take member))
  refine ⟨⟨capacities.symm, ?_, ?_, trivial⟩, nothing⟩
  · have vacant : made.dataBuffer.items = [] := rfl
    simp only [chunkCount, producerHeld, consumerHeld, List.length_nil, Nat.add_zero]
    rw [items, List.length_replicate, ← capacities]
    simp [made, vacant]
  · intro chunk member
    exact empty chunk (List.mem_of_mem_tail member)

/-- `rotate_data` without interruption is the two steps of a rotation. -/
theorem Circulates.rotate_data {buffer : CacheBuffer} {producer : Producer} {task : Task}
    (circulates : Circulates buffer producer (.rotating task)) :
    Circulates buffer.rotateData producer (.ready task) ∧
      pending buffer.rotateData producer = pending buffer producer := by
  rw [CacheBuffer.rotateData]
  cases read : buffer.rotateDataRead with
  | none =>
    have missed : consumerRotate buffer (.rotating task) = some (buffer, .ready task) := by
      simp only [consumerRotate, read]
    exact circulates.consumer_rotates missed
  | some result =>
    obtain ⟨val, rest⟩ := result
    have taken : consumerRotate buffer (.rotating task) = some (rest, .carrying val task) := by
      simp only [consumerRotate, read]
    obtain ⟨carrying, same⟩ := circulates.consumer_rotates taken
    obtain ⟨arrives, still⟩ := carrying.consumer_rotates rfl
    exact ⟨arrives, still.trans same⟩

/-- `rotate_data` brings the producer no byte. -/
theorem Circulates.rotate_data_side {buffer : CacheBuffer} {producer : Producer} {task : Task}
    (circulates : Circulates buffer producer (.rotating task)) :
    occupied (producerSide buffer.rotateData producer) = occupied (producerSide buffer producer) := by
  rw [CacheBuffer.rotateData]
  cases read : buffer.rotateDataRead with
  | none => rfl
  | some result =>
    obtain ⟨val, rest⟩ := result
    have taken : consumerRotate buffer (.rotating task) = some (rest, .carrying val task) := by
      simp only [consumerRotate, read]
    obtain ⟨carrying, _, first⟩ := circulates.consumer_moves taken
    obtain ⟨_, _, second⟩ := carrying.consumer_moves rfl
    exact second.trans first

/-- `rotate_cache` without interruption is the two steps of a rotation. -/
theorem Circulates.rotate_cache {buffer : CacheBuffer} {consumer : Consumer Task}
    (circulates : Circulates buffer .rotating consumer) :
    Circulates buffer.rotateCache .ready consumer ∧
      pending buffer.rotateCache .ready = pending buffer .rotating := by
  rw [CacheBuffer.rotateCache]
  cases read : buffer.rotateCacheRead with
  | none =>
    have missed : producerStep buffer .rotating .advance = some (buffer, .ready) := by
      simp only [producerStep, read]
    exact circulates.producer_rotates missed
  | some result =>
    obtain ⟨val, rest⟩ := result
    have taken : producerStep buffer .rotating .advance = some (rest, .carrying val) := by
      simp only [producerStep, read]
    obtain ⟨carrying, same⟩ := circulates.producer_rotates taken
    obtain ⟨arrives, still⟩ := carrying.producer_rotates rfl
    exact ⟨arrives, still.trans same⟩

/-- `put_data_ptr` without interruption after a change of the front chunk. -/
theorem Circulates.put_data_ptr {before held : CacheBuffer} {producer : Producer} {task : Task}
    {chunk : Chunk} {rest : List Chunk} {rotate : Bool}
    (circulates : Circulates before producer (.ready task)) (change : Chunk → Chunk)
    (found : before.getDataPtr = some (chunk, held))
    (front : before.dataBuffer.items = chunk :: rest)
    (forced : rotate = true → Vacant (change chunk)) :
    Circulates ((held.modifyData change).putDataPtr rotate) producer (.ready task) ∧
      pending ((held.modifyData change).putDataPtr rotate) producer =
        (change chunk).second.items ++ queueBytes rest ++ queueBytes (producerHeld producer) ++
          before.frontBytes := by
  let changed := held.modifyData change
  have moved : consumerPut changed rotate task = ((changed.putDataPtrSize rotate).1,
      if (changed.putDataPtrSize rotate).2 then .rotating task else .ready task) := rfl
  obtain ⟨circulating, _, data, cache⟩ := circulates.put_data change found forced moved
  have items := BoundedQueue.modifyFront_cons front change
  rw [← data] at items
  have bytes : pending (changed.putDataPtrSize rotate).1 producer =
      (change chunk).second.items ++ queueBytes rest ++ queueBytes (producerHeld producer) ++
        before.frontBytes := by
    have same : (changed.putDataPtrSize rotate).1.frontBytes = before.frontBytes := by
      rw [CacheBuffer.frontBytes, CacheBuffer.frontBytes]
      exact congrArg (fun queue => queueBytes (queue.items.take 1)) cache
    have head : (changed.putDataPtrSize rotate).1.dataBytes =
        (change chunk).second.items ++ queueBytes rest := by
      rw [CacheBuffer.dataBytes]
      exact congrArg queueBytes items
    rw [pending, head, same]
  have ends : changed.putDataPtr rotate =
      if (changed.putDataPtrSize rotate).2 then (changed.putDataPtrSize rotate).1.rotateData
      else (changed.putDataPtrSize rotate).1 := rfl
  rw [ends]
  cases rotates : (changed.putDataPtrSize rotate).2 with
  | false =>
    simp only [rotates, Bool.false_eq_true, if_false] at circulating ⊢
    exact ⟨circulating, bytes⟩
  | true =>
    simp only [rotates, if_true] at circulating ⊢
    obtain ⟨arrives, same⟩ := circulating.rotate_data
    exact ⟨arrives, same.trans bytes⟩

/-- `put_data_ptr` brings the producer no byte. -/
theorem Circulates.put_data_ptr_side {before held : CacheBuffer} {producer : Producer} {task : Task}
    {chunk : Chunk} {rotate : Bool} (circulates : Circulates before producer (.ready task))
    (change : Chunk → Chunk) (found : before.getDataPtr = some (chunk, held))
    (forced : rotate = true → Vacant (change chunk)) :
    occupied (producerSide ((held.modifyData change).putDataPtr rotate) producer) =
      occupied (producerSide before producer) := by
  let changed := held.modifyData change
  have moved : consumerPut changed rotate task = ((changed.putDataPtrSize rotate).1,
      if (changed.putDataPtrSize rotate).2 then .rotating task else .ready task) := rfl
  obtain ⟨circulating, _, _, cache⟩ := circulates.put_data change found forced moved
  have same := producerSide_congr producer cache
  have ends : changed.putDataPtr rotate =
      if (changed.putDataPtrSize rotate).2 then (changed.putDataPtrSize rotate).1.rotateData
      else (changed.putDataPtrSize rotate).1 := rfl
  rw [ends, ← same]
  cases rotates : (changed.putDataPtrSize rotate).2 with
  | false => rfl
  | true =>
    simp only [rotates, if_true] at circulating ⊢
    exact circulating.rotate_data_side

/-- `put_cache_ptr` without interruption after a change of the front chunk. -/
theorem Circulates.put_cache_ptr {before filled : CacheBuffer} {consumer : Consumer Task}
    (circulates : Circulates before .ready consumer) (change : Chunk → Chunk) (rotate : Bool)
    (cache : filled.cacheBuffer = before.cacheBuffer.modifyFront change)
    (data : filled.dataBuffer = before.dataBuffer) :
    Circulates (filled.putCachePtr rotate) .ready consumer ∧
      pending (filled.putCachePtr rotate) .ready = pending filled .ready := by
  have sameCache := CacheBuffer.putCachePtrSize_cache filled rotate
  have sameData := CacheBuffer.putCachePtrSize_data filled rotate
  have bytes : ∀ producer, pending (filled.putCachePtrSize rotate).1 producer =
      pending filled producer := by
    intro producer
    rw [pending, pending, CacheBuffer.dataBytes, CacheBuffer.dataBytes, CacheBuffer.frontBytes,
      CacheBuffer.frontBytes, sameCache, sameData]
  have ends : filled.putCachePtr rotate =
      if (filled.putCachePtrSize rotate).2 then (filled.putCachePtrSize rotate).1.rotateCache
      else (filled.putCachePtrSize rotate).1 := rfl
  rw [ends]
  cases (filled.putCachePtrSize rotate).2 with
  | false =>
    refine ⟨circulates.change_front change (.inl rfl) ?_ (sameData.trans data), bytes .ready⟩
    exact sameCache.trans cache
  | true =>
    have rotating : Circulates (filled.putCachePtrSize rotate).1 .rotating consumer :=
      circulates.change_front change (.inr rfl) (sameCache.trans cache) (sameData.trans data)
    obtain ⟨arrives, same⟩ := rotating.rotate_cache
    exact ⟨arrives, same.trans (bytes .rotating)⟩

end Mprt.Circulation
