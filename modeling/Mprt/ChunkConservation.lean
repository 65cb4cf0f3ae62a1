import Mprt.CacheBufferThreads

/-!
# The stock of chunks

A buffer is made with a fixed number of chunks, and every one of them is in the
cache queue, in the data queue or in transit in one of the two threads. The
consumer always writes back what it has read. The producer writes back only a
chunk that holds bytes, so the stock is kept by every run in which no rotation
is forced on an empty front chunk, and one forced rotation of an empty chunk
loses it for good.

With the stock kept neither queue is ever full when a chunk is written to it,
and a producer without a chunk has one coming from the consumer.
-/

namespace Mprt.ChunkConservation

open CacheBufferThreads

/-- A rotation that is forced finds no chunk, or a front chunk with bytes. -/
def RotatesBytes (state : State) : Action → Prop
  | .producer (.putCachePtr true) | .producer .syncCache =>
      ∀ chunk ∈ state.buffer.cacheBuffer.front, chunk.second.empty = false
  | _ => True

instance (state : State) (action : Action) : Decidable (RotatesBytes state action) := by
  unfold RotatesBytes
  split <;> infer_instance

/-- What a kept stock of chunks means in a state: none is missing, a chunk in
transit finds room in its queue and is not dropped, and a producer that finds
the cache queue empty has a chunk on the consumer's side. -/
structure StockKept (stock : Nat) (state : State) : Prop where
  total : chunkCount state.buffer state.producer state.consumer = stock
  producerWrites : ∀ val, state.producer = .carrying val →
    val.second.empty = false ∧ (state.buffer.dataBuffer.write val).1 = true
  consumerWrites : ∀ val next, state.consumer = .carrying val next →
    (state.buffer.cacheBuffer.write val).1 = true
  returns : state.buffer.cacheBuffer.items = [] → state.producer = .ready →
    0 < state.buffer.dataBuffer.items.length + (consumerHeld state.consumer).length

/-- What the producer knows about the chunk it rotates. -/
def Rotates (buffer : CacheBuffer) : Producer → Prop
  | .ready => True
  | .rotating => ∃ chunk rest, buffer.cacheBuffer.items = chunk :: rest ∧ chunk.second.items ≠ []
  | .carrying val => val.second.items ≠ []

/-- A chunk that can hold something. -/
def Roomy (chunk : Chunk) : Prop := 0 < chunk.second.capacity

/-- The invariant of all runs that force no rotation of an empty chunk. -/
structure Invariant (stock : Nat) (state : State) : Prop where
  cacheCapacity : state.buffer.cacheBuffer.capacity = stock
  dataCapacity : state.buffer.dataBuffer.capacity = stock
  total : chunkCount state.buffer state.producer state.consumer = stock
  cacheRoomy : ∀ chunk ∈ state.buffer.cacheBuffer.items, Roomy chunk
  dataRoomy : ∀ chunk ∈ state.buffer.dataBuffer.items, Roomy chunk
  heldRoomy : ∀ chunk ∈ consumerHeld state.consumer, Roomy chunk
  rotates : Rotates state.buffer state.producer

/-- A chunk with bytes has room for them. -/
theorem roomy_of_filled {chunk : Chunk} (filled : chunk.second.items ≠ []) : Roomy chunk :=
  Nat.lt_of_lt_of_le (List.length_pos_iff.mpr filled) chunk.second.bounded

/-- Replacing the front by a chunk of at least its capacity keeps all chunks roomy. -/
theorem modifyFront_roomy {queue : BoundedQueue Chunk} {change : Chunk → Chunk}
    (keeps : ∀ chunk, chunk.second.capacity ≤ (change chunk).second.capacity)
    (roomy : ∀ chunk ∈ queue.items, Roomy chunk) :
    ∀ chunk ∈ (queue.modifyFront change).items, Roomy chunk := by
  cases items : queue.items with
  | nil =>
    rw [BoundedQueue.modifyFront_nil items]
    simp
  | cons front rest =>
    rw [BoundedQueue.modifyFront_cons items]
    rw [items] at roomy
    intro chunk member
    rcases List.mem_cons.mp member with rfl | later
    · exact Nat.lt_of_lt_of_le (roomy front List.mem_cons_self) (keeps front)
    · exact roomy chunk (List.mem_cons_of_mem front later)

/-- A queue with room has one roomy chunk more after a write. -/
theorem write_roomy {queue : BoundedQueue Chunk} {val : Chunk}
    (room : queue.items.length < queue.capacity) (valRoomy : Roomy val)
    (roomy : ∀ chunk ∈ queue.items, Roomy chunk) :
    ∀ chunk ∈ (queue.write val).2.items, Roomy chunk := by
  rw [BoundedQueue.write_items room]
  intro chunk member
  rcases List.mem_append.mp member with earlier | newest
  · exact roomy chunk earlier
  · exact List.mem_singleton.mp newest ▸ valRoomy

/-- What the producer knows depends on the cache queue only. -/
theorem rotates_congr {before after : CacheBuffer} {producer : Producer}
    (cache : after.cacheBuffer = before.cacheBuffer) (rotates : Rotates before producer) :
    Rotates after producer := by
  cases producer with
  | rotating => simpa only [Rotates, cache] using rotates
  | _ => exact rotates

/-- A chunk that comes back stands behind the one that the producer rotates. -/
theorem rotates_write {before after : CacheBuffer} {producer : Producer} {val : Chunk}
    (room : before.cacheBuffer.items.length < before.cacheBuffer.capacity)
    (cache : after.cacheBuffer = (before.cacheBuffer.write val).2)
    (rotates : Rotates before producer) : Rotates after producer := by
  cases producer with
  | rotating =>
    obtain ⟨chunk, rest, front, filled⟩ := rotates
    exact ⟨chunk, rest ++ [val], by simp [cache, BoundedQueue.write_items room, front], filled⟩
  | _ => exact rotates

/-- The invariant gives everything a kept stock means. -/
theorem Invariant.stockKept {stock : Nat} {state : State} (invariant : Invariant stock state)
    (positive : 0 < stock) : StockKept stock state := by
  have total := invariant.total
  have cacheCapacity := invariant.cacheCapacity
  have dataCapacity := invariant.dataCapacity
  refine ⟨total, ?_, ?_, ?_⟩
  · intro val carrying
    have rotates := invariant.rotates
    simp only [carrying, Rotates] at rotates
    simp only [chunkCount, carrying, producerHeld, List.length_singleton] at total
    refine ⟨Bool.eq_false_iff.mpr (fun vacant => rotates (CircularBuffer.empty_iff.mp vacant)), ?_⟩
    exact (BoundedQueue.write_succeeds_iff _ val).mpr (by omega)
  · intro val next carrying
    simp only [chunkCount, carrying, consumerHeld, List.length_singleton] at total
    exact (BoundedQueue.write_succeeds_iff _ val).mpr (by omega)
  · intro vacant ready
    simp only [chunkCount, vacant, ready, producerHeld, List.length_nil] at total
    omega

/-- A producer step keeps the invariant unless it forces the rotation of an
empty front chunk. -/
theorem producer_preserves {stock : Nat} {state : State} {action : ProducerAction}
    {after : CacheBuffer} {next : Producer} {written : List UInt8}
    (invariant : Invariant stock state) (condition : RotatesBytes state (.producer action))
    (taken : producerStep state.buffer state.producer action = some (after, next)) :
    Invariant stock { state with buffer := after, producer := next, written := written } := by
  obtain ⟨cacheCapacity, dataCapacity, total, cacheRoomy, dataRoomy, heldRoomy, rotates⟩ :=
    invariant
  obtain ⟨before, producer, consumer, history, consumed⟩ := state
  simp only [chunkCount] at *
  cases producer_step_effect taken with
  | kept _ cache data =>
    exact ⟨by rw [cache, cacheCapacity], by rw [data, dataCapacity],
      by simp only [chunkCount, cache, data, total],
      by rw [cache]; exact cacheRoomy, by rw [data]; exact dataRoomy, heldRoomy, trivial⟩
  | filled _ _ cache data =>
    exact ⟨by simp [cache, cacheCapacity], by rw [data, dataCapacity],
      by simpa [chunkCount, cache, data] using total,
      by rw [cache]; exact modifyFront_roomy (fun _ => Nat.le_refl _) cacheRoomy,
      by rw [data]; exact dataRoomy, heldRoomy, trivial⟩
  | cleared front cache data room =>
    have ready : next = .ready := by
      apply room
      exact cacheRoomy _ (by rw [front]; exact List.mem_cons_self)
    subst ready
    exact ⟨by simp [cache, cacheCapacity], by rw [data, dataCapacity],
      by simpa [chunkCount, cache, data] using total,
      by rw [cache]; exact modifyFront_roomy (fun _ => Nat.le_refl _) cacheRoomy,
      by rw [data]; exact dataRoomy, heldRoomy, trivial⟩
  | @entered _ chunk rest _ front cause cache data =>
    have filled : chunk.second.items ≠ [] := by
      have fronts : before.cacheBuffer.front = some chunk :=
        BoundedQueue.front_eq_some_iff.mpr ⟨rest, front⟩
      have roomy : Roomy chunk := cacheRoomy _ (by rw [front]; exact List.mem_cons_self)
      have holdsBytes : chunk.second.empty = false → chunk.second.items ≠ [] :=
        fun occupied vacant => by simp [CircularBuffer.empty_iff.mpr vacant] at occupied
      rcases cause with full | rfl | rfl
      · exact CircularBuffer.full_not_empty roomy full
      · exact holdsBytes (condition chunk fronts)
      · exact holdsBytes (condition chunk fronts)
    exact ⟨by rw [cache, cacheCapacity], by rw [data, dataCapacity],
      by simpa [chunkCount, cache, data, producerHeld] using total,
      by rw [cache]; exact cacheRoomy, by rw [data]; exact dataRoomy, heldRoomy,
      ⟨chunk, rest, cache ▸ front, filled⟩⟩
  | missed vacant same =>
    subst same
    exact ⟨cacheCapacity, dataCapacity, total, cacheRoomy, dataRoomy, heldRoomy, trivial⟩
  | read cache data =>
    obtain ⟨items, capacity⟩ := BoundedQueue.read_some_iff.mp cache
    obtain ⟨chunk, rest, front, filled⟩ := rotates
    rw [items, List.cons.injEq] at front
    obtain ⟨rfl, _⟩ := front
    rw [items] at cacheRoomy total
    refine ⟨capacity.trans cacheCapacity, by rw [data, dataCapacity], ?_,
      fun other member => cacheRoomy other (List.mem_cons_of_mem _ member),
      by rw [data]; exact dataRoomy, heldRoomy, filled⟩
    simp only [chunkCount, data, producerHeld, List.length_cons, List.length_nil] at total ⊢
    omega
  | dropped vacant same => exact absurd vacant rotates
  | @queued val filled cache data =>
    simp only [producerHeld, List.length_singleton] at total
    have room : before.dataBuffer.items.length < before.dataBuffer.capacity := by omega
    refine ⟨by rw [cache, cacheCapacity], by rw [data]; simpa using dataCapacity, ?_,
      by rw [cache]; exact cacheRoomy,
      by rw [data]; exact write_roomy room (roomy_of_filled filled) dataRoomy,
      heldRoomy, trivial⟩
    simp only [chunkCount, cache, data, BoundedQueue.write_items room, producerHeld,
      List.length_append, List.length_singleton, List.length_nil]
    omega

/-- Every consumer step keeps the invariant. -/
theorem consumer_preserves {stock : Nat} {state : State} {after : CacheBuffer}
    {next : Consumer Task} {removed : List UInt8} (invariant : Invariant stock state)
    (effect : ConsumerEffect state.buffer after state.consumer next) :
    Invariant stock { state with buffer := after, consumer := next, taken := removed } := by
  obtain ⟨cacheCapacity, dataCapacity, total, cacheRoomy, dataRoomy, heldRoomy, rotates⟩ :=
    invariant
  obtain ⟨before, producer, consumer, history, consumed⟩ := state
  simp only [chunkCount] at *
  cases effect with
  | handled change keeps cache data arrives =>
    have empty : consumerHeld next = [] := by
      obtain ⟨following, rfl | rfl⟩ := arrives <;> rfl
    refine ⟨by rw [cache, cacheCapacity], by simp [data, dataCapacity], ?_,
      by rw [cache]; exact cacheRoomy,
      by rw [data]; exact modifyFront_roomy keeps dataRoomy, by simp [empty],
      rotates_congr cache rotates⟩
    simp only [chunkCount, cache, data, empty, BoundedQueue.modifyFront_length]
    simpa [consumerHeld] using total
  | missed vacant same =>
    subst same
    exact ⟨cacheCapacity, dataCapacity, total, cacheRoomy, dataRoomy, by simp [consumerHeld],
      rotates⟩
  | read data cache =>
    obtain ⟨items, capacity⟩ := BoundedQueue.read_some_iff.mp data
    rw [items] at dataRoomy total
    refine ⟨by rw [cache, cacheCapacity], capacity.trans dataCapacity, ?_,
      by rw [cache]; exact cacheRoomy,
      fun other member => dataRoomy other (List.mem_cons_of_mem _ member), ?_,
      rotates_congr cache rotates⟩
    · simp only [chunkCount, cache, consumerHeld, List.length_cons, List.length_nil] at total ⊢
      omega
    · intro chunk member
      have frontRoomy := dataRoomy _ List.mem_cons_self
      rw [List.mem_singleton.mp member]
      exact frontRoomy
  | @queued val following data cache =>
    simp only [consumerHeld, List.length_singleton] at total
    have room : before.cacheBuffer.items.length < before.cacheBuffer.capacity := by omega
    refine ⟨by rw [cache]; simpa using cacheCapacity, by rw [data, dataCapacity], ?_,
      by rw [cache]; exact write_roomy room (heldRoomy val List.mem_cons_self) cacheRoomy,
      by rw [data]; exact dataRoomy, by simp [consumerHeld], rotates_write room cache rotates⟩
    simp only [chunkCount, cache, data, BoundedQueue.write_items room, consumerHeld,
      List.length_append, List.length_singleton, List.length_nil]
    omega

/-- One step of either thread keeps the invariant, when it forces no rotation
of an empty chunk. -/
theorem step_preserves {stock : Nat} (state : State) (action : Action) (next : State)
    (invariant : Invariant stock state) (condition : RotatesBytes state action)
    (taken : step state action = some next) : Invariant stock next := by
  cases action with
  | producer action =>
    simp only [step, Option.map_eq_some_iff] at taken
    obtain ⟨⟨after, producer⟩, moved, rfl⟩ := taken
    exact producer_preserves invariant condition moved
  | consumer action =>
    simp only [step, Option.map_eq_some_iff] at taken
    obtain ⟨⟨bytes, after, consumer⟩, moved, rfl⟩ := taken
    exact consumer_preserves invariant (consumer_step_effect moved)

/-- The rotation the condition excludes loses its chunk: when the front chunk is
empty, a forced rotation and its two steps leave one chunk less. -/
theorem forced_rotation_loses {state : State} {action : ProducerAction} {chunk : Chunk}
    {rest : List Chunk} (ready : state.producer = .ready)
    (front : state.buffer.cacheBuffer.items = chunk :: rest) (vacant : chunk.second.items = [])
    (forced : action = .putCachePtr true ∨ action = .syncCache) :
    ∃ finish, LabelledRuns.run step state
        [.producer action, .producer .advance, .producer .advance] = some finish ∧
      chunkCount finish.buffer finish.producer finish.consumer + 1 =
        chunkCount state.buffer state.producer state.consumer := by
  obtain ⟨buffer, producer, consumer, history, consumed⟩ := state
  obtain ⟨bufferSize, elemSize, total, data, ⟨capacity, items, bounded⟩, cacheLast, dataLast⟩ :=
    buffer
  simp only at ready front
  subst ready front
  have isEmpty : chunk.second.empty = true := CircularBuffer.empty_iff.mpr vacant
  rcases forced with rfl | rfl
  all_goals
    refine ⟨_, by
      simp [LabelledRuns.run, step, producerStep, producerPut, CacheBuffer.getCachePtr,
        CacheBuffer.getGenPtr, CacheBuffer.putCachePtrSize, CacheBuffer.putGenPtrSize,
        CacheBuffer.rotateCacheRead, CacheBuffer.rotateCacheWrite, BoundedQueue.front,
        BoundedQueue.read, isEmpty]
      rfl, ?_⟩
    simp only [chunkCount, producerHeld, List.length_cons, List.length_nil]
    omega

/-- At least one chunk is needed to hold at least one byte. -/
theorem bufferSizeCount_positive {bufferSize elemSize : Nat} (bytes : 1 ≤ bufferSize) :
    0 < CacheBuffer.bufferSizeCount bufferSize elemSize := by
  rw [CacheBuffer.bufferSizeCount]
  by_cases exact : bufferSize % elemSize = 0
  · have divides := Nat.div_add_mod bufferSize elemSize
    have quotient : bufferSize / elemSize ≠ 0 := by
      intro zero
      rw [zero, Nat.mul_zero, exact] at divides
      omega
    exact Nat.add_pos_left (Nat.pos_of_ne_zero quotient) _
  · simp [exact]

/-- While the slot count fits 32 bits, a queue has room for all the chunks. -/
theorem queueCapacity_of_fits {count : Nat} (fits : count + 1 < 2 ^ 32) :
    CacheBuffer.queueCapacity (count + 1) = count := by
  rw [CacheBuffer.queueCapacity, Nat.mod_eq_of_lt fits, Nat.add_sub_cancel]

/-- A new buffer whose slot count fits 32 bits has its whole stock. -/
theorem start_invariant {bufferSize elemSize : Nat} (elements : 1 ≤ elemSize)
    (slots : CacheBuffer.bufferSizeCount bufferSize elemSize + 1 < 2 ^ 32)
    (cacheLastSize dataLastSize : Int) :
    Invariant (CacheBuffer.bufferSizeCount bufferSize elemSize)
      (start bufferSize elemSize cacheLastSize dataLastSize) := by
  have capacity := queueCapacity_of_fits slots
  have items := CacheBuffer.make_cache_items bufferSize elemSize cacheLastSize dataLastSize
  rw [capacity] at items
  have vacant : (CacheBuffer.make bufferSize elemSize cacheLastSize dataLastSize).dataBuffer.items
      = [] := rfl
  refine ⟨?_, capacity, ?_, ?_, ?_, ?_, trivial⟩
  · simp [start, CacheBuffer.make, CacheBuffer.initBuffer, capacity]
  · simp [chunkCount, start, items, vacant, producerHeld, consumerHeld]
  · intro chunk member
    simp only [start, items] at member
    rw [List.eq_of_mem_replicate member]
    exact elements
  · simp [start, vacant]
  · simp [start, consumerHeld]

/-- From a new buffer whose slot count fits 32 bits, in every interleaving that
forces no rotation of an empty chunk, every state has the whole stock. -/
theorem stock_kept {bufferSize elemSize : Nat} {cacheLastSize dataLastSize : Int}
    {actions : List Action} {finish : State} (bytes : 1 ≤ bufferSize) (elements : 1 ≤ elemSize)
    (slots : CacheBuffer.bufferSizeCount bufferSize elemSize + 1 < 2 ^ 32)
    (condition : LabelledRuns.Meets step RotatesBytes
      (start bufferSize elemSize cacheLastSize dataLastSize) actions)
    (ran : LabelledRuns.run step (start bufferSize elemSize cacheLastSize dataLastSize) actions =
      some finish) :
    StockKept (CacheBuffer.bufferSizeCount bufferSize elemSize) finish := by
  have initial := start_invariant elements slots cacheLastSize dataLastSize
  have kept := LabelledRuns.run_preserves_under step_preserves initial condition ran
  exact kept.stockKept (bufferSizeCount_positive bytes)

/-- A round of one chunk: filled, rotated, read and given back. -/
def round : List Action :=
  [.producer .getCachePtr, .producer (.append [7]), .producer (.putCachePtr true),
    .producer .advance, .producer .advance,
    .consumer (.writeIntoRawBuffer 1 true), .consumer .advance, .consumer .advance,
    .consumer .advance]

/-- The stock of a buffer of two chunks is kept over a round. -/
theorem stock_kept_round :
    ∃ finish, LabelledRuns.run step (start 2 1 0 0) round = some finish ∧ StockKept 2 finish := by
  refine ⟨_, rfl, ?_⟩
  exact @stock_kept 2 1 0 0 round _ (by decide) (by decide) (by decide) (by decide) rfl

/-- One `sync_cache` on a new buffer of one chunk leaves it without a chunk. -/
theorem stock_lost :
    ∃ finish, LabelledRuns.run step (start 1 1 0 0)
        [.producer .syncCache, .producer .advance, .producer .advance] = some finish ∧
      chunkCount finish.buffer finish.producer finish.consumer = 0 ∧
      CacheBuffer.bufferSizeCount 1 1 = 1 :=
  ⟨_, rfl, rfl, rfl⟩

end Mprt.ChunkConservation
