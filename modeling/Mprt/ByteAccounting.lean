import Mathlib.Algebra.Order.Group.Int
import Mathlib.Algebra.BigOperators.Group.List.Basic
import Mathlib.Algebra.Ring.Int.Defs
import Mprt.LabelledRuns
import Mprt.CacheBuffer

/-!
# The byte counter of a chunk buffer

The public operations run one after the other. A chunk is checked out between
getting its pointer and putting it back, the front cache chunk by the producer
and the front data chunk by the consumer, and what happens to it meanwhile is
counted when it is put back, by its size then and when it was handed out.

What the counter is ahead of the stored bytes never shrinks. It grows where a
rotation clears a chunk after the difference has been taken: when the consumer
puts back a chunk with bytes and forces the rotation.
-/

namespace Mprt.ByteAccounting

open CacheBuffer

/-- The buffer with the flags that its front cache and its front data chunk are
checked out. -/
structure State where
  buffer : CacheBuffer
  cacheHeld : Bool
  dataHeld : Bool
deriving DecidableEq

inductive Operation where
  | getCachePtr
  | append (bytes : List UInt8)
  | putCachePtr (rotate : Bool)
  | clearCache
  | syncCache
  | getDataPtr
  | eraseBegin (count : Nat)
  | insertBegin (bytes : List UInt8) (first : Int)
  | clearFront
  | putDataPtr (rotate : Bool)
  | writeIntoRawBuffer (size : Int) (removeData : Bool)
  | discardDataUpto (seekPoint : Int)
  | clearData
deriving DecidableEq

/-- Change the chunk that the consumer has checked out. -/
def changeData (state : State) (change : Chunk → Chunk) : Option State :=
  if state.dataHeld then some { state with buffer := state.buffer.modifyData change } else none

/-- A chunk is changed and put back only by who has it, and an operation that
checks a chunk out itself needs it to be there. A null pointer checks out nothing. -/
def step (state : State) : Operation → Option State
  | .getCachePtr =>
      if state.cacheHeld then none
      else
        match state.buffer.getCachePtr with
        | none => some state
        | some (_, held) => some { state with buffer := held, cacheHeld := true }
  | .append bytes =>
      if state.cacheHeld then
        some { state with buffer := state.buffer.modifyCache (·.append bytes) }
      else none
  | .putCachePtr rotate =>
      if state.cacheHeld then
        some { state with buffer := state.buffer.putCachePtr rotate, cacheHeld := false }
      else none
  | .clearCache =>
      if state.cacheHeld then none else some { state with buffer := state.buffer.clearCache }
  | .syncCache =>
      if state.cacheHeld then none else some { state with buffer := state.buffer.syncCache }
  | .getDataPtr =>
      if state.dataHeld then none
      else
        match state.buffer.getDataPtr with
        | none => some state
        | some (_, held) => some { state with buffer := held, dataHeld := true }
  | .eraseBegin count => changeData state (·.eraseBegin count)
  | .insertBegin bytes first => changeData state (·.insertBegin bytes first)
  | .clearFront => changeData state Chunk.clear
  | .putDataPtr rotate =>
      if state.dataHeld then
        some { state with buffer := state.buffer.putDataPtr rotate, dataHeld := false }
      else none
  | .writeIntoRawBuffer size removeData =>
      if state.dataHeld then none
      else (state.buffer.writeIntoRawBuffer size removeData).map (fun written =>
        { state with buffer := written.2 })
  | .discardDataUpto seekPoint =>
      if state.dataHeld then none
      else (state.buffer.discardDataUpto seekPoint).map (fun rest => { state with buffer := rest })
  | .clearData =>
      if state.dataHeld then none else some { state with buffer := state.buffer.clearData }

/-- A new buffer with no chunk checked out. -/
def start (bufferSize elemSize : Nat) (cacheLastSize dataLastSize : Int) : State :=
  ⟨CacheBuffer.make bufferSize elemSize cacheLastSize dataLastSize, false, false⟩

/-- The sum of the sizes of chunks. -/
def sizes (chunks : List Chunk) : Int := (chunks.map (fun chunk => (chunk.second.size : Int))).sum

/-- The bytes stored in both queues. -/
def storedBytes (buffer : CacheBuffer) : Int :=
  sizes buffer.dataBuffer.items + sizes buffer.cacheBuffer.items

/-- The counter is the number of stored bytes. -/
def Accounted (buffer : CacheBuffer) : Prop :=
  buffer.totalBytesInBufferGuess = storedBytes buffer ∧ 0 ≤ buffer.totalBytesInBufferGuess

instance (buffer : CacheBuffer) : Decidable (Accounted buffer) := by
  unfold Accounted
  infer_instance

/-- A rotation of the data queue is forced only on an empty chunk. -/
def ForcesEmpty (state : State) (operation : Operation) : Prop :=
  operation = .putDataPtr true →
    ∀ chunk ∈ state.buffer.dataBuffer.front, chunk.second.empty = true

instance (state : State) (operation : Operation) : Decidable (ForcesEmpty state operation) := by
  unfold ForcesEmpty
  infer_instance

@[simp] theorem sizes_nil : sizes [] = 0 := rfl

@[simp] theorem sizes_cons (chunk : Chunk) (chunks : List Chunk) :
    sizes (chunk :: chunks) = chunk.second.size + sizes chunks := List.sum_cons

@[simp] theorem sizes_append (first second : List Chunk) :
    sizes (first ++ second) = sizes first + sizes second := by
  rw [sizes, List.map_append, List.sum_append]
  rfl

/-- Sizes are not negative, and their sum is not either. -/
theorem sizes_nonneg (chunks : List Chunk) : 0 ≤ sizes chunks := by
  induction chunks with
  | nil => exact Int.le_refl 0
  | cons chunk rest inductionHypothesis =>
    rw [sizes_cons]
    exact Int.add_nonneg (Int.natCast_nonneg _) inductionHypothesis

/-- The size of the first chunk, or zero. -/
def frontSize (queue : BoundedQueue Chunk) : Int := sizes (queue.items.take 1)

theorem frontSize_cons {queue : BoundedQueue Chunk} {chunk : Chunk} {rest : List Chunk}
    (front : queue.items = chunk :: rest) : frontSize queue = chunk.second.size := by
  rw [frontSize, front]
  simp

/-- By how much the counter, brought up to date for the chunks that are checked
out, is ahead of the stored bytes. -/
def ahead (buffer : CacheBuffer) (cacheHeld dataHeld : Bool) : Int :=
  buffer.totalBytesInBuffer +
    (if cacheHeld then frontSize buffer.cacheBuffer - buffer.cacheLastSize else 0) +
    (if dataHeld then frontSize buffer.dataBuffer - buffer.dataLastSize else 0) -
    storedBytes buffer

/-- There is a place for every chunk in either queue, and a chunk that is checked
out is there. -/
structure Roomy (buffer : CacheBuffer) (cacheHeld dataHeld : Bool) : Prop where
  room : buffer.dataBuffer.items.length + buffer.cacheBuffer.items.length ≤
    buffer.dataBuffer.capacity
  same : buffer.cacheBuffer.capacity = buffer.dataBuffer.capacity
  cacheFront : cacheHeld = true → buffer.cacheBuffer.items ≠ []
  dataFront : dataHeld = true → buffer.dataBuffer.items ≠ []

/-- A step of a thread keeps the places, and what the counter is ahead by moves
by a given amount. -/
structure Moves (before : CacheBuffer) (cacheBefore dataBefore : Bool) (after : CacheBuffer)
    (cacheAfter dataAfter : Bool) (lost : Int) : Prop where
  roomy : Roomy after cacheAfter dataAfter
  ahead : ahead after cacheAfter dataAfter = ahead before cacheBefore dataBefore + lost

variable {buffer held : CacheBuffer} {cacheHeld dataHeld : Bool} {chunk : Chunk}

/-- Checking out the front cache chunk remembers its size. -/
theorem getCachePtr_moves (roomy : Roomy buffer false dataHeld)
    (found : buffer.getCachePtr = some (chunk, held)) :
    Moves buffer false dataHeld held true dataHeld 0 := by
  obtain ⟨⟨rest, front⟩, _, _⟩ := getCachePtr_some found
  have fronts := BoundedQueue.front_eq_some_iff.mpr ⟨rest, front⟩
  simp only [CacheBuffer.getCachePtr, getGenPtr, fronts, Option.map_some, Option.some.injEq,
    Prod.mk.injEq, true_and] at found
  subst found
  refine ⟨⟨roomy.room, roomy.same, fun _ => by simp [front], roomy.dataFront⟩, ?_⟩
  simp [ahead, frontSize_cons front, storedBytes]

/-- Checking out the front data chunk remembers its size. -/
theorem getDataPtr_moves (roomy : Roomy buffer cacheHeld false)
    (found : buffer.getDataPtr = some (chunk, held)) :
    Moves buffer cacheHeld false held cacheHeld true 0 := by
  obtain ⟨⟨rest, front⟩, _, _⟩ := getDataPtr_some found
  have fronts := BoundedQueue.front_eq_some_iff.mpr ⟨rest, front⟩
  simp only [CacheBuffer.getDataPtr, getGenPtr, fronts, Option.map_some, Option.some.injEq,
    Prod.mk.injEq, true_and] at found
  subst found
  refine ⟨⟨roomy.room, roomy.same, roomy.cacheFront, fun _ => by simp [front]⟩, ?_⟩
  simp [ahead, frontSize_cons front, storedBytes]

/-- What is done to a chunk that is checked out is counted. -/
theorem modifyCache_moves (roomy : Roomy buffer true dataHeld) (change : Chunk → Chunk) :
    Moves buffer true dataHeld (buffer.modifyCache change) true dataHeld 0 := by
  obtain ⟨chunk, rest, front⟩ := List.exists_cons_of_ne_nil (roomy.cacheFront rfl)
  have changed := BoundedQueue.modifyFront_cons front change
  refine ⟨⟨?_, ?_, fun _ => ?_, roomy.dataFront⟩, ?_⟩
  · simpa [modifyCache] using roomy.room
  · simpa [modifyCache] using roomy.same
  · simp [modifyCache, changed]
  · simp only [ahead, modifyCache, frontSize_cons changed, frontSize_cons front, storedBytes,
      changed, front, sizes_cons, if_true]
    omega

theorem modifyData_moves (roomy : Roomy buffer cacheHeld true) (change : Chunk → Chunk) :
    Moves buffer cacheHeld true (buffer.modifyData change) cacheHeld true 0 := by
  obtain ⟨chunk, rest, front⟩ := List.exists_cons_of_ne_nil (roomy.dataFront rfl)
  have changed := BoundedQueue.modifyFront_cons front change
  refine ⟨⟨?_, ?_, roomy.cacheFront, fun _ => ?_⟩, ?_⟩
  · simpa [modifyData] using roomy.room
  · simpa [modifyData] using roomy.same
  · simp [modifyData, changed]
  · simp only [ahead, modifyData, frontSize_cons changed, frontSize_cons front, storedBytes,
      changed, front, sizes_cons, if_true]
    omega

/-- The front of a queue that has one does not change when a chunk is written. -/
theorem frontSize_append {before after : BoundedQueue Chunk} (front : before.items ≠ [])
    {more : List Chunk} (items : after.items = before.items ++ more) :
    frontSize after = frontSize before := by
  obtain ⟨chunk, rest, parts⟩ := List.exists_cons_of_ne_nil front
  rw [frontSize_cons parts, frontSize_cons (items.trans (congrArg (· ++ more) parts))]

/-- Putting back the front cache chunk loses no byte. -/
theorem putCachePtr_moves (roomy : Roomy buffer true dataHeld) (rotate : Bool) :
    Moves buffer true dataHeld (buffer.putCachePtr rotate) false dataHeld 0 := by
  obtain ⟨chunk, rest, front⟩ := List.exists_cons_of_ne_nil (roomy.cacheFront rfl)
  have total := putCachePtr_total front rotate
  have room := roomy.room
  rw [front, List.length_cons] at room
  obtain ⟨dataCapacity, cacheCapacity, lastSize, queues⟩ :=
    putCachePtr_queues front (by omega) rotate
  have grows : ∃ more, (buffer.putCachePtr rotate).dataBuffer.items =
      buffer.dataBuffer.items ++ more := by
    rcases queues with ⟨_, data⟩ | ⟨_, data⟩ | ⟨_, _, data⟩
    · exact ⟨[], data.trans (List.append_nil _).symm⟩
    · exact ⟨[chunk], data⟩
    · exact ⟨[], data.trans (List.append_nil _).symm⟩
  obtain ⟨more, data⟩ := grows
  refine ⟨⟨?_, ?_, nofun, fun held => ?_⟩, ?_⟩
  · rw [dataCapacity]
    rcases queues with ⟨cache, data⟩ | ⟨cache, data⟩ | ⟨_, cache, data⟩
    · rw [cache, data, List.length_cons]
      exact room
    · rw [cache, data, List.length_append, List.length_singleton]
      omega
    · rw [cache, data]
      omega
  · rw [cacheCapacity, dataCapacity, roomy.same]
  · rw [data]
    exact List.append_ne_nil_of_left_ne_nil (roomy.dataFront held) _
  · have others : (if dataHeld then frontSize (buffer.putCachePtr rotate).dataBuffer -
        (buffer.putCachePtr rotate).dataLastSize else 0) =
          if dataHeld then frontSize buffer.dataBuffer - buffer.dataLastSize else 0 := by
      cases dataHeld with
      | false => rfl
      | true => simp only [if_true, lastSize, frontSize_append (roomy.dataFront rfl) data]
    have stored : storedBytes (buffer.putCachePtr rotate) = storedBytes buffer := by
      simp only [storedBytes]
      rcases queues with ⟨cache, data⟩ | ⟨cache, data⟩ | ⟨vacant, cache, data⟩
      · rw [cache, data, front]
      · rw [cache, data, front, sizes_append, sizes_cons, sizes_cons, sizes_nil]
        omega
      · rw [cache, data, front, sizes_cons, CircularBuffer.size, vacant]
        simp
    simp only [ahead, total, others, stored, frontSize_cons front, Bool.false_eq_true, if_false,
      if_true]
    omega

/-- Putting back the front data chunk loses the bytes that a forced rotation clears. -/
theorem putDataPtr_moves (roomy : Roomy buffer cacheHeld true) (rotate : Bool) :
    Moves buffer cacheHeld true (buffer.putDataPtr rotate) cacheHeld false
      (if rotate then frontSize buffer.dataBuffer else 0) := by
  obtain ⟨chunk, rest, front⟩ := List.exists_cons_of_ne_nil (roomy.dataFront rfl)
  have total := putDataPtr_total front rotate
  have room := roomy.room
  have same := roomy.same
  rw [front, List.length_cons] at room
  obtain ⟨dataCapacity, cacheCapacity, lastSize, queues⟩ :=
    putDataPtr_queues front (by omega) rotate
  have grows : ∃ more, (buffer.putDataPtr rotate).cacheBuffer.items =
      buffer.cacheBuffer.items ++ more := by
    rcases queues with ⟨_, _, cache⟩ | ⟨_, _, cache⟩
    · exact ⟨[], cache.trans (List.append_nil _).symm⟩
    · exact ⟨[chunk.clear], cache⟩
  obtain ⟨more, cache⟩ := grows
  refine ⟨⟨?_, ?_, fun held => ?_, nofun⟩, ?_⟩
  · rw [dataCapacity]
    rcases queues with ⟨_, data, cache⟩ | ⟨_, data, cache⟩
    · rw [cache, data, List.length_cons]
      exact room
    · rw [cache, data, List.length_append, List.length_singleton]
      omega
  · rw [cacheCapacity, dataCapacity, roomy.same]
  · rw [cache]
    exact List.append_ne_nil_of_left_ne_nil (roomy.cacheFront held) _
  · have others : (if cacheHeld then frontSize (buffer.putDataPtr rotate).cacheBuffer -
        (buffer.putDataPtr rotate).cacheLastSize else 0) =
          if cacheHeld then frontSize buffer.cacheBuffer - buffer.cacheLastSize else 0 := by
      cases cacheHeld with
      | false => rfl
      | true => simp only [if_true, lastSize, frontSize_append (roomy.cacheFront rfl) cache]
    have stored : storedBytes (buffer.putDataPtr rotate) +
        (if rotate then (chunk.second.size : Int) else 0) = storedBytes buffer := by
      simp only [storedBytes]
      rcases queues with ⟨unforced, data, cache⟩ | ⟨handed, data, cache⟩
      · rw [cache, data, front, unforced]
        simp
      · rw [cache, data, front, sizes_append, sizes_cons, sizes_cons, sizes_nil]
        have cleared : chunk.clear.second.size = 0 := rfl
        rw [cleared]
        rcases handed with forced | vacant
        · rw [forced, if_pos rfl]
          omega
        · rw [CircularBuffer.size, vacant]
          simp
    simp only [ahead, total, others, frontSize_cons front, Bool.false_eq_true, if_false, if_true]
    omega

namespace Moves

variable {first second third : CacheBuffer} {firstCache firstData secondCache secondData : Bool}
  {thirdCache thirdData : Bool} {lost lostLater : Int}

theorem refl (roomy : Roomy first firstCache firstData) :
    Moves first firstCache firstData first firstCache firstData 0 :=
  ⟨roomy, (Int.add_zero _).symm⟩

theorem trans (before : Moves first firstCache firstData second secondCache secondData lost)
    (after : Moves second secondCache secondData third thirdCache thirdData lostLater) :
    Moves first firstCache firstData third thirdCache thirdData (lost + lostLater) :=
  ⟨after.roomy, by rw [after.ahead, before.ahead, Int.add_assoc]⟩

end Moves

/-- The consumer takes the front chunk, changes it and puts it back; when the
rotation is forced, the chunk has been emptied. -/
theorem consumer_pass (roomy : Roomy buffer cacheHeld false)
    (found : buffer.getDataPtr = some (chunk, held)) (change : Chunk → Chunk) (rotate : Bool)
    (emptied : rotate = true → (change chunk).second.items = []) :
    Moves buffer cacheHeld false ((held.modifyData change).putDataPtr rotate) cacheHeld false 0 := by
  obtain ⟨⟨rest, front⟩, _, data⟩ := getDataPtr_some found
  have taken := getDataPtr_moves roomy found
  have changed := modifyData_moves taken.roomy change
  have put := putDataPtr_moves changed.roomy rotate
  have nothing : (if rotate then frontSize (held.modifyData change).dataBuffer else 0) = 0 := by
    cases rotate with
    | false => rfl
    | true =>
      have items := BoundedQueue.modifyFront_cons (data ▸ front) change
      rw [if_pos rfl, modifyData, frontSize_cons items, CircularBuffer.size, emptied rfl]
      rfl
  rw [nothing] at put
  exact (taken.trans changed).trans put

/-- Looking at the front chunk and putting it back loses nothing. -/
theorem consumer_look (roomy : Roomy buffer cacheHeld false)
    (found : buffer.getDataPtr = some (chunk, held)) :
    Moves buffer cacheHeld false (held.putDataPtr false) cacheHeld false 0 := by
  have taken := getDataPtr_moves roomy found
  exact taken.trans (putDataPtr_moves taken.roomy false)

/-- `write_into_raw_buffer` loses no byte. -/
theorem writeIntoRawBuffer_moves {fuel : Nat} {size : Int} {removeData : Bool}
    {bytes : List UInt8} {after : CacheBuffer} (roomy : Roomy buffer cacheHeld false)
    (written : writeIntoRawBufferLoop fuel buffer size removeData = some (bytes, after)) :
    Moves buffer cacheHeld false after cacheHeld false 0 := by
  induction fuel generalizing buffer size bytes with
  | zero => contradiction
  | succ fuel inductionHypothesis =>
    simp only [writeIntoRawBufferLoop] at written
    cases found : buffer.getDataPtr with
    | none =>
      simp only [found, Option.some.injEq, Prod.mk.injEq] at written
      exact written.2 ▸ .refl roomy
    | some result =>
      obtain ⟨chunk, held⟩ := result
      simp only [found] at written
      have pass : Moves buffer cacheHeld false
          ((if removeData then held.modifyData (·.eraseBegin (getCircBufEnough chunk size).2)
            else held).putDataPtr false) cacheHeld false 0 := by
        cases removeData with
        | true => exact consumer_pass roomy found _ false (by simp)
        | false => exact consumer_look roomy found
      split at written
      · rw [Option.map_eq_some_iff] at written
        obtain ⟨⟨following, finish⟩, recursive, ended⟩ := written
        obtain ⟨rfl, rfl⟩ := Prod.mk.inj ended
        exact pass.trans (inductionHypothesis pass.roomy recursive)
      · obtain ⟨rfl, rfl⟩ := Prod.mk.inj (Option.some.inj written)
        exact pass

/-- `discard_data_upto` loses no byte. -/
theorem discardDataUpto_moves {fuel : Nat} {seekPoint : Int} {after : CacheBuffer}
    (roomy : Roomy buffer cacheHeld false)
    (discarded : discardDataUptoLoop fuel buffer seekPoint = some after) :
    Moves buffer cacheHeld false after cacheHeld false 0 := by
  induction fuel generalizing buffer seekPoint with
  | zero => contradiction
  | succ fuel inductionHypothesis =>
    simp only [discardDataUptoLoop] at discarded
    split at discarded
    · exact Option.some.inj discarded ▸ .refl roomy
    · cases found : buffer.getDataPtr with
      | none => simp [found] at discarded
      | some result =>
        obtain ⟨chunk, held⟩ := result
        simp only [found] at discarded
        have pass := consumer_pass roomy found
          (·.eraseBegin (min seekPoint.toNat chunk.second.size)) false (by simp)
        exact pass.trans (inductionHypothesis pass.roomy discarded)

/-- `clear_data` loses no byte: each chunk is cleared before it is put back. -/
theorem clearData_moves (passes : Nat) (roomy : Roomy buffer cacheHeld false) :
    Moves buffer cacheHeld false (clearDataLoop passes buffer) cacheHeld false 0 := by
  induction passes generalizing buffer with
  | zero => exact .refl roomy
  | succ passes inductionHypothesis =>
    rw [clearDataLoop]
    split
    · exact .refl roomy
    · rename_i chunk held found
      have pass := consumer_pass roomy found Chunk.clear true (fun _ => rfl)
      exact pass.trans (inductionHypothesis pass.roomy)

/-- `clear_cache` and `sync_cache` lose no byte. -/
theorem clearCache_moves (roomy : Roomy buffer false dataHeld) :
    Moves buffer false dataHeld buffer.clearCache false dataHeld 0 := by
  rw [clearCache]
  split
  · exact .refl roomy
  · rename_i chunk held found
    have taken := getCachePtr_moves roomy found
    have changed := modifyCache_moves taken.roomy Chunk.clear
    exact (taken.trans changed).trans (putCachePtr_moves changed.roomy false)

theorem syncCache_moves (roomy : Roomy buffer false dataHeld) :
    Moves buffer false dataHeld buffer.syncCache false dataHeld 0 := by
  rw [syncCache]
  split
  · exact .refl roomy
  · rename_i chunk held found
    have taken := getCachePtr_moves roomy found
    exact taken.trans (putCachePtr_moves taken.roomy true)

/-- The bytes that an operation loses to a forced rotation. -/
def lost (state : State) : Operation → Int
  | .putDataPtr true => frontSize state.buffer.dataBuffer
  | _ => 0

/-- A state has a place for every chunk. -/
def State.roomy (state : State) : Prop := Roomy state.buffer state.cacheHeld state.dataHeld

def State.ahead (state : State) : Int :=
  ByteAccounting.ahead state.buffer state.cacheHeld state.dataHeld

section Operations

variable {state next : State}

/-- The counter moves with the bytes from one state to the next, with the chunks that are checked
out in each, except for the bytes that are lost. -/
def State.Moves (state next : State) (lost : Int) : Prop :=
  ByteAccounting.Moves state.buffer state.cacheHeld state.dataHeld next.buffer next.cacheHeld
    next.dataHeld lost

/-- A null pointer checks nothing out, and otherwise the size of the front cache chunk is
remembered until the chunk is put back. -/
theorem getCachePtr_step (roomy : state.roomy) (taken : step state .getCachePtr = some next) :
    state.Moves next 0 := by
  obtain ⟨buffer, cacheHeld, dataHeld⟩ := state
  cases cacheHeld with
  | true => contradiction
  | false =>
    simp only [step, Bool.false_eq_true, if_false] at taken
    cases found : buffer.getCachePtr with
    | none =>
      rw [found] at taken
      exact Option.some.inj taken ▸ .refl roomy
    | some result =>
      rw [found] at taken
      exact Option.some.inj taken ▸ getCachePtr_moves roomy found

/-- The consumer's pointer, in the same way. -/
theorem getDataPtr_step (roomy : state.roomy) (taken : step state .getDataPtr = some next) :
    state.Moves next 0 := by
  obtain ⟨buffer, cacheHeld, dataHeld⟩ := state
  cases dataHeld with
  | true => contradiction
  | false =>
    simp only [step, Bool.false_eq_true, if_false] at taken
    cases found : buffer.getDataPtr with
    | none =>
      rw [found] at taken
      exact Option.some.inj taken ▸ .refl roomy
    | some result =>
      rw [found] at taken
      exact Option.some.inj taken ▸ getDataPtr_moves roomy found

/-- Bytes that the producer appends to its chunk are counted when it puts the chunk back. -/
theorem append_step (roomy : state.roomy) {bytes : List UInt8}
    (taken : step state (.append bytes) = some next) : state.Moves next 0 := by
  obtain ⟨buffer, cacheHeld, dataHeld⟩ := state
  cases cacheHeld with
  | false => contradiction
  | true => exact Option.some.inj taken ▸ modifyCache_moves roomy _

/-- So are the bytes that the consumer erases, inserts or clears, whatever it does to its chunk. -/
theorem changeData_step (roomy : state.roomy) {change : Chunk → Chunk}
    (changed : changeData state change = some next) : state.Moves next 0 := by
  obtain ⟨buffer, cacheHeld, dataHeld⟩ := state
  cases dataHeld with
  | false => contradiction
  | true => exact Option.some.inj changed ▸ modifyData_moves roomy change

theorem putCachePtr_step (roomy : state.roomy) {rotate : Bool}
    (taken : step state (.putCachePtr rotate) = some next) : state.Moves next 0 := by
  obtain ⟨buffer, cacheHeld, dataHeld⟩ := state
  cases cacheHeld with
  | false => contradiction
  | true => exact Option.some.inj taken ▸ putCachePtr_moves roomy rotate

/-- The one operation that loses bytes: a rotation forced on a chunk that still has some. -/
theorem putDataPtr_step (roomy : state.roomy) {rotate : Bool}
    (taken : step state (.putDataPtr rotate) = some next) :
    state.Moves next (lost state (.putDataPtr rotate)) := by
  obtain ⟨buffer, cacheHeld, dataHeld⟩ := state
  cases dataHeld with
  | false => contradiction
  | true =>
    obtain rfl := Option.some.inj taken
    have moves := putDataPtr_moves roomy rotate
    cases rotate <;> exact moves

/-- The producer's operations that check the front chunk out themselves lose nothing while nobody
else has it, which they need in order to be called at all. -/
theorem cache_step (roomy : state.roomy) {after : CacheBuffer}
    (moves : Roomy state.buffer false state.dataHeld →
      ByteAccounting.Moves state.buffer false state.dataHeld after false state.dataHeld 0)
    (taken : (if state.cacheHeld then none else some { state with buffer := after }) = some next) :
    state.Moves next 0 := by
  obtain ⟨buffer, cacheHeld, dataHeld⟩ := state
  cases cacheHeld with
  | true => contradiction
  | false => exact Option.some.inj taken ▸ moves roomy

/-- The consumer's operations of this kind may fail to end, and then they say nothing. -/
theorem data_step (roomy : state.roomy) {Result : Type} {passed : Option Result}
    {rest : Result → CacheBuffer}
    (moves : ∀ result, passed = some result → Roomy state.buffer state.cacheHeld false →
      ByteAccounting.Moves state.buffer state.cacheHeld false (rest result) state.cacheHeld
        false 0)
    (taken : (if state.dataHeld then none
      else passed.map (fun result => { state with buffer := rest result })) = some next) :
    state.Moves next 0 := by
  obtain ⟨buffer, cacheHeld, dataHeld⟩ := state
  cases dataHeld with
  | true => contradiction
  | false =>
    obtain ⟨result, ended, rfl⟩ := Option.map_eq_some_iff.mp taken
    exact moves result ended roomy

theorem clearData_step (roomy : state.roomy) (taken : step state .clearData = some next) :
    state.Moves next 0 := by
  obtain ⟨buffer, cacheHeld, dataHeld⟩ := state
  cases dataHeld with
  | true => contradiction
  | false => exact Option.some.inj taken ▸ clearData_moves _ roomy

/-- Every operation moves what the counter is ahead by by the bytes it loses. -/
theorem step_moves {operation : Operation} (roomy : state.roomy)
    (taken : step state operation = some next) : state.Moves next (lost state operation) := by
  cases operation with
  | getCachePtr => exact getCachePtr_step roomy taken
  | append bytes => exact append_step roomy taken
  | putCachePtr rotate => exact putCachePtr_step roomy taken
  | clearCache => exact cache_step roomy clearCache_moves taken
  | syncCache => exact cache_step roomy syncCache_moves taken
  | getDataPtr => exact getDataPtr_step roomy taken
  | eraseBegin | insertBegin | clearFront => exact changeData_step roomy taken
  | putDataPtr rotate => exact putDataPtr_step roomy taken
  | writeIntoRawBuffer size removeData =>
    exact data_step roomy (fun _ written roomy => writeIntoRawBuffer_moves roomy written) taken
  | discardDataUpto seekPoint =>
    exact data_step roomy (fun _ discarded roomy => discardDataUpto_moves roomy discarded) taken
  | clearData => exact clearData_step roomy taken

end Operations

/-- An operation loses nothing exactly when it forces no rotation of bytes. -/
theorem lost_eq_zero_iff (state : State) (operation : Operation) :
    0 ≤ lost state operation ∧ (lost state operation = 0 ↔ ForcesEmpty state operation) := by
  have unforced : operation ≠ .putDataPtr true →
      0 ≤ lost state operation ∧ (lost state operation = 0 ↔ ForcesEmpty state operation) := by
    intro other
    have none : lost state operation = 0 := by
      rw [lost]
      exact other
    exact ⟨Int.le_of_eq none.symm, iff_of_true none (fun forced => absurd forced other)⟩
  by_cases forced : operation = .putDataPtr true
  · subst forced
    refine ⟨sizes_nonneg _, ?_⟩
    simp only [lost, ForcesEmpty, forall_const]
    cases items : state.buffer.dataBuffer.items with
    | nil => simp [frontSize, BoundedQueue.front, items]
    | cons chunk rest =>
      simp [frontSize_cons items, BoundedQueue.front, items, CircularBuffer.empty,
        CircularBuffer.size]
  · exact unforced forced

/-- In every run of the public operations that ends with no chunk checked out, the
counter is the number of stored bytes exactly when no rotation of the data queue
has been forced on a chunk with bytes. -/
theorem accounted_iff (bufferSize elemSize : Nat) (cacheLastSize dataLastSize : Int)
    (operations : List Operation) (finish : State)
    (ran : LabelledRuns.run step (start bufferSize elemSize cacheLastSize dataLastSize)
      operations = some finish)
    (cachePut : finish.cacheHeld = false) (dataPut : finish.dataHeld = false) :
    Accounted finish.buffer ↔ LabelledRuns.Meets step ForcesEmpty
      (start bufferSize elemSize cacheLastSize dataLastSize) operations := by
  have initial : (start bufferSize elemSize cacheLastSize dataLastSize).roomy := by
    refine ⟨?_, ?_, nofun, nofun⟩
    · simp only [start, make_cache_items, List.length_replicate]
      simp [make]
    · simp [start, make, initBuffer]
  have level : (start bufferSize elemSize cacheLastSize dataLastSize).ahead = 0 := by
    have empty : ∀ count, sizes (List.replicate count (emptyChunk elemSize)) = 0 := by
      intro count
      induction count with
      | zero => rfl
      | succ count inductionHypothesis =>
        rw [List.replicate_succ, sizes_cons, inductionHypothesis]
        rfl
    simp only [State.ahead, ahead, start, storedBytes, make_cache_items, empty]
    simp [make]
  have moves : ∀ state operation next, state.roomy → step state operation = some next →
      next.roomy ∧ next.ahead = state.ahead + lost state operation := by
    intro state operation next roomy taken
    have moved := step_moves roomy taken
    exact ⟨moved.roomy, moved.ahead⟩
  have grows : ∀ state operation next, State.roomy state → step state operation = some next →
      state.ahead ≤ next.ahead := by
    intro state operation next roomy taken
    rw [(moves state operation next roomy taken).2]
    exact Int.le_add_of_nonneg_right (lost_eq_zero_iff state operation).1
  have exact : ∀ state operation next, State.roomy state → step state operation = some next →
      (next.ahead = state.ahead ↔ ForcesEmpty state operation) := by
    intro state operation next roomy taken
    rw [(moves state operation next roomy taken).2, ← (lost_eq_zero_iff state operation).2]
    constructor <;> intro same <;> omega
  obtain ⟨_, kept⟩ := LabelledRuns.measure_kept_iff_meets
    (fun state operation next roomy taken => (moves state operation next roomy taken).1)
    grows exact initial ran
  rw [← kept, level]
  have stored := Int.add_nonneg (sizes_nonneg finish.buffer.dataBuffer.items)
    (sizes_nonneg finish.buffer.cacheBuffer.items)
  simp only [Accounted, State.ahead, ahead, cachePut, dataPut, totalBytesInBufferGuess,
    storedBytes, Bool.false_eq_true, if_false]
  omega

/-- A chunk that the consumer puts back with bytes and unforced is accounted. -/
theorem accounted_iff_unforced_put :
    ∃ finish, LabelledRuns.run step (start 8 4 0 0)
        [.getCachePtr, .append [1, 2, 3, 4], .putCachePtr false, .getDataPtr, .eraseBegin 2,
          .putDataPtr false] = some finish ∧ Accounted finish.buffer := by
  have ran : ∃ finish, LabelledRuns.run step (start 8 4 0 0)
      [.getCachePtr, .append [1, 2, 3, 4], .putCachePtr false, .getDataPtr, .eraseBegin 2,
        .putDataPtr false] = some finish ∧ finish.cacheHeld = false ∧
        finish.dataHeld = false := ⟨_, rfl, rfl, rfl⟩
  obtain ⟨finish, ran, cachePut, dataPut⟩ := ran
  exact ⟨finish, ran, (accounted_iff 8 4 0 0 _ finish ran cachePut dataPut).mpr (by decide)⟩

/-- A chunk that the consumer puts back with two bytes and forced leaves the counter
two bytes ahead, as at the last sample of a track. -/
theorem forced_put_not_accounted :
    ∃ finish, LabelledRuns.run step (start 8 4 0 0)
        [.getCachePtr, .append [1, 2, 3, 4], .putCachePtr false, .getDataPtr, .eraseBegin 2,
          .putDataPtr true] = some finish ∧
      finish.cacheHeld = false ∧ finish.dataHeld = false ∧
      finish.buffer.totalBytesInBufferGuess = 2 ∧ storedBytes finish.buffer = 0 ∧
      ¬ Accounted finish.buffer :=
  ⟨_, rfl, rfl, rfl, by decide, by decide, by decide⟩

end Mprt.ByteAccounting
