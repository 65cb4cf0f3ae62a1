import Mathlib.Algebra.Group.Nat.Defs
import Mprt.BoundedQueue
import Mprt.CircularBuffer

/-!
# The chunk buffer between a producer and a consumer

`cache_buffer` circulates a fixed stock of chunks between two bounded queues.
The producer fills the front chunk of the cache queue and rotates it into the
data queue; the consumer empties the front chunk of the data queue and rotates
it back. A byte counter follows the sizes by differences against the size
remembered when a chunk was handed out.

A pointer returned by `get_cache_ptr` or `get_data_ptr` is a pointer to the
front of its queue, so writing through it is a change of that front chunk. Each
rotation is given as its read and its write, because the other thread may act
between the two. Sizes are mathematical integers; only the queues' slot count
is cut to 32 bits, as their constructor does.
-/

namespace Mprt

/-- `chunk_buffer_type`: the start position of the chunk and its bytes. -/
structure Chunk where
  first : Int
  second : CircularBuffer UInt8
deriving DecidableEq

/-- The members of `cache_buffer`. The chunk count is computed from the two
sizes by `bufferSizeCount`. -/
structure CacheBuffer where
  bufferSize : Nat
  elemSize : Nat
  totalBytesInBuffer : Int
  dataBuffer : BoundedQueue Chunk
  cacheBuffer : BoundedQueue Chunk
  cacheLastSize : Int
  dataLastSize : Int
deriving DecidableEq

namespace Chunk

/-- A consumer removes bytes at the beginning and subtracts their number from
the start position, as every consumer in the source does. -/
def eraseBegin (chunk : Chunk) (count : Nat) : Chunk :=
  ⟨chunk.first - count, chunk.second.eraseBegin count⟩

def append (chunk : Chunk) (bytes : List UInt8) : Chunk :=
  { chunk with second := chunk.second.append bytes }

def clear (chunk : Chunk) : Chunk := { chunk with second := chunk.second.clear }

/-- Put bytes before the first one and set the start position, enlarging the
chunk first when its capacity does not suffice. -/
def insertBegin (chunk : Chunk) (bytes : List UInt8) (first : Int) : Chunk :=
  let needCapacity := chunk.second.size + bytes.length
  let enlarged :=
    if chunk.second.capacity < needCapacity then chunk.second.setCapacity needCapacity
    else chunk.second
  ⟨first, enlarged.insert 0 bytes⟩

end Chunk

namespace CacheBuffer

/-- The number of chunks: the quotient of the sizes, rounded up. -/
def bufferSizeCount (bufferSize elemSize : Nat) : Nat :=
  bufferSize / elemSize + if bufferSize % elemSize ≠ 0 then 1 else 0

/-- A queue takes its slot count as a 32-bit number and keeps one slot unused. -/
def queueCapacity (slots : Nat) : Nat := slots % 2 ^ 32 - 1

def emptyChunk (elemSize : Nat) : Chunk := ⟨0, .vacant elemSize⟩

/-- `init_buffer`: write empty chunks until the queue is full. -/
def initBuffer (elemSize : Nat) (buffer : BoundedQueue Chunk) : BoundedQueue Chunk :=
  buffer.fill (emptyChunk elemSize) buffer.capacity

/-- The constructor. The two remembered sizes are not initialised there, so
they are whatever they are. -/
def make (bufferSize elemSize : Nat) (cacheLastSize dataLastSize : Int) : CacheBuffer :=
  let capacity := queueCapacity (bufferSizeCount bufferSize elemSize + 1)
  { bufferSize := bufferSize
    elemSize := elemSize
    totalBytesInBuffer := 0
    dataBuffer := .vacant capacity
    cacheBuffer := initBuffer elemSize (.vacant capacity)
    cacheLastSize := cacheLastSize
    dataLastSize := dataLastSize }

/-- Writing through the pointer returned by `get_cache_ptr`. -/
def modifyCache (buffer : CacheBuffer) (change : Chunk → Chunk) : CacheBuffer :=
  { buffer with cacheBuffer := buffer.cacheBuffer.modifyFront change }

/-- Writing through the pointer returned by `get_data_ptr`. -/
def modifyData (buffer : CacheBuffer) (change : Chunk → Chunk) : CacheBuffer :=
  { buffer with dataBuffer := buffer.dataBuffer.modifyFront change }

/-- The read of `rotate_cache`: the chunk is then in neither queue. -/
def rotateCacheRead (buffer : CacheBuffer) : Option (Chunk × CacheBuffer) :=
  buffer.cacheBuffer.read.map (fun taken => (taken.1, { buffer with cacheBuffer := taken.2 }))

/-- The rest of `rotate_cache`: an empty chunk is not written anywhere, and the
result of the write is ignored. -/
def rotateCacheWrite (buffer : CacheBuffer) (val : Chunk) : CacheBuffer :=
  if val.second.empty then buffer
  else { buffer with dataBuffer := (buffer.dataBuffer.write val).2 }

def rotateCache (buffer : CacheBuffer) : CacheBuffer :=
  match buffer.rotateCacheRead with
  | none => buffer
  | some (val, rest) => rest.rotateCacheWrite val

/-- The read of `rotate_data`, with the chunk cleared before it is written. -/
def rotateDataRead (buffer : CacheBuffer) : Option (Chunk × CacheBuffer) :=
  buffer.dataBuffer.read.map (fun taken =>
    (taken.1.clear, { buffer with dataBuffer := taken.2 }))

/-- The write of `rotate_data`; its result is ignored. -/
def rotateDataWrite (buffer : CacheBuffer) (val : Chunk) : CacheBuffer :=
  { buffer with cacheBuffer := (buffer.cacheBuffer.write val).2 }

def rotateData (buffer : CacheBuffer) : CacheBuffer :=
  match buffer.rotateDataRead with
  | none => buffer
  | some (val, rest) => rest.rotateDataWrite val

/-- The first half of `put_gen_ptr`: the counter moves by the size difference,
and the flag tells whether the chunk is rotated. -/
def putGenPtrSize (buffer : CacheBuffer) (bufPtr : Option Chunk) (lastSize : Int)
    (rotate isEmptyFullCheck : Bool) : CacheBuffer × Bool :=
  match bufPtr with
  | none => (buffer, false)
  | some chunk =>
    let sizeDiff : Int := chunk.second.size - lastSize
    let checkFuncResult := if isEmptyFullCheck then chunk.second.empty else chunk.second.full
    ({ buffer with totalBytesInBuffer := buffer.totalBytesInBuffer + sizeDiff },
      checkFuncResult || rotate)

def putGenPtr (buffer : CacheBuffer) (bufPtr : Option Chunk) (lastSize : Int)
    (rotateFunc : CacheBuffer → CacheBuffer) (rotate isEmptyFullCheck : Bool) : CacheBuffer :=
  let updated := buffer.putGenPtrSize bufPtr lastSize rotate isEmptyFullCheck
  if updated.2 then rotateFunc updated.1 else updated.1

/-- The front chunk and its size, or nothing when the queue is empty. -/
def getGenPtr (cont : BoundedQueue Chunk) : Option (Chunk × Int) :=
  cont.front.map (fun chunk => (chunk, (chunk.second.size : Int)))

/-- A null pointer leaves the remembered size alone. -/
def getCachePtr (buffer : CacheBuffer) : Option (Chunk × CacheBuffer) :=
  (getGenPtr buffer.cacheBuffer).map (fun found =>
    (found.1, { buffer with cacheLastSize := found.2 }))

def putCachePtrSize (buffer : CacheBuffer) (rotate : Bool) : CacheBuffer × Bool :=
  buffer.putGenPtrSize buffer.cacheBuffer.front buffer.cacheLastSize rotate false

def putCachePtr (buffer : CacheBuffer) (rotate : Bool) : CacheBuffer :=
  buffer.putGenPtr buffer.cacheBuffer.front buffer.cacheLastSize rotateCache rotate false

def getDataPtr (buffer : CacheBuffer) : Option (Chunk × CacheBuffer) :=
  (getGenPtr buffer.dataBuffer).map (fun found =>
    (found.1, { buffer with dataLastSize := found.2 }))

def putDataPtrSize (buffer : CacheBuffer) (rotate : Bool) : CacheBuffer × Bool :=
  buffer.putGenPtrSize buffer.dataBuffer.front buffer.dataLastSize rotate true

def putDataPtr (buffer : CacheBuffer) (rotate : Bool) : CacheBuffer :=
  buffer.putGenPtr buffer.dataBuffer.front buffer.dataLastSize rotateData rotate true

/-- Whether the chunk holds more than the size asked for, and how much of it to
use. The comparison is unsigned, so a negative size counts as a huge one. -/
def getCircBufEnough (chunk : Chunk) (size : Int) : Bool × Nat :=
  if 0 ≤ size ∧ size < chunk.second.size then (true, size.toNat)
  else (false, chunk.second.size)

/-- `write_into_raw_buffer`: the bytes copied and the buffer afterwards. The
recursion is bounded by fuel; running out of it is no result. -/
def writeIntoRawBufferLoop :
    Nat → CacheBuffer → Int → Bool → Option (List UInt8 × CacheBuffer)
  | 0, _, _, _ => none
  | fuel + 1, buffer, size, removeData =>
    match buffer.getDataPtr with
    | none => some ([], buffer)
    | some (chunk, held) =>
      let (circBufferEnough, itemCount) := getCircBufEnough chunk size
      let copied := chunk.second.items.take itemCount
      let erased := if removeData then held.modifyData (·.eraseBegin itemCount) else held
      let rest := erased.putDataPtr false
      if !circBufferEnough ∧ size - itemCount > 0 then
        (writeIntoRawBufferLoop fuel rest (size - itemCount) removeData).map
          (fun following => (copied ++ following.1, following.2))
      else some (copied, rest)

/-- Every recursive call that removes data has one data chunk less, and every
call that only looks has less left to copy unless its chunk is empty. -/
def writeIntoRawBuffer (buffer : CacheBuffer) (size : Int) (removeData : Bool) :
    Option (List UInt8 × CacheBuffer) :=
  writeIntoRawBufferLoop (buffer.dataBuffer.items.length + size.toNat + 1) buffer size removeData

/-- `discard_data_upto`. With nothing to discard from it waits, which is no
result here. -/
def discardDataUptoLoop : Nat → CacheBuffer → Int → Option CacheBuffer
  | 0, _, _ => none
  | fuel + 1, buffer, seekPoint =>
    if seekPoint ≤ 0 then some buffer
    else
      match buffer.getDataPtr with
      | none => none
      | some (chunk, held) =>
        let discardDataLength := min seekPoint.toNat chunk.second.size
        let rest := (held.modifyData (·.eraseBegin discardDataLength)).putDataPtr false
        discardDataUptoLoop fuel rest (seekPoint - discardDataLength)

/-- Every recursive call has one data chunk less or nothing left to discard. -/
def discardDataUpto (buffer : CacheBuffer) (seekPoint : Int) : Option CacheBuffer :=
  discardDataUptoLoop (buffer.dataBuffer.items.length + 1) buffer seekPoint

/-- One pass of `clear_data` per data chunk. -/
def clearDataLoop : Nat → CacheBuffer → CacheBuffer
  | 0, buffer => buffer
  | passes + 1, buffer =>
    match buffer.getDataPtr with
    | none => buffer
    | some (_, held) => clearDataLoop passes ((held.modifyData Chunk.clear).putDataPtr true)

def clearData (buffer : CacheBuffer) : CacheBuffer :=
  clearDataLoop buffer.dataBuffer.items.length buffer

def clearCache (buffer : CacheBuffer) : CacheBuffer :=
  match buffer.getCachePtr with
  | none => buffer
  | some (_, held) => (held.modifyCache Chunk.clear).putCachePtr false

def syncCache (buffer : CacheBuffer) : CacheBuffer :=
  match buffer.getCachePtr with
  | none => buffer
  | some (_, held) => held.putCachePtr true

def isDataEmpty (buffer : CacheBuffer) : Bool := buffer.dataBuffer.isEmpty

def totalBytesInBufferGuess (buffer : CacheBuffer) : Int := buffer.totalBytesInBuffer

def cacheSizeGuess (buffer : CacheBuffer) : Nat := buffer.cacheBuffer.items.length

/-- Enlarged when necessary, a chunk has room for the bytes put before its first. -/
theorem insertBegin_items (chunk : Chunk) (bytes : List UInt8) (first : Int) :
    (chunk.insertBegin bytes first).second.items = bytes ++ chunk.second.items := by
  rw [Chunk.insertBegin]
  by_cases larger : chunk.second.capacity < chunk.second.size + bytes.length
  · have kept := CircularBuffer.setCapacity_items (Nat.le_of_lt larger)
    have fits : bytes.length ≤
        (chunk.second.setCapacity (chunk.second.size + bytes.length)).reserve := by
      rw [CircularBuffer.reserve, kept]
      simp only [CircularBuffer.setCapacity, CircularBuffer.size]
      omega
    simp only [if_pos larger]
    rw [CircularBuffer.insert_items 0 fits, List.take_zero, List.drop_zero, List.nil_append, kept]
  · have fits : bytes.length ≤ chunk.second.reserve := by
      simp only [CircularBuffer.size, CircularBuffer.reserve] at larger ⊢
      omega
    simp only [if_neg larger]
    rw [CircularBuffer.insert_items 0 fits, List.take_zero, List.drop_zero, List.nil_append]

/-- The bytes of a queue's chunks, in the order in which they will be read. -/
def queueBytes (chunks : List Chunk) : List UInt8 := chunks.flatMap (·.second.items)

def dataBytes (buffer : CacheBuffer) : List UInt8 := queueBytes buffer.dataBuffer.items

/-- The bytes of the chunk the producer is filling. -/
def frontBytes (buffer : CacheBuffer) : List UInt8 :=
  queueBytes (buffer.cacheBuffer.items.take 1)

@[simp] theorem queueBytes_nil : queueBytes [] = [] := rfl

@[simp] theorem queueBytes_cons (chunk : Chunk) (chunks : List Chunk) :
    queueBytes (chunk :: chunks) = chunk.second.items ++ queueBytes chunks := rfl

@[simp] theorem queueBytes_append (first second : List Chunk) :
    queueBytes (first ++ second) = queueBytes first ++ queueBytes second :=
  List.flatMap_append

/-- A queue whose chunks are all empty holds no byte. -/
theorem queueBytes_of_empty {chunks : List Chunk}
    (vacant : ∀ chunk ∈ chunks, chunk.second.items = []) : queueBytes chunks = [] :=
  List.flatMap_eq_nil_iff.mpr vacant

/-- A new buffer has all its chunks, empty, in the cache queue. -/
theorem make_cache_items (bufferSize elemSize : Nat) (cacheLastSize dataLastSize : Int) :
    (make bufferSize elemSize cacheLastSize dataLastSize).cacheBuffer.items =
      List.replicate (queueCapacity (bufferSizeCount bufferSize elemSize + 1))
        (emptyChunk elemSize) := by
  simp only [make, initBuffer]
  rw [BoundedQueue.fill_items _ _ _ (Nat.le_add_left _ _)]
  simp

/-- The first half of `put_gen_ptr` moves no chunk. -/
@[simp] theorem putGenPtrSize_queues (buffer : CacheBuffer) (bufPtr : Option Chunk)
    (lastSize : Int) (rotate check : Bool) :
    (buffer.putGenPtrSize bufPtr lastSize rotate check).1.dataBuffer = buffer.dataBuffer ∧
      (buffer.putGenPtrSize bufPtr lastSize rotate check).1.cacheBuffer = buffer.cacheBuffer := by
  cases bufPtr <;> exact ⟨rfl, rfl⟩

@[simp] theorem putCachePtrSize_data (buffer : CacheBuffer) (rotate : Bool) :
    (buffer.putCachePtrSize rotate).1.dataBuffer = buffer.dataBuffer :=
  (putGenPtrSize_queues buffer _ _ rotate false).1

@[simp] theorem putCachePtrSize_cache (buffer : CacheBuffer) (rotate : Bool) :
    (buffer.putCachePtrSize rotate).1.cacheBuffer = buffer.cacheBuffer :=
  (putGenPtrSize_queues buffer _ _ rotate false).2

@[simp] theorem putDataPtrSize_data (buffer : CacheBuffer) (rotate : Bool) :
    (buffer.putDataPtrSize rotate).1.dataBuffer = buffer.dataBuffer :=
  (putGenPtrSize_queues buffer _ _ rotate true).1

@[simp] theorem putDataPtrSize_cache (buffer : CacheBuffer) (rotate : Bool) :
    (buffer.putDataPtrSize rotate).1.cacheBuffer = buffer.cacheBuffer :=
  (putGenPtrSize_queues buffer _ _ rotate true).2

/-- The producer rotates a full front chunk, or any front chunk when told to. -/
theorem putCachePtrSize_rotates {buffer : CacheBuffer} {rotate : Bool}
    (rotates : (buffer.putCachePtrSize rotate).2 = true) :
    ∃ chunk rest, buffer.cacheBuffer.items = chunk :: rest ∧
      (chunk.second.full = true ∨ rotate = true) := by
  rw [putCachePtrSize] at rotates
  cases found : buffer.cacheBuffer.front with
  | none => simp [putGenPtrSize, found] at rotates
  | some chunk =>
    obtain ⟨rest, items⟩ := BoundedQueue.front_eq_some_iff.mp found
    exact ⟨chunk, rest, items, by simpa [putGenPtrSize, found] using rotates⟩

/-- The consumer rotates an empty front chunk, or any front chunk when told to. -/
theorem putDataPtrSize_rotates {buffer : CacheBuffer} {rotate : Bool}
    (rotates : (buffer.putDataPtrSize rotate).2 = true) :
    ∃ chunk rest, buffer.dataBuffer.items = chunk :: rest ∧
      (chunk.second.items = [] ∨ rotate = true) := by
  rw [putDataPtrSize] at rotates
  cases found : buffer.dataBuffer.front with
  | none => simp [putGenPtrSize, found] at rotates
  | some chunk =>
    obtain ⟨rest, items⟩ := BoundedQueue.front_eq_some_iff.mp found
    refine ⟨chunk, rest, items, ?_⟩
    simpa [putGenPtrSize, found, CircularBuffer.empty_iff] using rotates

/-- A null cache pointer means that the cache queue is empty. -/
theorem getCachePtr_none {buffer : CacheBuffer} (null : buffer.getCachePtr = none) :
    buffer.cacheBuffer.items = [] := by
  simpa [getCachePtr, getGenPtr, BoundedQueue.front_eq_none_iff] using null

/-- A cache pointer is to the front chunk, and getting it moves no chunk. -/
theorem getCachePtr_some {buffer held : CacheBuffer} {chunk : Chunk}
    (found : buffer.getCachePtr = some (chunk, held)) :
    (∃ rest, buffer.cacheBuffer.items = chunk :: rest) ∧
      held.cacheBuffer = buffer.cacheBuffer ∧ held.dataBuffer = buffer.dataBuffer := by
  simp only [getCachePtr, getGenPtr, Option.map_map, Option.map_eq_some_iff,
    BoundedQueue.front_eq_some_iff, Function.comp_apply, Prod.mk.injEq] at found
  obtain ⟨front, items, rfl, rfl⟩ := found
  exact ⟨items, rfl, rfl⟩

/-- A data pointer is to the front chunk, and getting it moves no chunk. -/
theorem getDataPtr_some {buffer held : CacheBuffer} {chunk : Chunk}
    (found : buffer.getDataPtr = some (chunk, held)) :
    (∃ rest, buffer.dataBuffer.items = chunk :: rest) ∧
      held.cacheBuffer = buffer.cacheBuffer ∧ held.dataBuffer = buffer.dataBuffer := by
  simp only [getDataPtr, getGenPtr, Option.map_map, Option.map_eq_some_iff,
    BoundedQueue.front_eq_some_iff, Function.comp_apply, Prod.mk.injEq] at found
  obtain ⟨front, items, rfl, rfl⟩ := found
  exact ⟨items, rfl, rfl⟩

/-- No rotation changes the byte counter. -/
theorem rotate_total (buffer : CacheBuffer) :
    buffer.rotateCache.totalBytesInBuffer = buffer.totalBytesInBuffer ∧
      buffer.rotateData.totalBytesInBuffer = buffer.totalBytesInBuffer := by
  constructor
  · unfold rotateCache rotateCacheRead rotateCacheWrite
    cases buffer.cacheBuffer.read with
    | none => rfl
    | some taken =>
      simp only [Option.map_some]
      split <;> rfl
  · unfold rotateData rotateDataRead rotateDataWrite
    cases buffer.dataBuffer.read <;> rfl

/-- The counter moves by the change of the front cache chunk's size. -/
theorem putCachePtr_total {buffer : CacheBuffer} {chunk : Chunk} {rest : List Chunk}
    (front : buffer.cacheBuffer.items = chunk :: rest) (rotate : Bool) :
    (buffer.putCachePtr rotate).totalBytesInBuffer =
      buffer.totalBytesInBuffer + (chunk.second.size - buffer.cacheLastSize) := by
  have found : buffer.cacheBuffer.front = some chunk :=
    BoundedQueue.front_eq_some_iff.mpr ⟨rest, front⟩
  simp only [putCachePtr, putGenPtr, putGenPtrSize, found, Bool.false_eq_true, if_false]
  split
  · rw [(rotate_total _).1]
  · rfl

/-- The counter moves by the change of the front data chunk's size. -/
theorem putDataPtr_total {buffer : CacheBuffer} {chunk : Chunk} {rest : List Chunk}
    (front : buffer.dataBuffer.items = chunk :: rest) (rotate : Bool) :
    (buffer.putDataPtr rotate).totalBytesInBuffer =
      buffer.totalBytesInBuffer + (chunk.second.size - buffer.dataLastSize) := by
  have found : buffer.dataBuffer.front = some chunk :=
    BoundedQueue.front_eq_some_iff.mpr ⟨rest, front⟩
  simp only [putDataPtr, putGenPtr, putGenPtrSize, found, if_true]
  split
  · rw [(rotate_total _).2]
  · rfl

/-- Putting back the front cache chunk leaves it there, queues it, or drops it
when it is empty. -/
theorem putCachePtr_queues {buffer : CacheBuffer} {chunk : Chunk} {rest : List Chunk}
    (front : buffer.cacheBuffer.items = chunk :: rest)
    (room : buffer.dataBuffer.items.length < buffer.dataBuffer.capacity) (rotate : Bool) :
    let after := buffer.putCachePtr rotate
    after.dataBuffer.capacity = buffer.dataBuffer.capacity ∧
      after.cacheBuffer.capacity = buffer.cacheBuffer.capacity ∧
      after.dataLastSize = buffer.dataLastSize ∧
      ((after.cacheBuffer.items = chunk :: rest ∧
          after.dataBuffer.items = buffer.dataBuffer.items) ∨
        (after.cacheBuffer.items = rest ∧
          after.dataBuffer.items = buffer.dataBuffer.items ++ [chunk]) ∨
        (chunk.second.items = [] ∧ after.cacheBuffer.items = rest ∧
          after.dataBuffer.items = buffer.dataBuffer.items)) := by
  have found := BoundedQueue.front_eq_some_iff.mpr ⟨rest, front⟩
  obtain ⟨remaining, read, items, capacity⟩ := BoundedQueue.read_cons front
  simp only [putCachePtr, putGenPtr, putGenPtrSize, found, Bool.false_eq_true, if_false]
  split
  · simp only [rotateCache, rotateCacheRead, read, Option.map_some, rotateCacheWrite]
    split
    · rename_i vacant
      exact ⟨rfl, capacity, rfl, .inr (.inr ⟨CircularBuffer.empty_iff.mp vacant, items, rfl⟩)⟩
    · exact ⟨BoundedQueue.write_capacity _ _, capacity, rfl,
        .inr (.inl ⟨items, BoundedQueue.write_items room chunk⟩)⟩
  · exact ⟨rfl, rfl, rfl, .inl ⟨front, rfl⟩⟩

/-- Putting back the front data chunk leaves it there, or hands it on empty; it
is handed on when it is empty or the rotation is forced. -/
theorem putDataPtr_queues {buffer : CacheBuffer} {chunk : Chunk} {rest : List Chunk}
    (front : buffer.dataBuffer.items = chunk :: rest)
    (room : buffer.cacheBuffer.items.length < buffer.cacheBuffer.capacity) (rotate : Bool) :
    let after := buffer.putDataPtr rotate
    after.dataBuffer.capacity = buffer.dataBuffer.capacity ∧
      after.cacheBuffer.capacity = buffer.cacheBuffer.capacity ∧
      after.cacheLastSize = buffer.cacheLastSize ∧
      ((rotate = false ∧ after.dataBuffer.items = chunk :: rest ∧
          after.cacheBuffer.items = buffer.cacheBuffer.items) ∨
        ((rotate = true ∨ chunk.second.items = []) ∧ after.dataBuffer.items = rest ∧
          after.cacheBuffer.items = buffer.cacheBuffer.items ++ [chunk.clear])) := by
  have found := BoundedQueue.front_eq_some_iff.mpr ⟨rest, front⟩
  obtain ⟨remaining, read, items, capacity⟩ := BoundedQueue.read_cons front
  simp only [putDataPtr, putGenPtr, putGenPtrSize, found, if_true]
  split
  · rename_i rotates
    simp only [rotateData, rotateDataRead, read, Option.map_some, rotateDataWrite]
    refine ⟨capacity, BoundedQueue.write_capacity _ _, trivial, .inr ⟨?_, items,
      BoundedQueue.write_items room chunk.clear⟩⟩
    rcases Bool.or_eq_true_iff.mp rotates with vacant | forced
    · exact .inr (CircularBuffer.empty_iff.mp vacant)
    · exact .inl forced
  · rename_i stays
    refine ⟨rfl, rfl, rfl, .inl ⟨?_, front, rfl⟩⟩
    cases rotate with
    | false => rfl
    | true => simp at stays

/-- Putting back an empty front chunk takes it out of the data queue. -/
theorem putDataPtr_vacant {buffer : CacheBuffer} {chunk : Chunk} {rest : List Chunk}
    (front : buffer.dataBuffer.items = chunk :: rest) (vacant : chunk.second.items = [])
    (rotate : Bool) : (buffer.putDataPtr rotate).dataBuffer.items = rest := by
  obtain ⟨remaining, read, items, _⟩ := BoundedQueue.read_cons front
  have found : buffer.dataBuffer.front = some chunk :=
    BoundedQueue.front_eq_some_iff.mpr ⟨rest, front⟩
  have isEmpty : chunk.second.empty = true := CircularBuffer.empty_iff.mpr vacant
  simp only [putDataPtr, putGenPtr, putGenPtrSize, found, isEmpty, if_true, Bool.true_or, rotateData,
    rotateDataRead, read, Option.map_some, rotateDataWrite]
  exact items

/-- `write_into_raw_buffer` returns: a call that goes on has emptied a chunk. -/
theorem writeIntoRawBufferLoop_returns {fuel : Nat} {buffer : CacheBuffer} (size : Int)
    (enough : buffer.dataBuffer.items.length < fuel) :
    ∃ result, writeIntoRawBufferLoop fuel buffer size true = some result := by
  induction fuel generalizing buffer size with
  | zero => omega
  | succ fuel inductionHypothesis =>
    simp only [writeIntoRawBufferLoop]
    cases found : buffer.getDataPtr with
    | none => exact ⟨_, rfl⟩
    | some result =>
      obtain ⟨chunk, held⟩ := result
      obtain ⟨⟨rest, front⟩, _, data⟩ := getDataPtr_some found
      simp only [if_true]
      split
      · rename_i goesOn
        have whole : (getCircBufEnough chunk size).2 = chunk.second.size := by
          have short := goesOn.1
          unfold getCircBufEnough at short ⊢
          split <;> simp_all
        have erased : (held.modifyData (·.eraseBegin (getCircBufEnough chunk size).2)).dataBuffer.items
            = chunk.eraseBegin (getCircBufEnough chunk size).2 :: rest := by
          rw [modifyData, data, BoundedQueue.modifyFront_cons front]
        have vacant : (chunk.eraseBegin (getCircBufEnough chunk size).2).second.items = [] := by
          rw [whole]
          exact List.drop_length
        have fewer := putDataPtr_vacant erased vacant false
        have shorter : rest.length < fuel := by
          rw [front, List.length_cons] at enough
          omega
        rw [← fewer] at shorter
        obtain ⟨following, recursive⟩ := inductionHypothesis _ shorter
        exact ⟨_, by rw [recursive]; rfl⟩
      · exact ⟨_, rfl⟩

theorem writeIntoRawBuffer_returns (buffer : CacheBuffer) (size : Int) :
    ∃ result, buffer.writeIntoRawBuffer size true = some result :=
  writeIntoRawBufferLoop_returns size (by omega)

/-- No more bytes are copied than there is room for. -/
theorem writeIntoRawBufferLoop_fits {fuel : Nat} {buffer after : CacheBuffer} {size : Int}
    {removeData : Bool} {bytes : List UInt8} (room : 0 ≤ size)
    (written : writeIntoRawBufferLoop fuel buffer size removeData = some (bytes, after)) :
    bytes.length ≤ size := by
  induction fuel generalizing buffer after size bytes with
  | zero => contradiction
  | succ fuel inductionHypothesis =>
    simp only [writeIntoRawBufferLoop] at written
    cases found : buffer.getDataPtr with
    | none =>
      rw [found] at written
      cases written
      exact room
    | some result =>
      obtain ⟨chunk, held⟩ := result
      rw [found] at written
      simp only at written
      split at written
      · rename_i goesOn
        obtain ⟨⟨more, last⟩, recursive, same⟩ := Option.map_eq_some_iff.mp written
        have further := inductionHypothesis (by omega) recursive
        obtain ⟨rfl, rfl⟩ := Prod.mk.inj same
        simp only [List.length_append, List.length_take]
        omega
      · rename_i ends
        cases written
        rw [List.length_take]
        by_cases part : 0 ≤ size ∧ size < chunk.second.size
        · rw [getCircBufEnough, if_pos part]
          omega
        · rw [getCircBufEnough, if_neg part] at ends ⊢
          simp only [Bool.not_false, true_and, Int.not_lt] at ends
          omega

theorem writeIntoRawBuffer_fits {buffer after : CacheBuffer} {size : Int} {removeData : Bool}
    {bytes : List UInt8} (room : 0 ≤ size)
    (written : buffer.writeIntoRawBuffer size removeData = some (bytes, after)) :
    bytes.length ≤ size :=
  writeIntoRawBufferLoop_fits room written

end CacheBuffer

end Mprt
