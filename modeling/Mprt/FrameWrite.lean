import Mprt.Interleaving
import Mprt.OutputPluginApi

/-!
# Frames in an output buffer

A decoder plugin writes into the front cache chunk of an output buffer. It enlarges
the chunk where the bytes to come do not fit, pushes the samples, and puts the chunk
back, rotated at the end of the song or when no further frame fits.

What fits is received whole: it stands behind all earlier bytes, which are where they
were. Where only whole frames are written and taken, every chunk holds whole frames,
and there is a place in both queues for each of them.
-/

namespace Mprt.FrameWrite

open CacheBuffer (queueBytes)

/-- The chunk is enlarged by what the bytes to be written lack. -/
def enlarge (totalBytesToWrite : Int) (chunk : Chunk) : Chunk :=
  let needFreeBytes := totalBytesToWrite - chunk.second.reserve
  if 0 < needFreeBytes then
    { chunk with
      second := chunk.second.setCapacity (chunk.second.capacity + needFreeBytes.toNat) }
  else chunk

/-- The filled chunk is put back, rotated with the very last data of the song and when
it has no room for another frame. -/
def putFilled (oneSampleToByte totalSamples currentSamplesWritten : Int) (filled : Chunk)
    (held : CacheBuffer) : CacheBuffer :=
  (held.modifyCache (fun _ => filled)).putCachePtr
    (currentSamplesWritten == totalSamples || filled.second.reserve < oneSampleToByte)

/-- The part of `finish_decode_internal_single` about the details of the sound. -/
def correctTotal (currentSamplesWritten : Int) (soundDets : SoundDetails) : SoundDetails :=
  if currentSamplesWritten ≠ soundDets.totalSamples then
    { soundDets with totalSamples := currentSamplesWritten }
  else soundDets

/-- The total is corrected to what has been counted. -/
theorem correctTotal_eq (currentSamplesWritten : Int) (soundDets : SoundDetails) :
    correctTotal currentSamplesWritten soundDets =
      { soundDets with totalSamples := currentSamplesWritten } := by
  rw [correctTotal]
  split
  · rfl
  · rename_i same
    rw [Decidable.not_not.mp same]

/-- A buffer without bytes and with a place for each of its chunks in both queues. -/
structure EmptyBuffer where
  buffer : CacheBuffer
  dataRoom : buffer.dataBuffer.items.length + buffer.cacheBuffer.items.length ≤
    buffer.dataBuffer.capacity
  cacheRoom : buffer.dataBuffer.items.length + buffer.cacheBuffer.items.length ≤
    buffer.cacheBuffer.capacity
  dataEmpty : ∀ chunk ∈ buffer.dataBuffer.items, chunk.second.items = []
  cacheEmpty : ∀ chunk ∈ buffer.cacheBuffer.items, chunk.second.items = []

/-- A new buffer. -/
def EmptyBuffer.made (bufferSize elemSize : Nat) (cacheLastSize dataLastSize : Int) :
    EmptyBuffer where
  buffer := .make bufferSize elemSize cacheLastSize dataLastSize
  dataRoom := by
    rw [CacheBuffer.make_cache_items, List.length_replicate]
    exact Nat.le_of_eq (Nat.zero_add _)
  cacheRoom := by
    rw [CacheBuffer.make_cache_items, List.length_replicate]
    simp [CacheBuffer.make, CacheBuffer.initBuffer]
  dataEmpty := fun _ member => by cases member
  cacheEmpty := by
    rw [CacheBuffer.make_cache_items]
    intro chunk member
    rw [(List.mem_replicate.mp member).2]
    rfl

/-- An output takes whole frames, as many as the chunk has. -/
def takeFrames (frame frames : Nat) (rotate : Bool) (output : CacheBuffer) : CacheBuffer :=
  match output.getDataPtr with
  | none => output
  | some (chunk, held) =>
    (held.modifyData (·.eraseBegin (min (frames * frame) chunk.second.size))).putDataPtr rotate

/-- A block stands behind all earlier bytes, which are where they were. -/
structure Received (bytes : List UInt8) (before after : CacheBuffer) : Prop where
  queued : before.dataBuffer.items <+: after.dataBuffer.items
  stream : after.dataBytes ++ after.frontBytes = before.dataBytes ++ before.frontBytes ++ bytes

/-- The bytes of samples of a whole number of bytes. -/
theorem samplesToBytes_whole {soundDets : SoundDetails} {width : Nat}
    (bps : soundDets.bps = 8 * width) (samples : Nat) :
    SoundDetails.samplesToBytes samples soundDets = samples * (soundDets.channels * width) := by
  have whole : (soundDets.channels * (8 * (width : Int))).tdiv 8 = soundDets.channels * width := by
    rw [Int.mul_left_comm]
    exact Int.mul_tdiv_cancel_left _ (by decide)
  rw [SoundDetails.samplesToBytes, bps, whole]
  split
  · have none : samples = 0 := by omega
    rw [none, Int.natCast_zero, Int.zero_mul]
  · rfl

/-! ## A block at the end of a chunk -/

/-- What fits can be appended in two parts. -/
theorem append_append {chunk : Chunk} {first second : List UInt8}
    (fits : (first ++ second).length ≤ chunk.second.reserve) :
    (chunk.append first).append second = chunk.append (first ++ second) := by
  rw [List.length_append] at fits
  have before : (chunk.second.append first).items = chunk.second.items ++ first :=
    CircularBuffer.append_items (by omega)
  have left : second.length ≤ (chunk.second.append first).reserve := by
    rw [CircularBuffer.reserve, before, List.length_append]
    rw [CircularBuffer.reserve] at fits
    change _ ≤ chunk.second.capacity - _
    omega
  have whole : (chunk.second.append (first ++ second)).items =
      chunk.second.items ++ (first ++ second) :=
    CircularBuffer.append_items (by rw [List.length_append]; exact fits)
  have same : (chunk.second.append first).append second =
      chunk.second.append (first ++ second) := by
    apply CircularBuffer.ext
    · rfl
    · rw [CircularBuffer.append_items left, before, whole, List.append_assoc]
  simp only [Chunk.append, same]

/-- A loop that appends one block after another appends them all, if they fit. -/
theorem foldl_append {count : Nat} {block : Nat → List UInt8} {write : Chunk → Nat → Chunk}
    {chunk : Chunk} (writes : ∀ index < count, ∀ filling : Chunk,
      (block index).length ≤ filling.second.reserve →
        write filling index = filling.append (block index))
    (fits : (Interleaving.concatenate count block).length ≤ chunk.second.reserve) :
    (List.range count).foldl write chunk =
      chunk.append (Interleaving.concatenate count block) := by
  induction count with
  | zero =>
    have same : chunk.second.append [] = chunk.second :=
      CircularBuffer.ext rfl ((CircularBuffer.append_items (Nat.zero_le _)).trans
        (List.append_nil _))
    rw [List.range_zero, List.foldl_nil, Interleaving.concatenate_zero, Chunk.append, same]
  | succ count inductionHypothesis =>
    rw [Interleaving.concatenate_succ] at fits ⊢
    have earlier := inductionHypothesis (fun index below => writes index (Nat.lt_succ_of_lt below))
      (by rw [List.length_append] at fits; omega)
    have appended : (chunk.second.append (Interleaving.concatenate count block)).items =
        chunk.second.items ++ Interleaving.concatenate count block :=
      CircularBuffer.append_items (by rw [List.length_append] at fits; omega)
    have last : (block count).length ≤
        (chunk.append (Interleaving.concatenate count block)).second.reserve := by
      rw [List.length_append, CircularBuffer.reserve] at fits
      rw [Chunk.append, CircularBuffer.reserve, appended, List.length_append]
      change _ ≤ chunk.second.capacity - _
      omega
    rw [List.range_succ, List.foldl_append, earlier, List.foldl_cons, List.foldl_nil,
      writes count (Nat.lt_succ_self count) _ last, append_append fits]

/-- An enlarged chunk holds what it held. -/
theorem enlarge_items (totalBytesToWrite : Int) (chunk : Chunk) :
    (enlarge totalBytesToWrite chunk).second.items = chunk.second.items := by
  rw [enlarge]
  split
  · exact CircularBuffer.setCapacity_items (Nat.le_add_right _ _)
  · rfl

/-- An enlarged chunk has room for the bytes. -/
theorem enlarge_reserve (bytes : Nat) (chunk : Chunk) :
    bytes ≤ (enlarge bytes chunk).second.reserve := by
  have bounded := chunk.second.bounded
  have items := enlarge_items bytes chunk
  rw [CircularBuffer.reserve, items]
  rw [enlarge]
  split
  · rename_i short
    simp only [CircularBuffer.setCapacity, CircularBuffer.reserve] at short ⊢
    omega
  · rename_i fits
    simp only [CircularBuffer.reserve] at fits
    omega

/-! ## One output -/

/-- Each chunk has a place in both queues and holds whole frames, and of the cache
chunks only the front one holds any. -/
structure Framed (frame : Nat) (buffer : CacheBuffer) : Prop where
  dataRoom : buffer.dataBuffer.items.length + buffer.cacheBuffer.items.length ≤
    buffer.dataBuffer.capacity
  cacheRoom : buffer.dataBuffer.items.length + buffer.cacheBuffer.items.length ≤
    buffer.cacheBuffer.capacity
  dataWhole : ∀ chunk ∈ buffer.dataBuffer.items, frame ∣ chunk.second.size
  cacheWhole : ∀ chunk ∈ buffer.cacheBuffer.items, frame ∣ chunk.second.size
  spare : ∀ chunk ∈ buffer.cacheBuffer.items.tail, chunk.second.items = []

theorem EmptyBuffer.framed (empty : EmptyBuffer) (frame : Nat) : Framed frame empty.buffer := by
  have whole : ∀ chunk : Chunk, chunk.second.items = [] → frame ∣ chunk.second.size := by
    intro chunk vacant
    rw [CircularBuffer.size, vacant]
    exact Nat.dvd_zero frame
  constructor
  · exact empty.dataRoom
  · exact empty.cacheRoom
  · exact fun chunk member => whole chunk (empty.dataEmpty chunk member)
  · exact fun chunk member => whole chunk (empty.cacheEmpty chunk member)
  · exact fun chunk member => empty.cacheEmpty chunk (List.mem_of_mem_tail member)

theorem Received.trans {first second : List UInt8} {before middle after : CacheBuffer}
    (earlier : Received first before middle) (later : Received second middle after) :
    Received (first ++ second) before after := by
  constructor
  · exact earlier.queued.trans later.queued
  · rw [later.stream, earlier.stream, List.append_assoc _ first second]

section Framed

variable {frame : Nat} {buffer : CacheBuffer} {chunk : Chunk} {rest : List Chunk}

/-- The invariant survives where the front cache chunk leaves its queue, to the end
of the data queue or for good, and where it stays. -/
theorem Framed.requeue {after : CacheBuffer} (framed : Framed frame buffer)
    (dataCapacity : after.dataBuffer.capacity = buffer.dataBuffer.capacity)
    (cacheCapacity : after.cacheBuffer.capacity = buffer.cacheBuffer.capacity)
    (fewer : after.dataBuffer.items.length + after.cacheBuffer.items.length ≤
      buffer.dataBuffer.items.length + buffer.cacheBuffer.items.length)
    (data : ∀ other ∈ after.dataBuffer.items,
      other ∈ buffer.dataBuffer.items ∨ other ∈ buffer.cacheBuffer.items)
    (cache : after.cacheBuffer.items = buffer.cacheBuffer.items ∨
      after.cacheBuffer.items = buffer.cacheBuffer.items.tail) : Framed frame after := by
  constructor
  · rw [dataCapacity]
    exact Nat.le_trans fewer framed.dataRoom
  · rw [cacheCapacity]
    exact Nat.le_trans fewer framed.cacheRoom
  · intro other member
    rcases data other member with old | new
    · exact framed.dataWhole other old
    · exact framed.cacheWhole other new
  · intro other member
    rcases cache with same | left
    · exact framed.cacheWhole other (same ▸ member)
    · exact framed.cacheWhole other (List.mem_of_mem_tail (left ▸ member))
  · intro other member
    rcases cache with same | left
    · exact framed.spare other (same ▸ member)
    · exact framed.spare other (List.mem_of_mem_tail (left ▸ member))

/-- Without the front cache chunk there is no byte in the cache queue. -/
theorem Framed.rest_bytes (framed : Framed frame buffer)
    (front : buffer.cacheBuffer.items = chunk :: rest) : queueBytes (rest.take 1) = [] := by
  have spare := framed.spare
  rw [front, List.tail_cons] at spare
  exact CacheBuffer.queueBytes_of_empty
    (fun other member => spare other (List.mem_of_mem_take member))

/-- The producer's chunk stays, goes to the data queue, or is dropped empty. -/
theorem putCachePtr_framed (framed : Framed frame buffer)
    (front : buffer.cacheBuffer.items = chunk :: rest) (rotate : Bool) :
    Framed frame (buffer.putCachePtr rotate) ∧
      Received [] buffer (buffer.putCachePtr rotate) := by
  have dataRoom := framed.dataRoom
  rw [front, List.length_cons] at dataRoom
  obtain ⟨dataCapacity, cacheCapacity, _, moved⟩ :=
    CacheBuffer.putCachePtr_queues front (by omega) rotate
  have none := framed.rest_bytes front
  have bytes : ∀ other : CacheBuffer, other.dataBytes ++ other.frontBytes =
      queueBytes other.dataBuffer.items ++ queueBytes (other.cacheBuffer.items.take 1) :=
    fun _ => rfl
  rcases moved with ⟨cache, data⟩ | ⟨cache, data⟩ | ⟨dropped, cache, data⟩
  · have kept : Framed frame (buffer.putCachePtr rotate) := by
      apply framed.requeue dataCapacity cacheCapacity
      · rw [data, cache, front]
      · exact fun other member => Or.inl (data ▸ member)
      · exact Or.inl (cache.trans front.symm)
    refine ⟨kept, data ▸ List.prefix_refl _, ?_⟩
    rw [bytes, bytes, data, cache, front, List.append_nil]
  · have kept : Framed frame (buffer.putCachePtr rotate) := by
      apply framed.requeue dataCapacity cacheCapacity
      · rw [data, cache, front, List.length_append, List.length_singleton, List.length_cons]
        omega
      · intro other member
        rw [data] at member
        rw [front, List.mem_cons]
        rcases List.mem_append.mp member with old | new
        · exact Or.inl old
        · exact Or.inr (Or.inl (List.mem_singleton.mp new))
      · exact Or.inr (by rw [cache, front, List.tail_cons])
    refine ⟨kept, by rw [data]; exact List.prefix_append _ _, ?_⟩
    rw [bytes, bytes, data, cache, none, front]
    simp
  · have kept : Framed frame (buffer.putCachePtr rotate) := by
      apply framed.requeue dataCapacity cacheCapacity
      · rw [data, cache, front, List.length_cons]
        omega
      · exact fun other member => Or.inl (data ▸ member)
      · exact Or.inr (by rw [cache, front, List.tail_cons])
    refine ⟨kept, data ▸ List.prefix_refl _, ?_⟩
    rw [bytes, bytes, data, cache, none, front]
    simp [dropped]

/-- A larger front cache chunk adds its new bytes to the stream. -/
theorem modifyCache_framed {filled : Chunk} {bytes : List UInt8} (framed : Framed frame buffer)
    (front : buffer.cacheBuffer.items = chunk :: rest)
    (items : filled.second.items = chunk.second.items ++ bytes) (whole : frame ∣ bytes.length) :
    Framed frame (buffer.modifyCache (fun _ => filled)) ∧
      Received bytes buffer (buffer.modifyCache (fun _ => filled)) := by
  have cache : (buffer.modifyCache (fun _ => filled)).cacheBuffer.items = filled :: rest :=
    BoundedQueue.modifyFront_cons front _
  obtain ⟨dataRoom, cacheRoom, dataWhole, cacheWhole, spare⟩ := framed
  rw [front] at dataRoom cacheRoom cacheWhole spare
  constructor
  · constructor
    · rw [cache]
      exact dataRoom
    · rw [cache]
      exact Nat.le_trans cacheRoom (Nat.le_of_eq (BoundedQueue.modifyFront_capacity _ _).symm)
    · exact dataWhole
    · rw [cache]
      intro other member
      rcases List.mem_cons.mp member with rfl | old
      · rw [CircularBuffer.size, items, List.length_append]
        exact Nat.dvd_add (cacheWhole chunk List.mem_cons_self) whole
      · exact cacheWhole other (List.mem_cons_of_mem chunk old)
    · rw [cache, List.tail_cons]
      exact spare
  · refine ⟨List.prefix_refl _, ?_⟩
    simp only [CacheBuffer.dataBytes, CacheBuffer.frontBytes, cache, front, items,
      List.take_succ_cons, List.take_zero, CacheBuffer.queueBytes_cons,
      CacheBuffer.queueBytes_nil, List.append_nil, List.append_assoc]
    rfl

/-- Getting a pointer changes no queue. -/
theorem held_framed {held : CacheBuffer} (framed : Framed frame buffer)
    (cache : held.cacheBuffer = buffer.cacheBuffer) (data : held.dataBuffer = buffer.dataBuffer) :
    Framed frame held ∧ Received [] buffer held := by
  obtain ⟨dataRoom, cacheRoom, dataWhole, cacheWhole, spare⟩ := framed
  refine ⟨?_, data ▸ List.prefix_refl _, ?_⟩
  · rw [← cache, ← data] at *
    exact ⟨dataRoom, cacheRoom, dataWhole, cacheWhole, spare⟩
  · rw [CacheBuffer.dataBytes, CacheBuffer.frontBytes, data, cache, List.append_nil]
    rfl

/-- Bytes behind those of the front chunk are received, and leave whole frames. -/
theorem putFilled_received {held : CacheBuffer} {filled : Chunk} {bytes : List UInt8}
    (framed : Framed frame buffer) (got : buffer.getCachePtr = some (chunk, held))
    (items : filled.second.items = chunk.second.items ++ bytes) (whole : frame ∣ bytes.length)
    (oneSampleToByte totalSamples currentSamplesWritten : Int) :
    Framed frame (putFilled oneSampleToByte totalSamples currentSamplesWritten filled held) ∧
      Received bytes buffer
        (putFilled oneSampleToByte totalSamples currentSamplesWritten filled held) := by
  obtain ⟨⟨rest, front⟩, cache, data⟩ := CacheBuffer.getCachePtr_some got
  obtain ⟨heldFramed, same⟩ := held_framed framed cache data
  rw [← cache] at front
  obtain ⟨filledFramed, received⟩ := modifyCache_framed heldFramed front items whole
  obtain ⟨putFramed, put⟩ := putCachePtr_framed filledFramed
    (BoundedQueue.modifyFront_cons front _) (currentSamplesWritten == totalSamples ||
      filled.second.reserve < oneSampleToByte)
  have all := (same.trans received).trans put
  rw [List.nil_append, List.append_nil] at all
  exact ⟨putFramed, all⟩

/-- The end of the decoding rotates the front chunk. -/
theorem syncCache_framed (framed : Framed frame buffer) : Framed frame buffer.syncCache := by
  rw [CacheBuffer.syncCache]
  cases got : buffer.getCachePtr with
  | none => exact framed
  | some found =>
    obtain ⟨⟨rest, front⟩, cache, data⟩ := CacheBuffer.getCachePtr_some got
    rw [← cache] at front
    exact (putCachePtr_framed (held_framed framed cache data).1 front true).1

/-- A change of the front data chunk that leaves whole frames. -/
theorem modifyData_framed {change : Chunk → Chunk} (framed : Framed frame buffer)
    (front : buffer.dataBuffer.items = chunk :: rest)
    (whole : frame ∣ (change chunk).second.size) : Framed frame (buffer.modifyData change) := by
  have data : (buffer.modifyData change).dataBuffer.items = change chunk :: rest :=
    BoundedQueue.modifyFront_cons front change
  obtain ⟨dataRoom, cacheRoom, dataWhole, cacheWhole, spare⟩ := framed
  rw [front] at dataRoom cacheRoom dataWhole
  constructor
  · rw [data]
    exact Nat.le_trans dataRoom (Nat.le_of_eq (BoundedQueue.modifyFront_capacity _ _).symm)
  · rw [data]
    exact cacheRoom
  · rw [data]
    exact List.forall_mem_cons.mpr ⟨whole, (List.forall_mem_cons.mp dataWhole).2⟩
  · exact cacheWhole
  · exact spare

/-- The consumer's chunk stays, or goes empty to the cache queue. -/
theorem putDataPtr_framed (framed : Framed frame buffer)
    (front : buffer.dataBuffer.items = chunk :: rest) (rotate : Bool) :
    Framed frame (buffer.putDataPtr rotate) := by
  obtain ⟨dataRoom, cacheRoom, dataWhole, cacheWhole, spare⟩ := framed
  rw [front, List.length_cons] at dataRoom cacheRoom
  obtain ⟨dataCapacity, cacheCapacity, _, moved⟩ :=
    CacheBuffer.putDataPtr_queues front (by omega) rotate
  rcases moved with ⟨_, left, same⟩ | ⟨_, left, returned⟩
  · constructor
    · rw [dataCapacity, left, same, List.length_cons]
      exact dataRoom
    · rw [cacheCapacity, left, same, List.length_cons]
      exact cacheRoom
    · rw [left, ← front]
      exact dataWhole
    · rw [same]
      exact cacheWhole
    · rw [same]
      exact spare
  · rw [front] at dataWhole
    constructor
    · rw [dataCapacity, left, returned, List.length_append, List.length_singleton]
      omega
    · rw [cacheCapacity, left, returned, List.length_append, List.length_singleton]
      omega
    · rw [left]
      exact (List.forall_mem_cons.mp dataWhole).2
    · rw [returned]
      exact List.forall_mem_append.mpr
        ⟨cacheWhole, List.forall_mem_singleton.mpr (Nat.dvd_zero frame)⟩
    · rw [returned]
      intro other member
      rw [List.tail_append] at member
      split at member
      · cases member
      · rcases List.mem_append.mp member with old | new
        · exact spare other old
        · rw [List.mem_singleton.mp new]
          rfl

/-- Whole frames are left of whole frames. -/
theorem eraseBegin_whole (whole : frame ∣ chunk.second.size) (frames : Nat) :
    frame ∣ (chunk.eraseBegin (min (frames * frame) chunk.second.size)).second.size := by
  rw [CircularBuffer.size] at whole ⊢
  rw [Chunk.eraseBegin, CircularBuffer.eraseBegin_items, List.length_drop]
  rcases Nat.le_total (frames * frame) chunk.second.items.length with part | all
  · rw [CircularBuffer.size, Nat.min_eq_left part]
    exact Nat.dvd_sub whole (Nat.dvd_mul_left frame frames)
  · rw [CircularBuffer.size, Nat.min_eq_right all, Nat.sub_self]
    exact Nat.dvd_zero frame

/-- An output leaves whole frames. -/
theorem takeFrames_framed (framed : Framed frame buffer) (frames : Nat) (rotate : Bool) :
    Framed frame (takeFrames frame frames rotate buffer) := by
  rw [takeFrames]
  cases got : buffer.getDataPtr with
  | none => exact framed
  | some found =>
    obtain ⟨chunk, held⟩ := found
    obtain ⟨⟨rest, front⟩, cache, data⟩ := CacheBuffer.getDataPtr_some got
    have size := framed.dataWhole chunk (front ▸ List.mem_cons_self)
    rw [← data] at front
    have erased : Framed frame (held.modifyData (·.eraseBegin
        (min (frames * frame) chunk.second.size))) :=
      modifyData_framed (held_framed framed cache data).1 front (eraseBegin_whole size frames)
    exact putDataPtr_framed erased (BoundedQueue.modifyFront_cons front _) rotate

end Framed

end Mprt.FrameWrite
