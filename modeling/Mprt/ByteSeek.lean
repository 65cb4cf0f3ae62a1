import Mprt.DecoderRead

/-!
# The byte seek of a decoder library

The callbacks that a library is given read and move the stream of the front track, on its
details and the shared copy of the last read. `seek_byte_internal` finds the front track by
its url id, and `update_dec_detail_seek` does the seek. When that asks the input plugin, it
waits for a chunk with the position of the seek, and clears other chunks.

A wait that never ends is no result. What the input plugin does to the buffer in a wait is
given with the call.
-/

namespace Mprt

/-- The details of the front track and `_last_read_buffer`. -/
structure DecoderStream where
  details : DecoderDetails
  lastReadBuffer : List UInt8
deriving DecidableEq

namespace DecoderStream

open DecoderPluginsManager

/-- The position is in the stream. -/
structure Within (stream : DecoderStream) : Prop where
  nonneg : 0 ≤ stream.details.currentStreamPos
  le : stream.details.currentStreamPos ≤ stream.details.streamLength

/-- The stream after a read, with a copy of its bytes. -/
def decoderReadBuffer (stream : DecoderStream) (bufSize : Int) :
    Option (Option (List UInt8) × DecoderStream) :=
  (DecoderPluginsManager.decoderReadBuffer stream.details bufSize).map (fun read =>
    (read.1, ⟨read.2, read.1.getD []⟩))

/-- The end of the wait for the input plugin, with the buffer as it is then. -/
def seekArrived (details : DecoderDetails) (seekPoint : Int) (arrived : CacheBuffer) :
    Option DecoderDetails :=
  arrived.dataBuffer.front.bind (fun chunk =>
    if chunk.first = seekPoint then
      some { details with currentStreamPos := seekPoint, currentCacheBuf := arrived }
    else none)

/-- `seek_byte_internal` of the front track: whether it has sought, and the stream. -/
def seekByteInternal (stream : DecoderStream) (seekPoint : Int) (arrived : CacheBuffer) :
    Option (Bool × DecoderStream) :=
  match updateDecDetailSeek stream.details stream.lastReadBuffer seekPoint with
  | none => none
  | some .refused => some (false, stream)
  | some (.reached details) => some (true, { stream with details := details })
  | some (.callback details) =>
      (seekArrived details seekPoint arrived).map (fun sought =>
        (true, { stream with details := sought }))

/-- Bytes would have to be put back from the copy, and there is no chunk for them. -/
def NoChunk (stream : DecoderStream) (seekPoint : Int) : Prop :=
  seekPoint < stream.details.currentStreamPos ∧
    stream.details.currentStreamPos - seekPoint < Int.bmod stream.lastReadBuffer.length (2 ^ 32) ∧
    stream.details.currentCacheBuf.dataBuffer.front = none

variable {stream moved : DecoderStream} {seekPoint : Int} {arrived : CacheBuffer} {sought : Bool}

/-- A read takes no more than there is room for and left in the stream, and moves behind it. -/
theorem decoderReadBuffer_moves (within : Within stream) {bufSize : Int} (room : 0 ≤ bufSize)
    {read : Option (List UInt8)}
    (called : stream.decoderReadBuffer bufSize = some (read, moved)) :
    Within moved ∧ moved.details.streamLength = stream.details.streamLength ∧
      (read.getD []).length ≤
        min bufSize (stream.details.streamLength - stream.details.currentStreamPos) := by
  obtain ⟨nonneg, le⟩ := within
  obtain ⟨⟨bytes, after⟩, copies, result⟩ := Option.map_eq_some_iff.mp called
  obtain ⟨rfl, rfl⟩ := Prod.mk.inj result
  have left : 0 ≤ min bufSize (stream.details.streamLength - stream.details.currentStreamPos) := by
    omega
  rcases decoderReadBuffer_cases copies with
    ⟨copied, rest, -, rfl, written, rfl⟩ | ⟨-, rfl, rfl⟩
  · have fits := CacheBuffer.writeIntoRawBuffer_fits left written
    exact ⟨⟨by simp only; omega, by simp only; omega⟩, rfl, fits⟩
  · exact ⟨⟨nonneg, le⟩, rfl, left⟩

/-- Nothing but the position and the buffer is changed where bytes are put back. -/
theorem reinsert_length {details after : DecoderDetails} {lastReadBuffer : List UInt8}
    (put : reinsert details lastReadBuffer seekPoint = some after) :
    after.streamLength = details.streamLength := by
  simp only [reinsert] at put
  generalize Int.bmod lastReadBuffer.length (2 ^ 32) = copied at put
  by_cases backward : seekPoint - details.currentStreamPos < 0
  · rw [if_pos backward] at put
    split at put
    · cases found : details.currentCacheBuf.getDataPtr with
      | none =>
        rw [found] at put
        contradiction
      | some front =>
        rw [found] at put
        obtain rfl := Option.some.inj put
        rfl
    · cases put
      rfl
  · rw [if_neg backward] at put
    cases put
    rfl

/-- The wait for a chunk to put bytes into is in vain. -/
theorem reinsert_none_iff {details : DecoderDetails} {lastReadBuffer : List UInt8} :
    reinsert details lastReadBuffer seekPoint = none ↔
      seekPoint < details.currentStreamPos ∧
        details.currentStreamPos - seekPoint < Int.bmod lastReadBuffer.length (2 ^ 32) ∧
        details.currentCacheBuf.dataBuffer.front = none := by
  have need : -(seekPoint - details.currentStreamPos) = details.currentStreamPos - seekPoint := by
    omega
  simp only [reinsert, need]
  generalize Int.bmod lastReadBuffer.length (2 ^ 32) = copied
  by_cases backward : seekPoint < details.currentStreamPos
  · rw [if_pos (by omega)]
    by_cases served : details.currentStreamPos - seekPoint < copied
    · rw [if_pos served]
      cases front : details.currentCacheBuf.dataBuffer.front with
      | none => simp [CacheBuffer.getDataPtr, CacheBuffer.getGenPtr, front, backward, served]
      | some chunk => simp [CacheBuffer.getDataPtr, CacheBuffer.getGenPtr, front]
    · simp [served]
  · rw [if_neg (by omega)]
    simp [backward]

/-- A seek that asks the input plugin keeps the length. -/
theorem updateDecDetailSeek_callback {details after : DecoderDetails}
    {lastReadBuffer : List UInt8}
    (asked : updateDecDetailSeek details lastReadBuffer seekPoint = some (.callback after)) :
    (0 ≤ seekPoint ∧ seekPoint ≤ details.streamLength) ∧
      after.streamLength = details.streamLength := by
  rw [updateDecDetailSeek] at asked
  split at asked
  · cases asked
  · rename_i accepted
    split at asked
    · cases asked
    · rename_i result put
      simp only at asked
      split at asked
      · obtain ⟨rest, -, ended⟩ := Option.map_eq_some_iff.mp asked
        cases ended
      · cases asked
        exact ⟨by omega, reinsert_length put⟩

/-- A seek that was done is at its point, in the stream. -/
theorem seekByteInternal_sought
    (called : stream.seekByteInternal seekPoint arrived = some (true, moved)) :
    (0 ≤ seekPoint ∧ seekPoint ≤ stream.details.streamLength) ∧
      moved.details.currentStreamPos = seekPoint ∧
      moved.details.streamLength = stream.details.streamLength := by
  rw [seekByteInternal] at called
  split at called
  · contradiction
  · cases called
  · rename_i details reached
    cases called
    obtain ⟨range, same, -⟩ := updateDecDetailSeek_reached reached
    rw [same]
    exact ⟨range, rfl, rfl⟩
  · rename_i details asked
    obtain ⟨after, ended, result⟩ := Option.map_eq_some_iff.mp called
    obtain ⟨chunk, -, ended⟩ := Option.bind_eq_some_iff.mp ended
    obtain ⟨range, length⟩ := updateDecDetailSeek_callback asked
    split at ended
    · cases ended
      cases result
      exact ⟨range, rfl, length⟩
    · contradiction

/-- A seek that was not done has changed nothing. -/
theorem seekByteInternal_refused
    (called : stream.seekByteInternal seekPoint arrived = some (false, moved)) :
    moved = stream := by
  rw [seekByteInternal] at called
  split at called
  · contradiction
  · cases called
    rfl
  · cases called
  · obtain ⟨after, -, result⟩ := Option.map_eq_some_iff.mp called
    cases result

/-- In the stream, a seek is refused exactly when there is no chunk to put bytes into. -/
theorem seekByteInternal_refused_iff
    (range : 0 ≤ seekPoint ∧ seekPoint ≤ stream.details.streamLength) :
    stream.seekByteInternal seekPoint arrived = some (false, stream) ↔
      NoChunk stream seekPoint := by
  have accepted : ¬ (seekPoint < 0 ∨ seekPoint > stream.details.streamLength) := by omega
  rw [NoChunk, ← reinsert_none_iff, seekByteInternal, updateDecDetailSeek, if_neg accepted]
  cases put : reinsert stream.details stream.lastReadBuffer seekPoint with
  | none => exact iff_of_true rfl rfl
  | some moved =>
    refine iff_of_false ?_ (by simp)
    by_cases held : seekPoint - moved.currentStreamPos ≥ 0 ∧
        seekPoint - moved.currentStreamPos - moved.currentCacheBuf.totalBytesInBufferGuess ≤ 0
    · simp only [if_pos held]
      cases moved.currentCacheBuf.discardDataUpto (seekPoint - moved.currentStreamPos) <;> simp
    · simp only [if_neg held]
      cases seekArrived moved seekPoint arrived <;> simp

end DecoderStream

end Mprt
