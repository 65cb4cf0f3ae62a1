import Mprt.CacheBuffer

/-!
# Reads and seeks of a decoder on its input buffer

`decoder_read_buffer` copies bytes out of the input buffer of a track and keeps
a copy of what it read in `_last_read_buffer`, which all tracks of the manager
share. `update_dec_detail_seek` moves a track to another position: it puts bytes
of that copy back before the buffered ones, discards buffered bytes, or asks the
input plugin to seek.

Here each call runs alone: the input thread has done what it does before the
call, and a wait for more input ends after its time limit. A discard that waits
for data that never comes has no result.
-/

namespace Mprt

/-- The members of `current_decoder_details` that reads and seeks use. -/
structure DecoderDetails where
  streamLength : Int
  currentStreamPos : Int
  lastReadEmpty : Bool
  currentCacheBuf : CacheBuffer
deriving DecidableEq

/-- How `update_dec_detail_seek` goes on: it returns false, it has reached the
point within the buffer, or it calls `_seek_callback` and waits. -/
inductive SeekOutcome where
  | refused
  | reached (details : DecoderDetails)
  | callback (details : DecoderDetails)
deriving DecidableEq

namespace DecoderPluginsManager

/-- The wait of `decoder_read_buffer` is over: the stream is at its end, or the
buffer counts enough bytes and has a data chunk. -/
def readReady (details : DecoderDetails) (maxBufSize : Int) : Bool :=
  details.streamLength ≤ details.currentStreamPos ||
    (maxBufSize ≤ details.currentCacheBuf.totalBytesInBufferGuess &&
      !details.currentCacheBuf.isDataEmpty)

/-- `decoder_read_buffer`: the bytes read, or nothing for the result -1. The
shared buffer then holds these bytes, or none. -/
def decoderReadBuffer (details : DecoderDetails) (bufSize : Int) :
    Option (Option (List UInt8) × DecoderDetails) :=
  let maxBufSize := min bufSize (details.streamLength - details.currentStreamPos)
  if readReady details maxBufSize then
    (details.currentCacheBuf.writeIntoRawBuffer maxBufSize true).map (fun written =>
      (some written.1, { details with
        currentCacheBuf := written.2
        currentStreamPos := details.currentStreamPos + written.1.length
        lastReadEmpty := false }))
  else some (none, { details with lastReadEmpty := true })

/-- The backward part of `update_dec_detail_seek`: with enough bytes in the
shared buffer its last ones are put back before the front data chunk. There is
no result when no data chunk arrives in time. -/
def reinsert (details : DecoderDetails) (lastReadBuffer : List UInt8) (seekPoint : Int) :
    Option DecoderDetails :=
  if seekPoint - details.currentStreamPos < 0 then
    let needPos := -(seekPoint - details.currentStreamPos)
    if needPos < Int.bmod lastReadBuffer.length (2 ^ 32) then
      match details.currentCacheBuf.getDataPtr with
      | none => none
      | some (_, held) =>
        let bytes := lastReadBuffer.drop (lastReadBuffer.length - needPos.toNat)
        let currentStreamPos := details.currentStreamPos - needPos
        some { details with
          currentStreamPos := currentStreamPos
          currentCacheBuf := (held.modifyData (·.insertBegin bytes currentStreamPos)).putDataPtr
            false }
    else some details
  else some details

/-- `update_dec_detail_seek` up to its callback. -/
def updateDecDetailSeek (details : DecoderDetails) (lastReadBuffer : List UInt8)
    (seekPoint : Int) : Option SeekOutcome :=
  if seekPoint < 0 ∨ seekPoint > details.streamLength then some .refused
  else
    match reinsert details lastReadBuffer seekPoint with
    | none => some .refused
    | some moved =>
      let needPos := seekPoint - moved.currentStreamPos
      if needPos ≥ 0 ∧ needPos - moved.currentCacheBuf.totalBytesInBufferGuess ≤ 0 then
        (moved.currentCacheBuf.discardDataUpto needPos).map (fun rest =>
          .reached { moved with currentCacheBuf := rest, currentStreamPos := seekPoint })
      else some (.callback moved)

/-- A read that does not have to give up takes its bytes off the buffer and moves
behind them; another changes neither. -/
theorem decoderReadBuffer_cases {details after : DecoderDetails} {bufSize : Int}
    {bytes : Option (List UInt8)}
    (read : decoderReadBuffer details bufSize = some (bytes, after)) :
    let maxBufSize := min bufSize (details.streamLength - details.currentStreamPos)
    (∃ copied rest, readReady details maxBufSize = true ∧ bytes = some copied ∧
      details.currentCacheBuf.writeIntoRawBuffer maxBufSize true = some (copied, rest) ∧
      after = { details with
        currentCacheBuf := rest
        currentStreamPos := details.currentStreamPos + copied.length
        lastReadEmpty := false }) ∨
      (readReady details maxBufSize = false ∧ bytes = none ∧
        after = { details with lastReadEmpty := true }) := by
  simp only [decoderReadBuffer] at read
  split at read
  · rename_i ready
    rw [Option.map_eq_some_iff] at read
    obtain ⟨⟨copied, rest⟩, written, ended⟩ := read
    simp only [Prod.mk.injEq] at ended
    obtain ⟨rfl, rfl⟩ := ended
    exact .inl ⟨copied, rest, ready, rfl, written, rfl⟩
  · rename_i waits
    simp only [Option.some.injEq, Prod.mk.injEq] at read
    obtain ⟨rfl, rfl⟩ := read
    exact .inr ⟨Bool.eq_false_iff.mpr waits, rfl, rfl⟩

/-- A seek that is served lands at its point, by a discard when the point is not
behind the track, and else by putting back the last bytes of the shared copy. -/
theorem updateDecDetailSeek_reached {details moved : DecoderDetails} {lastReadBuffer : List UInt8}
    {seekPoint : Int}
    (reached : updateDecDetailSeek details lastReadBuffer seekPoint = some (.reached moved)) :
    (0 ≤ seekPoint ∧ seekPoint ≤ details.streamLength) ∧
      moved = { details with
        currentCacheBuf := moved.currentCacheBuf
        currentStreamPos := seekPoint } ∧
      ((details.currentStreamPos ≤ seekPoint ∧
          details.currentCacheBuf.discardDataUpto (seekPoint - details.currentStreamPos) =
            some moved.currentCacheBuf) ∨
        (seekPoint < details.currentStreamPos ∧
          details.currentStreamPos - seekPoint < Int.bmod lastReadBuffer.length (2 ^ 32) ∧
          ∃ chunk held, details.currentCacheBuf.getDataPtr = some (chunk, held) ∧
            moved.currentCacheBuf = (held.modifyData (·.insertBegin (lastReadBuffer.drop
              (lastReadBuffer.length - (details.currentStreamPos - seekPoint).toNat))
              seekPoint)).putDataPtr false)) := by
  simp only [updateDecDetailSeek] at reached
  split at reached
  · simp at reached
  · rename_i accepted
    have range : 0 ≤ seekPoint ∧ seekPoint ≤ details.streamLength := by omega
    by_cases backward : seekPoint - details.currentStreamPos < 0
    · simp only [reinsert, backward, if_true] at reached
      split at reached
      · simp at reached
      · rename_i result reinserted
        split at reinserted
        · rename_i served
          cases found : details.currentCacheBuf.getDataPtr with
          | none => simp [found] at reinserted
          | some front =>
            obtain ⟨chunk, held⟩ := front
            simp only [found, Option.some.injEq] at reinserted
            subst reinserted
            have lands : details.currentStreamPos - (details.currentStreamPos - seekPoint) =
                seekPoint := by omega
            have need : -(seekPoint - details.currentStreamPos) =
                details.currentStreamPos - seekPoint := by omega
            simp only [need, lands, Int.sub_self] at reached served
            split at reached
            · rw [CacheBuffer.discardDataUpto, CacheBuffer.discardDataUptoLoop,
                if_pos (Int.le_refl 0)] at reached
              simp only [Option.map_some, Option.some.injEq, SeekOutcome.reached.injEq] at reached
              subst reached
              exact ⟨range, rfl, .inr ⟨by omega, served, chunk, held, rfl, rfl⟩⟩
            · simp at reached
        · obtain rfl := Option.some.inj reinserted
          split at reached
          · omega
          · simp at reached
    · simp only [reinsert, backward, if_false] at reached
      split at reached
      · rw [Option.map_eq_some_iff] at reached
        obtain ⟨rest, discarded, ended⟩ := reached
        simp only [SeekOutcome.reached.injEq] at ended
        subst ended
        exact ⟨range, rfl, .inl ⟨by omega, discarded⟩⟩
      · simp at reached

/-- A seek within the stream is refused only for want of a data chunk to put bytes
back into. -/
theorem updateDecDetailSeek_refused {details : DecoderDetails} {lastReadBuffer : List UInt8}
    {seekPoint : Int} (range : 0 ≤ seekPoint ∧ seekPoint ≤ details.streamLength)
    (refused : updateDecDetailSeek details lastReadBuffer seekPoint = some .refused) :
    seekPoint < details.currentStreamPos ∧ details.currentCacheBuf.isDataEmpty = true := by
  have accepted : ¬ (seekPoint < 0 ∨ seekPoint > details.streamLength) := by omega
  simp only [updateDecDetailSeek, accepted, if_false] at refused
  split at refused
  · rename_i nothing
    simp only [reinsert] at nothing
    split at nothing
    · rename_i backward
      split at nothing
      · cases found : details.currentCacheBuf.getDataPtr with
        | none =>
          refine ⟨by omega, ?_⟩
          simpa [CacheBuffer.getDataPtr, CacheBuffer.getGenPtr, CacheBuffer.isDataEmpty,
            BoundedQueue.isEmpty, BoundedQueue.front_eq_none_iff] using found
        | some result => simp [found] at nothing
      · simp at nothing
    · simp at nothing
  · split at refused
    · simp at refused
    · simp at refused

end DecoderPluginsManager

end Mprt
