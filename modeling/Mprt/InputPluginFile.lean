import Mprt.CacheBuffer

/-!
# Reading a file into a chunk buffer

`input_plugin_file` reads the file it has open into the front chunk of the
cache queue, one piece on every `try_read`, and tags a chunk it starts to fill
with the read position of the stream. A seek clears that front chunk and moves
the stream.

The stream is the content of the file with a position. A read that finds fewer
bytes than it asks for fails the stream, whose position is then unknown until
it is cleared. When `try_read` runs, and which file is in turn, is decided by
timers and other jobs and is not part of these functions.
-/

namespace Mprt

/-- A binary `std::ifstream` that is open. -/
structure Ifstream where
  content : List UInt8
  position : Nat
  failed : Bool
deriving DecidableEq

namespace Ifstream

/-- The bytes read (`gcount` is their number) and the stream afterwards. -/
def read (stream : Ifstream) (count : Nat) : List UInt8 × Ifstream :=
  if stream.failed then ([], stream)
  else
    let bytes := (stream.content.drop stream.position).take count
    (bytes, { stream with
      position := stream.position + bytes.length
      failed := decide (bytes.length < count) })

def tellg (stream : Ifstream) : Int := if stream.failed then -1 else stream.position

def clear (stream : Ifstream) : Ifstream := { stream with failed := false }

/-- A failed stream stays where it is, and no negative position can be reached. -/
def seekg (stream : Ifstream) (point : Int) : Ifstream :=
  if stream.failed then stream
  else if point < 0 then { stream with failed := true }
  else { stream with position := point.toNat }

end Ifstream

/-- The members of `file_details` that reading and seeking use. -/
structure FileDetails where
  file : Ifstream
  fileSize : Int
  currentReadSoFar : Int
deriving DecidableEq

namespace InputPluginFile

/-- The file read part of `try_read` on the front chunk, with the flag that the
file is finished. -/
def fillChunk (maxFileChunkSize : Nat) (details : FileDetails) (chunk : Chunk) :
    FileDetails × Chunk × Bool :=
  let freeSize := min maxFileChunkSize chunk.second.reserve
  let first := if chunk.second.size = 0 then details.file.tellg else chunk.first
  let taken := details.file.read freeSize
  let currentReadSoFar := details.currentReadSoFar + taken.1.length
  ({ details with file := taken.2, currentReadSoFar := currentReadSoFar },
    ⟨first, chunk.second.append taken.1⟩,
    decide (currentReadSoFar = details.fileSize) || taken.2.failed)

/-- `try_read` between `get_cache_ptr` and `put_cache_ptr`; nothing when every
chunk is in the data queue. -/
def tryReadFill (maxFileChunkSize : Nat) (details : FileDetails) (buffer : CacheBuffer) :
    Option (FileDetails × CacheBuffer × Bool) :=
  match buffer.getCachePtr with
  | none => none
  | some (chunk, held) =>
    let filled := fillChunk maxFileChunkSize details chunk
    some (filled.1, held.modifyCache (fun _ => filled.2.1), filled.2.2)

/-- `try_read` without interruption: a finished file rotates its last chunk. -/
def tryRead (maxFileChunkSize : Nat) (details : FileDetails) (buffer : CacheBuffer) :
    Option (FileDetails × CacheBuffer × Bool) :=
  (tryReadFill maxFileChunkSize details buffer).map (fun filled =>
    (filled.1, filled.2.1.putCachePtr filled.2.2, filled.2.2))

/-- The file's part of `seek_helper`; the buffer's part is `clear_cache`. -/
def seekHelper (details : FileDetails) (seekPoint : Int) : FileDetails :=
  { details with file := details.file.clear.seekg seekPoint, currentReadSoFar := seekPoint }

end InputPluginFile

namespace Ifstream

/-- A stream read takes its bytes off what lies before the stream. -/
theorem read_drop (stream : Ifstream) (count : Nat) :
    (stream.read count).2.content = stream.content ∧
      (stream.read count).1 ++ stream.content.drop (stream.read count).2.position =
        stream.content.drop stream.position := by
  rw [read]
  by_cases failed : stream.failed = true
  · simp [failed]
  · simp only [failed, Bool.false_eq_true, if_false, true_and]
    rw [← List.drop_drop, List.length_take]
    by_cases short : count ≤ (stream.content.drop stream.position).length
    · rw [Nat.min_eq_left short, List.take_append_drop]
    · rw [Nat.min_eq_right (by omega), List.take_of_length_le (by omega), List.drop_length,
        List.append_nil]

/-- The position moves behind the bytes read. -/
theorem read_position (stream : Ifstream) (count : Nat) :
    (stream.read count).2.position = stream.position + (stream.read count).1.length := by
  rw [read]
  split <;> rfl

/-- Before the end of the file, a read that takes no byte has asked for none. -/
theorem read_nothing {stream : Ifstream} {count : Nat}
    (before : stream.position < stream.content.length) (nothing : (stream.read count).1 = []) :
    (stream.read count).2 = stream := by
  rw [read] at nothing ⊢
  split
  · rfl
  · rename_i live
    have alive : stream.failed = false := Bool.eq_false_iff.mpr live
    have asked : count = 0 := by
      have taken := congrArg List.length nothing
      simp only [alive, Bool.false_eq_true, if_false, List.length_take, List.length_drop,
        List.length_nil] at taken
      omega
    subst asked
    simp [← alive]

/-- No read takes more than it asks for. -/
theorem read_length (stream : Ifstream) (count : Nat) :
    (stream.read count).1.length ≤ count := by
  rw [read]
  split
  · exact Nat.zero_le count
  · exact List.length_take_le count _

end Ifstream

namespace InputPluginFile

/-- The bytes that fill the front chunk are the next bytes of the file. -/
theorem fillChunk_bytes (maxFileChunkSize : Nat) (details : FileDetails) (chunk : Chunk) :
    let filled := fillChunk maxFileChunkSize details chunk
    ∃ bytes, filled.2.1.second.items = chunk.second.items ++ bytes ∧
      filled.1.file.content = details.file.content ∧
      filled.1.file.position = details.file.position + bytes.length ∧
      filled.1.currentReadSoFar = details.currentReadSoFar + bytes.length ∧
      bytes ++ details.file.content.drop filled.1.file.position =
        details.file.content.drop details.file.position := by
  intro filled
  let freeSize := min maxFileChunkSize chunk.second.reserve
  have fits : (details.file.read freeSize).1.length ≤ chunk.second.reserve :=
    Nat.le_trans (details.file.read_length freeSize) (Nat.min_le_right _ _)
  obtain ⟨content, bytes⟩ := details.file.read_drop freeSize
  exact ⟨(details.file.read freeSize).1, CircularBuffer.append_items fits, content,
    details.file.read_position freeSize, rfl, bytes⟩

/-- A chunk with bytes keeps its tag; an empty one that gets bytes is tagged
with the position they are read from. -/
theorem fillChunk_first (maxFileChunkSize : Nat) (details : FileDetails) (chunk : Chunk) :
    let filled := (fillChunk maxFileChunkSize details chunk).2.1
    (chunk.second.items ≠ [] → filled.first = chunk.first) ∧
      (chunk.second.items = [] → filled.second.items ≠ [] →
        filled.first = details.file.position) := by
  intro filled
  refine ⟨?_, ?_⟩
  · intro occupied
    have size : chunk.second.size ≠ 0 := fun noBytes => occupied (List.length_eq_zero_iff.mp noBytes)
    exact if_neg size
  · intro vacant occupied
    have size : chunk.second.size = 0 := List.length_eq_zero_iff.mpr vacant
    have live : details.file.failed = false := by
      apply Bool.eq_false_iff.mpr
      intro failed
      apply occupied
      simp [filled, fillChunk, Ifstream.read, failed, CircularBuffer.append, CircularBuffer.insert,
        vacant]
    have tag : filled.first = details.file.tellg := if_pos size
    rw [tag, Ifstream.tellg, live]
    rfl

/-- Before the end of the file, a read that leaves its chunk empty changes nothing
of the file. -/
theorem fillChunk_nothing {maxFileChunkSize : Nat} {details : FileDetails} {chunk : Chunk}
    (before : details.file.position < details.file.content.length)
    (nothing : (fillChunk maxFileChunkSize details chunk).2.1.second.items = []) :
    (fillChunk maxFileChunkSize details chunk).1 = details ∧
      (fillChunk maxFileChunkSize details chunk).2.2 =
        (decide (details.currentReadSoFar = details.fileSize) || details.file.failed) := by
  let freeSize := min maxFileChunkSize chunk.second.reserve
  have fits : (details.file.read freeSize).1.length ≤ chunk.second.reserve :=
    Nat.le_trans (details.file.read_length freeSize) (Nat.min_le_right _ _)
  have appended : chunk.second.items ++ (details.file.read freeSize).1 = [] :=
    (CircularBuffer.append_items fits).symm.trans nothing
  have taken := (List.append_eq_nil_iff.mp appended).2
  have same := Ifstream.read_nothing before taken
  refine ⟨?_, ?_⟩
  · change { details with
      file := (details.file.read freeSize).2
      currentReadSoFar := details.currentReadSoFar + (details.file.read freeSize).1.length } = _
    simp [same, taken]
  · change (decide (details.currentReadSoFar + (details.file.read freeSize).1.length = _) ||
      (details.file.read freeSize).2.failed) = _
    simp [same, taken]

/-- `try_read` changes only the front chunk, by the next bytes of the file. -/
theorem tryReadFill_some {maxFileChunkSize : Nat} {details filledDetails : FileDetails}
    {before filled : CacheBuffer} {finished : Bool}
    (read : tryReadFill maxFileChunkSize details before = some (filledDetails, filled, finished)) :
    ∃ chunk rest, before.cacheBuffer.items = chunk :: rest ∧
      (filledDetails, filled.cacheBuffer, finished) =
        ((fillChunk maxFileChunkSize details chunk).1,
          before.cacheBuffer.modifyFront (fun _ => (fillChunk maxFileChunkSize details chunk).2.1),
          (fillChunk maxFileChunkSize details chunk).2.2) ∧
      filled.dataBuffer = before.dataBuffer ∧ filled.cacheLastSize = chunk.second.size ∧
      filled.totalBytesInBuffer = before.totalBytesInBuffer := by
  cases found : before.getCachePtr with
  | none => simp [tryReadFill, found] at read
  | some result =>
    obtain ⟨chunk, held⟩ := result
    obtain ⟨⟨rest, front⟩, cache, data⟩ := CacheBuffer.getCachePtr_some found
    have fronts := BoundedQueue.front_eq_some_iff.mpr ⟨rest, front⟩
    simp only [tryReadFill, found, Option.some.injEq, Prod.mk.injEq] at read
    simp only [CacheBuffer.getCachePtr, CacheBuffer.getGenPtr, fronts, Option.map_some,
      Option.some.injEq, Prod.mk.injEq, true_and] at found
    obtain ⟨rfl, rfl, rfl⟩ := read
    refine ⟨chunk, rest, front, by rw [CacheBuffer.modifyCache, cache], data, ?_, ?_⟩
    · rw [← found]
      rfl
    · rw [← found]
      rfl

end InputPluginFile

end Mprt
