import Mprt.Circulation
import Mprt.InputPluginFile

/-!
# The bytes a resting buffer holds

Between operations that run without interruption a buffer holds a list of bytes,
and its counter is their number. Each operation is an operation on that list: a
read or a discard takes bytes off its head, a reinsertion puts bytes before it,
and a file read appends the next bytes of the file.
-/

namespace Mprt

open CacheBufferThreads
open Circulation
open CacheBuffer (queueBytes)

/-- The buffer rests, and holds these bytes in order. -/
structure Holds (buffer : CacheBuffer) (content : List UInt8) : Prop where
  circulates : Circulates buffer .ready (Consumer.ready ())
  bytes : pending buffer .ready = content
  counted : buffer.totalBytesInBuffer = content.length

namespace Holds

/-- A new buffer holds nothing. -/
theorem make (bufferSize elemSize : Nat) (cacheLastSize dataLastSize : Int) :
    Holds (CacheBuffer.make bufferSize elemSize cacheLastSize dataLastSize) [] := by
  obtain ⟨circulates, nothing⟩ := make_circulates bufferSize elemSize cacheLastSize dataLastSize ()
  exact ⟨circulates, nothing, rfl⟩

/-- A change of the front data chunk changes the bytes that chunk had. -/
theorem change_data {before held : CacheBuffer} {content : List UInt8} {chunk : Chunk}
    (holds : Holds before content) (change : Chunk → Chunk)
    (found : before.getDataPtr = some (chunk, held)) :
    ∃ later, content = chunk.second.items ++ later ∧
      Holds ((held.modifyData change).putDataPtr false) ((change chunk).second.items ++ later) := by
  obtain ⟨circulates, bytes, counted⟩ := holds
  obtain ⟨⟨rest, front⟩, cache, data⟩ := CacheBuffer.getDataPtr_some found
  have unforced : false = true → Vacant (change chunk) := by simp
  obtain ⟨arrives, after⟩ := circulates.put_data_ptr change found front unforced
  have changed : (held.modifyData change).dataBuffer.items = change chunk :: rest := by
    rw [CacheBuffer.modifyData, data, BoundedQueue.modifyFront_cons front]
  have total := CacheBuffer.putDataPtr_total changed false
  have size : held.dataLastSize = chunk.second.size ∧
      held.totalBytesInBuffer = before.totalBytesInBuffer := by
    have fronts := BoundedQueue.front_eq_some_iff.mpr ⟨rest, front⟩
    simp only [CacheBuffer.getDataPtr, CacheBuffer.getGenPtr, fronts, Option.map_some,
      Option.some.injEq, Prod.mk.injEq, true_and] at found
    rw [← found]
    exact ⟨rfl, rfl⟩
  refine ⟨queueBytes rest ++ before.frontBytes, ?_, arrives, ?_, ?_⟩
  · rw [← bytes]
    simp [pending, CacheBuffer.dataBytes, front, producerHeld]
  · rw [after]
    simp [producerHeld]
  · rw [total]
    simp only [CacheBuffer.modifyData, size.1, size.2, counted, ← bytes, pending,
      CacheBuffer.dataBytes, front, producerHeld, CircularBuffer.size, CacheBuffer.queueBytes_cons,
      CacheBuffer.queueBytes_nil, List.length_append, List.append_nil]
    omega

/-- Taking bytes off the front chunk takes them off the head of the content. -/
theorem erase {before held : CacheBuffer} {content : List UInt8} {chunk : Chunk}
    (holds : Holds before content) (count : Nat)
    (found : before.getDataPtr = some (chunk, held)) :
    ∃ later, content = chunk.second.items.take count ++ later ∧
      Holds ((held.modifyData (·.eraseBegin count)).putDataPtr false) later := by
  obtain ⟨later, content, after⟩ := holds.change_data (·.eraseBegin count) found
  refine ⟨chunk.second.items.drop count ++ later, ?_, after⟩
  rw [content, ← List.append_assoc, List.take_append_drop]

/-- `write_into_raw_buffer` takes the bytes it copies off the head. -/
theorem write_loop {fuel : Nat} {before after : CacheBuffer} {content bytes : List UInt8}
    {size : Int} (holds : Holds before content)
    (written : CacheBuffer.writeIntoRawBufferLoop fuel before size true = some (bytes, after)) :
    ∃ later, content = bytes ++ later ∧ Holds after later := by
  induction fuel generalizing before content bytes size with
  | zero => contradiction
  | succ fuel inductionHypothesis =>
    simp only [CacheBuffer.writeIntoRawBufferLoop] at written
    cases found : before.getDataPtr with
    | none =>
      simp only [found, Option.some.injEq, Prod.mk.injEq] at written
      obtain ⟨rfl, rfl⟩ := written
      exact ⟨content, rfl, holds⟩
    | some result =>
      obtain ⟨chunk, held⟩ := result
      simp only [found, if_true] at written
      obtain ⟨rest, taken, erased⟩ :=
        holds.erase (CacheBuffer.getCircBufEnough chunk size).2 found
      split at written
      · rw [Option.map_eq_some_iff] at written
        obtain ⟨⟨following, finish⟩, recursive, ended⟩ := written
        obtain ⟨rfl, rfl⟩ := Prod.mk.inj ended
        obtain ⟨later, remaining, arrives⟩ := inductionHypothesis erased recursive
        refine ⟨later, ?_, arrives⟩
        rw [taken, remaining, List.append_assoc]
      · obtain ⟨rfl, rfl⟩ := Prod.mk.inj (Option.some.inj written)
        exact ⟨rest, taken, erased⟩

/-- `write_into_raw_buffer` takes the bytes it copies off the head. -/
theorem write {before after : CacheBuffer} {content bytes : List UInt8} {size : Int}
    (holds : Holds before content)
    (written : before.writeIntoRawBuffer size true = some (bytes, after)) :
    ∃ later, content = bytes ++ later ∧ Holds after later :=
  holds.write_loop written

/-- `discard_data_upto`, when it returns, drops as many bytes as it is asked to. -/
theorem discard_loop {fuel : Nat} {before after : CacheBuffer} {content : List UInt8}
    {seekPoint : Int} (holds : Holds before content)
    (discarded : CacheBuffer.discardDataUptoLoop fuel before seekPoint = some after) :
    ∃ bytes, content = bytes ++ content.drop seekPoint.toNat ∧ bytes.length = seekPoint.toNat ∧
      Holds after (content.drop seekPoint.toNat) := by
  induction fuel generalizing before content seekPoint with
  | zero => contradiction
  | succ fuel inductionHypothesis =>
    simp only [CacheBuffer.discardDataUptoLoop] at discarded
    split at discarded
    · rename_i nothing
      have none : seekPoint.toNat = 0 := by omega
      obtain rfl := Option.some.inj discarded
      rw [none, List.drop_zero]
      exact ⟨[], rfl, rfl, holds⟩
    · cases found : before.getDataPtr with
      | none => simp [found] at discarded
      | some result =>
        obtain ⟨chunk, held⟩ := result
        simp only [found] at discarded
        let count := min seekPoint.toNat chunk.second.size
        obtain ⟨rest, taken, erased⟩ := holds.erase count found
        obtain ⟨bytes, remaining, length, arrives⟩ := inductionHypothesis erased discarded
        have first : (chunk.second.items.take count).length = count := by
          rw [List.length_take]
          exact Nat.min_eq_left (Nat.min_le_right _ _)
        have left : seekPoint.toNat = count + (seekPoint - count).toNat := by omega
        have dropped : content.drop seekPoint.toNat = rest.drop (seekPoint - count).toNat := by
          rw [left, ← List.drop_drop, taken, List.drop_left' first]
        refine ⟨chunk.second.items.take count ++ bytes, ?_, ?_, ?_⟩
        · rw [dropped, List.append_assoc, ← remaining, ← taken]
        · rw [List.length_append, first, length, ← left]
        · rw [dropped]
          exact arrives

/-- Looking at the front data chunk changes nothing. -/
theorem look {before held : CacheBuffer} {content : List UInt8} {chunk : Chunk}
    (holds : Holds before content) (found : before.getDataPtr = some (chunk, held)) :
    Holds held content := by
  obtain ⟨circulates, bytes, counted⟩ := holds
  obtain ⟨⟨rest, front⟩, _⟩ := CacheBuffer.getDataPtr_some found
  have fronts := BoundedQueue.front_eq_some_iff.mpr ⟨rest, front⟩
  simp only [CacheBuffer.getDataPtr, CacheBuffer.getGenPtr, fronts, Option.map_some,
    Option.some.injEq, Prod.mk.injEq, true_and] at found
  subst found
  exact ⟨⟨circulates.capacities, circulates.total, circulates.vacant, trivial⟩, bytes, counted⟩

/-- Bytes added to the front cache chunk are appended, whether it is rotated or not. -/
theorem fill {before filled : CacheBuffer} {content bytes : List UInt8} {chunk full : Chunk}
    {rest : List Chunk} (holds : Holds before content)
    (front : before.cacheBuffer.items = chunk :: rest)
    (cache : filled.cacheBuffer = before.cacheBuffer.modifyFront (fun _ => full))
    (data : filled.dataBuffer = before.dataBuffer)
    (size : filled.cacheLastSize = chunk.second.size)
    (total : filled.totalBytesInBuffer = before.totalBytesInBuffer)
    (items : full.second.items = chunk.second.items ++ bytes) (rotate : Bool) :
    Holds (filled.putCachePtr rotate) (content ++ bytes) := by
  obtain ⟨circulates, held, counted⟩ := holds
  obtain ⟨arrives, same⟩ := circulates.put_cache_ptr _ rotate cache data
  have filledItems := BoundedQueue.modifyFront_cons front (fun _ => full)
  rw [← cache] at filledItems
  have dataBytes : filled.dataBytes = before.dataBytes := by
    rw [CacheBuffer.dataBytes, CacheBuffer.dataBytes, data]
  have frontBytes : filled.frontBytes = before.frontBytes ++ bytes := by
    simp [CacheBuffer.frontBytes, filledItems, front, items]
  refine ⟨arrives, ?_, ?_⟩
  · rw [same, ← held]
    simp [pending, dataBytes, frontBytes, producerHeld]
  · rw [CacheBuffer.putCachePtr_total filledItems, size, total, counted]
    simp only [CircularBuffer.size, items, List.length_append]
    omega

/-- `try_read` appends the next bytes of the file. -/
theorem tryRead {maxFileChunkSize : Nat} {details readDetails : FileDetails}
    {before after : CacheBuffer} {content : List UInt8} {finished : Bool}
    (holds : Holds before content)
    (read : InputPluginFile.tryRead maxFileChunkSize details before =
      some (readDetails, after, finished)) :
    ∃ bytes, Holds after (content ++ bytes) ∧ readDetails.file.content = details.file.content ∧
      readDetails.file.position = details.file.position + bytes.length ∧
      bytes ++ details.file.content.drop readDetails.file.position =
        details.file.content.drop details.file.position := by
  simp only [InputPluginFile.tryRead, Option.map_eq_some_iff, Prod.mk.injEq] at read
  obtain ⟨⟨filledDetails, filled, ended⟩, fills, rfl, rfl, rfl⟩ := read
  obtain ⟨chunk, rest, front, filledBy, data, size, total⟩ :=
    InputPluginFile.tryReadFill_some fills
  obtain ⟨rfl, cache, rfl⟩ := by simpa only [Prod.mk.injEq] using filledBy
  obtain ⟨bytes, items, sameFile, moves, _, next⟩ :=
    InputPluginFile.fillChunk_bytes maxFileChunkSize details chunk
  exact ⟨bytes, holds.fill front cache data size total items _, sameFile, moves, next⟩

end Holds

end Mprt
