import Mprt.BufferedSeek

/-!
# The position tags of input chunks

The calls of `BufferedSeek` with, beside each buffer and the shared copy of the
last read, where their bytes come from. No call reads these origins: they follow
the bytes that are appended, taken, discarded and put back.

A chunk's tag is right when it is the offset, in the chunk's own file, of the
chunk's first byte. Filling a chunk sets the tag and putting bytes back sets it
anew. A consumer that takes part of a chunk moves the tag the wrong way, so a
read or a discard keeps the tags right exactly when it ends where a chunk ends.
-/

namespace Mprt.PositionTags

open CacheBufferThreads
open Circulation
open DecoderPluginsManager
open CacheBuffer (queueBytes)
open BufferedSeek (Call SeeksAfterRead openedTrack)

/-- Where a byte comes from: the `url_id` of its file and the offset there. -/
abbrev Origin := Int × Int

/-- The origins of bytes that follow each other in a file. -/
def consecutive (urlId : Int) : Int → Nat → List Origin
  | _, 0 => []
  | offset, count + 1 => (urlId, offset) :: consecutive urlId (offset + 1) count

/-- The tracks with the origins of their buffered bytes, in order, and those of
the bytes of the last read. -/
structure State where
  calls : BufferedSeek.State
  origins : Int → List Origin
  lastReadOrigins : List Origin

/-- What a call does to the origins: a file read appends those it has passed, a
read takes as many as it copies, and a seek puts back the last ones or discards
the first ones. -/
def follow (state : State) (call : Call) (next : BufferedSeek.State) : State :=
  match call with
  | .tryRead urlId _ =>
      let before := (state.calls.tracks urlId).file.file.position
      let after := (next.tracks urlId).file.file.position
      { state with
        calls := next
        origins := Function.update state.origins urlId
          (state.origins urlId ++ consecutive urlId before (after - before)) }
  | .decoderReadBuffer urlId _ =>
      let count := next.lastReadBuffer.length
      { calls := next
        origins := Function.update state.origins urlId ((state.origins urlId).drop count)
        lastReadOrigins := (state.origins urlId).take count }
  | .updateDecDetailSeek urlId _ =>
      let before := (state.calls.tracks urlId).details.currentStreamPos
      let after := (next.tracks urlId).details.currentStreamPos
      { state with
        calls := next
        origins := Function.update state.origins urlId
          (state.lastReadOrigins.drop (state.lastReadOrigins.length - (before - after).toNat) ++
            (state.origins urlId).drop (after - before).toNat) }

def step (state : State) (call : Call) : Option State :=
  (BufferedSeek.step state.calls call).map (follow state call)

/-- Every track has just been opened. -/
def start (bufferSize elemSize : Int → Nat) (content : Int → List UInt8) : State :=
  { calls :=
      { tracks := fun urlId => openedTrack (bufferSize urlId) (elemSize urlId) (content urlId)
        lastReadBuffer := []
        lastRead := none }
    origins := fun _ => []
    lastReadOrigins := [] }

/-- The chunks of both queues, in the order in which they will be read. -/
def chunks (buffer : CacheBuffer) : List Chunk :=
  buffer.dataBuffer.items ++ buffer.cacheBuffer.items

/-- Every chunk with bytes is tagged with the offset of its first byte. -/
def Tagged (urlId : Int) : List Chunk → List Origin → Prop
  | [], _ => True
  | chunk :: rest, origins =>
      (chunk.second.items ≠ [] → origins.head? = some (urlId, chunk.first)) ∧
        Tagged urlId rest (origins.drop chunk.second.size)

instance decidableTagged (urlId : Int) :
    (chunks : List Chunk) → (origins : List Origin) → Decidable (Tagged urlId chunks origins)
  | [], _ => inferInstanceAs (Decidable True)
  | chunk :: rest, origins =>
      have := decidableTagged urlId rest (origins.drop chunk.second.size)
      inferInstanceAs (Decidable (_ ∧ _))

/-- The tags of every track are right. -/
def TagsRight (state : State) : Prop :=
  ∀ urlId, Tagged urlId (chunks (state.calls.tracks urlId).details.currentCacheBuf)
    (state.origins urlId)

/-- Taking this many bytes off these chunks leaves no chunk that has lost some
of its bytes and kept others. -/
def endsAtChunk : List Chunk → Int → Bool
  | [], _ => true
  | chunk :: rest, size =>
      size ≤ 0 || (chunk.second.size ≤ size && endsAtChunk rest (size - chunk.second.size))

/-- A read or a discard that takes place ends at the end of a chunk, and a seek
puts back only bytes that were read last and end at the track's position. -/
def EndsAtChunks (state : State) : Call → Prop
  | .tryRead _ _ => True
  | .decoderReadBuffer urlId bufSize =>
      let details := (state.calls.tracks urlId).details
      let maxBufSize := min (bufSize : Int) (details.streamLength - details.currentStreamPos)
      readReady details maxBufSize = true →
        endsAtChunk details.currentCacheBuf.dataBuffer.items maxBufSize = true
  | .updateDecDetailSeek urlId seekPoint =>
      let details := (state.calls.tracks urlId).details
      0 ≤ seekPoint ∧ seekPoint ≤ details.streamLength →
        (details.currentStreamPos ≤ seekPoint → endsAtChunk
          details.currentCacheBuf.dataBuffer.items (seekPoint - details.currentStreamPos) = true) ∧
        (details.currentCacheBuf.isDataEmpty = false →
          SeeksAfterRead state.calls (.updateDecDetailSeek urlId seekPoint))

instance (state : State) : (call : Call) → Decidable (EndsAtChunks state call)
  | .tryRead _ _ => isTrue trivial
  | .decoderReadBuffer _ _ => by unfold EndsAtChunks; infer_instance
  | .updateDecDetailSeek _ _ => by unfold EndsAtChunks; infer_instance

@[simp] theorem consecutive_length (urlId offset : Int) (count : Nat) :
    (consecutive urlId offset count).length = count := by
  induction count generalizing offset with
  | zero => rfl
  | succ count inductionHypothesis =>
    rw [consecutive, List.length_cons, inductionHypothesis]

/-- Consecutive origins are cut where the count is. -/
theorem consecutive_add (urlId offset : Int) (first second : Nat) :
    consecutive urlId offset (first + second) =
      consecutive urlId offset first ++ consecutive urlId (offset + first) second := by
  induction first generalizing offset with
  | zero => simp [consecutive]
  | succ first inductionHypothesis =>
    have further : offset + 1 + first = offset + (first + 1 : Nat) := by omega
    rw [Nat.succ_add, consecutive, inductionHypothesis, further]
    rfl

theorem consecutive_drop (urlId offset : Int) (first second : Nat) :
    (consecutive urlId offset (first + second)).drop first =
      consecutive urlId (offset + first) second := by
  rw [consecutive_add, List.drop_left' (consecutive_length urlId offset first)]

/-- Consecutive origins are cut into consecutive origins. -/
theorem consecutive_split {urlId offset : Int} {origins : List Origin} {count : Nat}
    (inOrder : origins = consecutive urlId offset origins.length)
    (within : count ≤ origins.length) :
    origins.take count = consecutive urlId offset count ∧
      origins.drop count =
        consecutive urlId (offset + count) (origins.drop count).length := by
  have split : origins.length = count + (origins.drop count).length := by
    rw [List.length_drop]
    omega
  have whole : origins = consecutive urlId offset count ++
      consecutive urlId (offset + count) (origins.drop count).length := by
    rw [← consecutive_add, ← split]
    exact inOrder
  have cut := consecutive_length urlId offset count
  constructor
  · conv_lhs => rw [whole]
    exact List.take_left' cut
  · conv_lhs => rw [whole]
    exact List.drop_left' cut

/-- The tags of chunks whose bytes lie one behind the other from an offset on. -/
def TagsFrom : List Chunk → Int → Prop
  | [], _ => True
  | chunk :: rest, offset =>
      (chunk.second.items ≠ [] → chunk.first = offset) ∧
        TagsFrom rest (offset + chunk.second.size)

/-- With consecutive origins the tags are right when they count up. -/
theorem tagged_consecutive (urlId : Int) (chunks : List Chunk) (offset : Int) :
    Tagged urlId chunks (consecutive urlId offset (queueBytes chunks).length) ↔
      TagsFrom chunks offset := by
  induction chunks generalizing offset with
  | nil => exact Iff.rfl
  | cons chunk rest inductionHypothesis =>
    rw [Tagged, TagsFrom, CacheBuffer.queueBytes_cons, List.length_append, CircularBuffer.size,
      consecutive_drop, inductionHypothesis]
    refine and_congr_left (fun _ => ?_)
    cases items : chunk.second.items with
    | nil => simp
    | cons byte bytes =>
      rw [List.length_cons, Nat.add_right_comm, consecutive]
      simp [eq_comm]

/-- Tags count up over two lists when they do over each, the second behind the first. -/
theorem tagsFrom_append (first second : List Chunk) (offset : Int) :
    TagsFrom (first ++ second) offset ↔
      TagsFrom first offset ∧ TagsFrom second (offset + (queueBytes first).length) := by
  induction first generalizing offset with
  | nil => simp [TagsFrom]
  | cons chunk rest inductionHypothesis =>
    have further : offset + chunk.second.size + (queueBytes rest).length =
        offset + (queueBytes (chunk :: rest)).length := by
      simp only [CacheBuffer.queueBytes_cons, List.length_append, CircularBuffer.size]
      omega
    rw [List.cons_append, TagsFrom, inductionHypothesis, TagsFrom, further, and_assoc]

/-- Empty chunks carry no tag. -/
theorem tagsFrom_vacant {chunks : List Chunk} (vacant : ∀ chunk ∈ chunks, Vacant chunk)
    (offset : Int) : TagsFrom chunks offset := by
  induction chunks generalizing offset with
  | nil => trivial
  | cons chunk rest inductionHypothesis =>
    obtain ⟨first, later⟩ := List.forall_mem_cons.mp vacant
    exact ⟨fun occupied => absurd first occupied, inductionHypothesis later _⟩

/-- An empty chunk, wherever it is, does not change which tags are right. -/
theorem tagsFrom_cons_vacant {chunk : Chunk} (vacant : Vacant chunk) (rest : List Chunk)
    (offset : Int) : TagsFrom (chunk :: rest) offset ↔ TagsFrom rest offset := by
  have none : (chunk.second.size : Int) = 0 := congrArg (fun items => (items.length : Int)) vacant
  rw [TagsFrom, none, Int.add_zero]
  exact and_iff_right (fun occupied => absurd vacant occupied)

theorem tagsFrom_append_vacant (chunks : List Chunk) {more : List Chunk}
    (vacant : ∀ chunk ∈ more, Vacant chunk) (offset : Int) :
    TagsFrom (chunks ++ more) offset ↔ TagsFrom chunks offset := by
  rw [tagsFrom_append]
  exact and_iff_left (tagsFrom_vacant vacant _)

/-- Nothing to take ends at a chunk. -/
theorem endsAtChunk_nonpos (chunks : List Chunk) {size : Int} (nothing : size ≤ 0) :
    endsAtChunk chunks size = true := by
  cases chunks with
  | nil => rfl
  | cons chunk rest => simp [endsAtChunk, nothing]

/-- Taking all of the first chunk goes on behind it. -/
theorem endsAtChunk_whole {chunk : Chunk} (rest : List Chunk) {size : Int}
    (whole : chunk.second.size ≤ size) :
    endsAtChunk (chunk :: rest) size = endsAtChunk rest (size - chunk.second.size) := by
  by_cases nothing : size ≤ 0
  · rw [endsAtChunk_nonpos _ nothing, endsAtChunk_nonpos _ (by omega)]
  · simp [endsAtChunk, nothing, whole]

/-- Taking part of the first chunk does not end at a chunk. -/
theorem endsAtChunk_part {chunk : Chunk} (rest : List Chunk) {size : Int} (positive : 0 < size)
    (part : size < chunk.second.size) : endsAtChunk (chunk :: rest) size = false := by
  simp [endsAtChunk, Int.not_le.mpr positive, Int.not_le.mpr part]

/-- A change of the front data chunk changes the tags as if the chunk stayed in
its place: when it is empty afterwards it goes behind all others. -/
theorem put_data_chunks {before held : CacheBuffer} {chunk : Chunk}
    (circulates : Circulates before .ready (Consumer.ready ())) (change : Chunk → Chunk)
    (found : before.getDataPtr = some (chunk, held)) :
    ∃ rest, before.dataBuffer.items = chunk :: rest ∧
      Circulates ((held.modifyData change).putDataPtr false) .ready (Consumer.ready ()) ∧
      ((change chunk).second.items = [] →
        ((held.modifyData change).putDataPtr false).dataBuffer.items = rest) ∧
      ((change chunk).second.items ≠ [] →
        ((held.modifyData change).putDataPtr false).dataBuffer.items = change chunk :: rest) ∧
      ∀ offset, TagsFrom (chunks ((held.modifyData change).putDataPtr false)) offset ↔
        TagsFrom (change chunk :: (rest ++ before.cacheBuffer.items)) offset := by
  obtain ⟨⟨rest, front⟩, cache, data⟩ := CacheBuffer.getDataPtr_some found
  obtain ⟨arrives, _⟩ := circulates.put_data_ptr change found front
    (fun forced : false = true => nomatch forced)
  have changed : (held.modifyData change).dataBuffer.items = change chunk :: rest := by
    rw [CacheBuffer.modifyData, data, BoundedQueue.modifyFront_cons front]
  have sameCache : (held.modifyData change).cacheBuffer = before.cacheBuffer := cache
  have room : (held.modifyData change).cacheBuffer.items.length <
      (held.modifyData change).cacheBuffer.capacity := by
    have total := circulates.total
    simp only [chunkCount, front, List.length_cons] at total
    rw [sameCache]
    omega
  obtain ⟨_, _, _, queues⟩ := CacheBuffer.putDataPtr_queues changed room false
  refine ⟨rest, front, arrives, fun vacant => CacheBuffer.putDataPtr_vacant changed vacant false,
    fun occupied => ?_, fun offset => ?_⟩
  · rcases queues with stays | ⟨emptied, _⟩
    · exact stays.2.1
    · exact absurd (emptied.resolve_left nofun) occupied
  rcases queues with stays | ⟨emptied, data, handed⟩
  · rw [chunks, stays.2.1, stays.2.2, sameCache, List.cons_append]
  · have vacant : Vacant (change chunk) := emptied.resolve_left nofun
    have cleared : ∀ other ∈ [(change chunk).clear], Vacant other :=
      List.forall_mem_singleton.mpr rfl
    rw [chunks, data, handed, sameCache, ← List.append_assoc, tagsFrom_append_vacant _ cleared,
      tagsFrom_cons_vacant vacant]

/-- Taking bytes off the front data chunk keeps right tags right when it takes
none or all, and makes the chunk's tag wrong when it takes some. -/
theorem erase_tags {before held : CacheBuffer} {chunk : Chunk} {offset : Int} {count : Nat}
    (circulates : Circulates before .ready (Consumer.ready ()))
    (tags : TagsFrom (chunks before) offset) (found : before.getDataPtr = some (chunk, held))
    (within : count ≤ chunk.second.size) :
    TagsFrom (chunks ((held.modifyData (·.eraseBegin count)).putDataPtr false)) (offset + count) ↔
      count = 0 ∨ count = chunk.second.size := by
  obtain ⟨rest, front, _, _, _, same⟩ := put_data_chunks circulates (·.eraseBegin count) found
  rw [chunks, front, List.cons_append, TagsFrom] at tags
  have size : (chunk.eraseBegin count).second.size = chunk.second.size - count :=
    List.length_drop
  have further : offset + count + (chunk.eraseBegin count).second.size =
      offset + chunk.second.size := by
    rw [size]
    omega
  rw [same, TagsFrom, further]
  constructor
  · rintro ⟨tag, _⟩
    by_contra partly
    rw [not_or] at partly
    have left : (chunk.eraseBegin count).second.items ≠ [] := by
      intro noBytes
      have nothing : (chunk.eraseBegin count).second.size = 0 := congrArg List.length noBytes
      omega
    have before : chunk.second.items ≠ [] := by
      intro noBytes
      have nothing : chunk.second.size = 0 := congrArg List.length noBytes
      omega
    have moved : chunk.first - count = offset + count := tag left
    have stood := tags.1 before
    omega
  · rintro (nothing | all)
    · refine ⟨fun occupied => ?_, tags.2⟩
      subst nothing
      have stood : chunk.first = offset := tags.1 occupied
      simp only [Chunk.eraseBegin, Int.natCast_zero, Int.sub_zero, Int.add_zero]
      exact stood
    · refine ⟨fun occupied => absurd ?_ occupied, tags.2⟩
      exact List.drop_eq_nil_of_le (Nat.le_of_eq all.symm)

/-- `write_into_raw_buffer` keeps right tags right exactly when it ends at a chunk. -/
theorem write_tags {fuel : Nat} {before after : CacheBuffer} {size offset : Int}
    {bytes : List UInt8} (circulates : Circulates before .ready (Consumer.ready ()))
    (tags : TagsFrom (chunks before) offset)
    (written : CacheBuffer.writeIntoRawBufferLoop fuel before size true = some (bytes, after)) :
    TagsFrom (chunks after) (offset + bytes.length) ↔
      endsAtChunk before.dataBuffer.items size = true := by
  induction fuel generalizing before size offset bytes with
  | zero => contradiction
  | succ fuel inductionHypothesis =>
    simp only [CacheBuffer.writeIntoRawBufferLoop] at written
    cases found : before.getDataPtr with
    | none =>
      simp only [found, Option.some.injEq, Prod.mk.injEq] at written
      obtain ⟨rfl, rfl⟩ := written
      have none : before.dataBuffer.items = [] := by
        simpa [CacheBuffer.getDataPtr, CacheBuffer.getGenPtr, BoundedQueue.front_eq_none_iff]
          using found
      rw [none, List.length_nil, Int.natCast_zero, Int.add_zero]
      exact iff_of_true tags rfl
    | some result =>
      obtain ⟨chunk, held⟩ := result
      simp only [found, if_true] at written
      obtain ⟨rest, front, arrives, remaining, _⟩ :=
        put_data_chunks circulates (·.eraseBegin (CacheBuffer.getCircBufEnough chunk size).2) found
      rw [front]
      by_cases enough : 0 ≤ size ∧ size < chunk.second.size
      · -- the chunk has more than what is left to copy, so the loop ends in it
        have count : CacheBuffer.getCircBufEnough chunk size = (true, size.toNat) := by
          rw [CacheBuffer.getCircBufEnough, if_pos enough]
        simp only [count, Bool.not_true, Bool.false_eq_true, false_and, if_false,
          Option.some.injEq, Prod.mk.injEq] at written
        obtain ⟨rfl, rfl⟩ := written
        have taken : (chunk.second.items.take size.toNat).length = size.toNat := by
          rw [List.length_take]
          exact Nat.min_eq_left (by rw [CircularBuffer.size] at enough; omega)
        have within : size.toNat ≤ chunk.second.size := by omega
        rw [taken, erase_tags circulates tags found within]
        by_cases none : size ≤ 0
        · exact iff_of_true (.inl (by omega)) (endsAtChunk_nonpos _ none)
        · rw [endsAtChunk_part rest (by omega) enough.2]
          exact iff_of_false (by omega) (by simp)
      · have count : CacheBuffer.getCircBufEnough chunk size = (false, chunk.second.size) := by
          rw [CacheBuffer.getCircBufEnough, if_neg enough]
        simp only [count] at written arrives remaining
        have emptied := remaining (List.drop_length)
        have kept := (erase_tags circulates tags found (Nat.le_refl _)).mpr (.inr rfl)
        have whole : (chunk.second.items.take chunk.second.size).length = chunk.second.size := by
          rw [CircularBuffer.size, List.take_length]
        split at written
        · rename_i goesOn
          rw [Option.map_eq_some_iff] at written
          obtain ⟨⟨following, finish⟩, recursive, ended⟩ := written
          obtain ⟨rfl, rfl⟩ := Prod.mk.inj ended
          have later := inductionHypothesis arrives kept recursive
          rw [emptied] at later
          rw [endsAtChunk_whole rest (by omega), ← later, List.length_append, whole,
            Int.natCast_add, Int.add_assoc]
        · rename_i ends
          obtain ⟨rfl, rfl⟩ := Prod.mk.inj (Option.some.inj written)
          rw [whole]
          refine iff_of_true kept ?_
          by_cases none : size ≤ 0
          · exact endsAtChunk_nonpos _ none
          · simp only [Bool.not_false, true_and] at ends
            rw [endsAtChunk_whole rest (by omega), endsAtChunk_nonpos rest (by omega)]

/-- `discard_data_upto` keeps right tags right exactly when it ends at a chunk. -/
theorem discard_tags {fuel : Nat} {before after : CacheBuffer} {seekPoint offset : Int}
    (circulates : Circulates before .ready (Consumer.ready ()))
    (tags : TagsFrom (chunks before) offset) (forward : 0 ≤ seekPoint)
    (discarded : CacheBuffer.discardDataUptoLoop fuel before seekPoint = some after) :
    TagsFrom (chunks after) (offset + seekPoint) ↔
      endsAtChunk before.dataBuffer.items seekPoint = true := by
  induction fuel generalizing before seekPoint offset with
  | zero => contradiction
  | succ fuel inductionHypothesis =>
    simp only [CacheBuffer.discardDataUptoLoop] at discarded
    split at discarded
    · rename_i nothing
      obtain rfl := Option.some.inj discarded
      obtain rfl : seekPoint = 0 := Int.le_antisymm nothing forward
      rw [Int.add_zero]
      exact iff_of_true tags (endsAtChunk_nonpos _ nothing)
    · rename_i bytesLeft
      cases found : before.getDataPtr with
      | none => simp [found] at discarded
      | some result =>
        obtain ⟨chunk, held⟩ := result
        obtain ⟨count, counted⟩ : ∃ count, count = min seekPoint.toNat chunk.second.size :=
          ⟨_, rfl⟩
        simp only [found, ← counted] at discarded
        obtain ⟨rest, front, arrives, remaining, _⟩ :=
          put_data_chunks circulates (·.eraseBegin count) found
        rw [front]
        by_cases part : seekPoint < chunk.second.size
        · -- the rest of the loop has nothing left to discard
          have all : (count : Int) = seekPoint := by omega
          have within : count ≤ chunk.second.size := by omega
          have erased := erase_tags circulates tags found within
          cases fuel with
          | zero => contradiction
          | succ fuel =>
            rw [CacheBuffer.discardDataUptoLoop, if_pos (by omega)] at discarded
            obtain rfl := Option.some.inj discarded
            rw [all] at erased
            rw [erased, endsAtChunk_part rest (by omega) part]
            exact iff_of_false (by omega) (by simp)
        · have whole : count = chunk.second.size := by omega
          have kept := (erase_tags circulates tags found (Nat.le_of_eq whole)).mpr (.inr whole)
          have emptied := remaining (whole ▸ List.drop_length)
          have later := inductionHypothesis arrives kept (by omega) discarded
          have further : offset + count + (seekPoint - count) = offset + seekPoint := by omega
          rw [emptied, further, whole] at later
          rw [endsAtChunk_whole rest (by omega), ← later]

/-- Bytes put back before the front data chunk, tagged with the offset where they
begin, keep right tags right. -/
theorem insert_tags {before held : CacheBuffer} {chunk : Chunk} {offset first : Int}
    {bytes : List UInt8} (circulates : Circulates before .ready (Consumer.ready ()))
    (tags : TagsFrom (chunks before) offset) (begins : first + bytes.length = offset)
    (found : before.getDataPtr = some (chunk, held)) :
    TagsFrom (chunks ((held.modifyData (·.insertBegin bytes first)).putDataPtr false)) first := by
  obtain ⟨rest, front, _, _, _, same⟩ :=
    put_data_chunks circulates (·.insertBegin bytes first) found
  rw [chunks, front, List.cons_append, TagsFrom] at tags
  have further : first + (chunk.insertBegin bytes first).second.size =
      offset + chunk.second.size := by
    simp only [CircularBuffer.size, CacheBuffer.insertBegin_items, List.length_append]
    omega
  rw [same, TagsFrom, further]
  exact ⟨fun _ => rfl, tags.2⟩

/-- A file read keeps right tags right when the file is where the bytes end. -/
theorem fill_tags {maxFileChunkSize : Nat} {details readDetails : FileDetails}
    {before after : CacheBuffer} {finished : Bool} {offset : Int}
    (circulates : Circulates before .ready (Consumer.ready ()))
    (tags : TagsFrom (chunks before) offset)
    (position : details.file.position = offset + (pending before .ready).length)
    (read : InputPluginFile.tryRead maxFileChunkSize details before =
      some (readDetails, after, finished)) : TagsFrom (chunks after) offset := by
  simp only [InputPluginFile.tryRead, Option.map_eq_some_iff, Prod.mk.injEq] at read
  obtain ⟨⟨filledDetails, filled, ended⟩, fills, rfl, rfl, rfl⟩ := read
  obtain ⟨chunk, rest, front, filledBy, data, _, _⟩ := InputPluginFile.tryReadFill_some fills
  obtain ⟨rfl, cache, rfl⟩ := by simpa only [Prod.mk.injEq] using filledBy
  obtain ⟨keeps, tagged⟩ := InputPluginFile.fillChunk_first maxFileChunkSize details chunk
  let full := (InputPluginFile.fillChunk maxFileChunkSize details chunk).2.1
  have filledItems : filled.cacheBuffer.items = full :: rest := by
    rw [cache, BoundedQueue.modifyFront_cons front]
  have waits : ∀ other ∈ rest, Vacant other := by
    have vacant := circulates.vacant
    simp only [waiting, front, List.tail_cons] at vacant
    exact vacant
  have room : filled.dataBuffer.items.length < filled.dataBuffer.capacity := by
    have total := circulates.total
    simp only [chunkCount, front, List.length_cons] at total
    rw [data, circulates.capacities]
    omega
  rw [chunks, front, ← List.singleton_append, ← List.append_assoc, tagsFrom_append_vacant _ waits,
    tagsFrom_append] at tags
  have placed : TagsFrom (before.dataBuffer.items ++ [full]) offset := by
    rw [tagsFrom_append]
    refine ⟨tags.1, fun occupied => ?_, trivial⟩
    by_cases vacant : chunk.second.items = []
    · have stored : (pending before .ready).length =
          (queueBytes before.dataBuffer.items).length := by
        simp [pending, CacheBuffer.dataBytes, CacheBuffer.frontBytes, producerHeld, front, vacant]
      rw [← stored, ← position]
      exact tagged vacant occupied
    · exact (keeps vacant).trans (tags.2.1 vacant)
  obtain ⟨_, _, _, queues⟩ := CacheBuffer.putCachePtr_queues filledItems room
    (InputPluginFile.fillChunk maxFileChunkSize details chunk).2.2
  rcases queues with ⟨same, items⟩ | ⟨same, items⟩ | ⟨vacant, same, items⟩
  · rw [chunks, same, items, data, ← List.singleton_append, ← List.append_assoc,
      tagsFrom_append_vacant _ waits]
    exact placed
  · rw [chunks, same, items, data, tagsFrom_append_vacant _ waits]
    exact placed
  · rw [chunks, same, items, data, tagsFrom_append_vacant _ waits]
    exact (tagsFrom_append_vacant _ (List.forall_mem_singleton.mpr vacant) offset).mp placed

/-- The byte of the files that an origin names. -/
def byteAt (content : Int → List UInt8) (origin : Origin) : Option UInt8 :=
  (content origin.1)[origin.2.toNat]?

/-- The buffered bytes and those of the last read are where they come from. -/
structure Traced (content : Int → List UInt8) (state : State) : Prop where
  file : ∀ urlId, (state.calls.tracks urlId).file.file.content = content urlId
  stored : ∀ urlId, ∃ bytes, Holds (state.calls.tracks urlId).details.currentCacheBuf bytes ∧
    (state.origins urlId).map (byteAt content) = bytes.map some
  copy : state.lastReadOrigins.map (byteAt content) = state.calls.lastReadBuffer.map some

/-- The bytes read at a position of a file have the origins from there on. -/
theorem consecutive_bytes {content : Int → List UInt8} {urlId : Int} {bytes : List UInt8}
    {position : Nat}
    (read : bytes ++ (content urlId).drop (position + bytes.length) =
      (content urlId).drop position) :
    (consecutive urlId position bytes.length).map (byteAt content) = bytes.map some := by
  induction bytes generalizing position with
  | nil => rfl
  | cons byte rest inductionHypothesis =>
    have first : (content urlId)[position]? = some byte := by
      rw [← List.head?_drop, ← read]
      rfl
    have later : rest ++ (content urlId).drop (position + 1 + rest.length) =
        (content urlId).drop (position + 1) := by
      have behind := congrArg List.tail read
      rw [List.tail_drop, List.length_cons, ← Nat.add_assoc, Nat.add_right_comm] at behind
      exact behind
    have step : (position : Int) + 1 = (position + 1 : Nat) := rfl
    rw [List.length_cons, consecutive, List.map_cons, step, inductionHypothesis later,
      List.map_cons, byteAt, Int.toNat_natCast, first]

/-- A track may be replaced by one of the same file whose bytes are where its
origins say. -/
theorem Traced.replace {content : Int → List UInt8} {state next : State} {urlId : Int}
    {track : BufferedSeek.Track} {origins : List Origin} {bytes : List UInt8}
    (traced : Traced content state)
    (tracks : next.calls.tracks = Function.update state.calls.tracks urlId track)
    (sources : next.origins = Function.update state.origins urlId origins)
    (file : track.file.file.content = content urlId)
    (holds : Holds track.details.currentCacheBuf bytes)
    (stored : origins.map (byteAt content) = bytes.map some)
    (copy : next.lastReadOrigins.map (byteAt content) = next.calls.lastReadBuffer.map some) :
    Traced content next := by
  refine ⟨fun other => ?_, fun other => ?_, copy⟩
  · rw [tracks]
    by_cases same : other = urlId
    · subst same
      simpa using file
    · simpa [same] using traced.file other
  · rw [tracks, sources]
    by_cases same : other = urlId
    · subst same
      simpa using ⟨bytes, holds, stored⟩
    · simpa [same] using traced.stored other

@[simp] theorem setTrack_self (calls : BufferedSeek.State) (urlId : Int)
    (track : BufferedSeek.Track) :
    (BufferedSeek.setTrack calls urlId track).tracks urlId = track :=
  Function.update_self ..

/-- A seek that is refused moves no origin. -/
theorem follow_refused (state : State) (urlId seekPoint : Int) :
    follow state (.updateDecDetailSeek urlId seekPoint) state.calls = state := by
  simp [follow]

/-- What a call does to a track and its origins. The new state is the old one with
another track, whose origins have been appended to, taken or discarded from the
front, or put back before the others. -/
inductive Effect (state : State) : Call → State → Prop where
  | filled (urlId : Int) (maxFileChunkSize : Nat) (file : FileDetails) (buffer : CacheBuffer)
      (finished : Bool) (live : (state.calls.tracks urlId).finished = false)
      (read : InputPluginFile.tryRead maxFileChunkSize (state.calls.tracks urlId).file
        (state.calls.tracks urlId).details.currentCacheBuf = some (file, buffer, finished)) :
      Effect state (.tryRead urlId maxFileChunkSize)
        { state with
          calls := BufferedSeek.setTrack state.calls urlId
            { details := { (state.calls.tracks urlId).details with currentCacheBuf := buffer }
              file := file
              finished := finished }
          origins := Function.update state.origins urlId (state.origins urlId ++
            consecutive urlId (state.calls.tracks urlId).file.file.position
              (file.file.position - (state.calls.tracks urlId).file.file.position)) }
  | read (urlId : Int) (bufSize : Nat) (bytes : Option (List UInt8)) (details : DecoderDetails)
      (taken : decoderReadBuffer (state.calls.tracks urlId).details bufSize =
        some (bytes, details)) :
      Effect state (.decoderReadBuffer urlId bufSize)
        { calls :=
            { BufferedSeek.setTrack state.calls urlId
                { state.calls.tracks urlId with details := details } with
              lastReadBuffer := bytes.getD []
              lastRead := some (urlId, details.currentStreamPos) }
          origins := Function.update state.origins urlId
            ((state.origins urlId).drop (bytes.getD []).length)
          lastReadOrigins := (state.origins urlId).take (bytes.getD []).length }
  | refused (urlId seekPoint : Int)
      (refusal : updateDecDetailSeek (state.calls.tracks urlId).details
        state.calls.lastReadBuffer seekPoint = some .refused) :
      Effect state (.updateDecDetailSeek urlId seekPoint) state
  | reached (urlId seekPoint : Int) (details : DecoderDetails)
      (served : updateDecDetailSeek (state.calls.tracks urlId).details state.calls.lastReadBuffer
        seekPoint = some (.reached details)) :
      Effect state (.updateDecDetailSeek urlId seekPoint)
        { state with
          calls := BufferedSeek.setTrack state.calls urlId
            { state.calls.tracks urlId with details := details }
          origins := Function.update state.origins urlId
            (state.lastReadOrigins.drop (state.lastReadOrigins.length -
                ((state.calls.tracks urlId).details.currentStreamPos -
                  details.currentStreamPos).toNat) ++
              (state.origins urlId).drop (details.currentStreamPos -
                (state.calls.tracks urlId).details.currentStreamPos).toNat) }

/-- Every call has one of these effects. -/
theorem step_effect {state next : State} {call : Call} (taken : step state call = some next) :
    Effect state call next := by
  obtain ⟨after, called, rfl⟩ := Option.map_eq_some_iff.mp taken
  cases call with
  | tryRead urlId maxFileChunkSize =>
    simp only [BufferedSeek.step] at called
    split at called
    · contradiction
    · rename_i live
      rw [Option.map_eq_some_iff] at called
      obtain ⟨⟨file, buffer, finished⟩, read, rfl⟩ := called
      simp only [follow, setTrack_self]
      exact .filled urlId maxFileChunkSize file buffer finished (Bool.eq_false_iff.mpr live) read
  | decoderReadBuffer urlId bufSize =>
    simp only [BufferedSeek.step, Option.map_eq_some_iff] at called
    obtain ⟨⟨bytes, details⟩, read, rfl⟩ := called
    exact .read urlId bufSize bytes details read
  | updateDecDetailSeek urlId seekPoint =>
    simp only [BufferedSeek.step] at called
    split at called
    · rename_i refusal
      obtain rfl := Option.some.inj called
      rw [follow_refused]
      exact .refused urlId seekPoint refusal
    · rename_i details reached
      obtain rfl := Option.some.inj called
      simp only [follow, setTrack_self]
      exact .reached urlId seekPoint details reached
    · contradiction

/-- Bytes and their origins are cut at the same place. -/
theorem origins_split {content : Int → List UInt8} {origins : List Origin}
    {first second : List UInt8} {count : Nat} (length : first.length = count)
    (stored : origins.map (byteAt content) = (first ++ second).map some) :
    (origins.take count).map (byteAt content) = first.map some ∧
      (origins.drop count).map (byteAt content) = second.map some := by
  have cut : (first.map some).length = count := (List.length_map some).trans length
  rw [List.map_take, List.map_drop, stored, List.map_append, List.take_left' cut,
    List.drop_left' cut]
  exact ⟨rfl, rfl⟩

/-- Every call keeps the origins of the bytes. -/
theorem step_traced {content : Int → List UInt8} {state next : State} {call : Call}
    (traced : Traced content state) (taken : step state call = some next) :
    Traced content next := by
  cases step_effect taken with
  | filled urlId maxFileChunkSize file buffer finished live read =>
    obtain ⟨bytes, holds, stored⟩ := traced.stored urlId
    obtain ⟨more, after, sameFile, moves, fills⟩ := holds.tryRead read
    have count : file.file.position - (state.calls.tracks urlId).file.file.position =
        more.length := by omega
    rw [traced.file urlId, moves] at fills
    refine traced.replace rfl rfl (sameFile.trans (traced.file urlId)) after ?_ traced.copy
    rw [List.map_append, stored, count, consecutive_bytes fills, ← List.map_append]
  | read urlId bufSize bytes details read =>
    obtain ⟨content, holds, stored⟩ := traced.stored urlId
    obtain ⟨copied, rest, _, rfl, written, rfl⟩ | ⟨_, rfl, rfl⟩ := decoderReadBuffer_cases read
    · obtain ⟨later, rfl, after⟩ := holds.write written
      obtain ⟨taken, kept⟩ := origins_split rfl stored
      exact traced.replace rfl rfl (traced.file urlId) after kept taken
    · exact traced.replace rfl rfl (traced.file urlId) holds stored rfl
  | refused urlId seekPoint refusal => exact traced
  | reached urlId seekPoint details served =>
    obtain ⟨bytes, holds, stored⟩ := traced.stored urlId
    obtain ⟨_, lands, discards | puts⟩ := updateDecDetailSeek_reached served
    · obtain ⟨forward, discarded⟩ := discards
      obtain ⟨gone, split, length, after⟩ := holds.discard_loop discarded
      rw [split] at stored
      have kept := (origins_split length stored).2
      have still : ((state.calls.tracks urlId).details.currentStreamPos - seekPoint).toNat = 0 := by
        omega
      refine traced.replace rfl rfl (traced.file urlId) after ?_ traced.copy
      rw [lands, still, Nat.sub_zero, List.drop_length, List.nil_append]
      exact kept
    · obtain ⟨backward, enough, chunk, held, found, put⟩ := puts
      have sameLength : state.lastReadOrigins.length = state.calls.lastReadBuffer.length := by
        simpa using congrArg List.length traced.copy
      have still : (seekPoint - (state.calls.tracks urlId).details.currentStreamPos).toNat = 0 := by
        omega
      obtain ⟨later, split, after⟩ := holds.change_data (·.insertBegin _ seekPoint) found
      rw [CacheBuffer.insertBegin_items, List.append_assoc, ← split, ← put] at after
      refine traced.replace rfl rfl (traced.file urlId) after ?_ traced.copy
      rw [lands, still, List.drop_zero, List.map_append, stored, List.map_append, List.map_drop,
        traced.copy, sameLength, List.map_drop]

/-- The stored bytes of a resting buffer are those of its chunks. -/
theorem chunks_length {buffer : CacheBuffer} {bytes : List UInt8} (holds : Holds buffer bytes) :
    (queueBytes (chunks buffer)).length = bytes.length := by
  have waits : queueBytes buffer.cacheBuffer.items.tail = [] :=
    CacheBuffer.queueBytes_of_empty holds.circulates.vacant
  have split : buffer.cacheBuffer.items =
      buffer.cacheBuffer.items.take 1 ++ buffer.cacheBuffer.items.tail := by
    rw [← List.drop_one, List.take_append_drop]
  rw [← holds.bytes, chunks, split, CacheBuffer.queueBytes_append, CacheBuffer.queueBytes_append,
    waits, List.append_nil]
  simp [pending, producerHeld, CacheBuffer.dataBytes, CacheBuffer.frontBytes]

/-- The bytes of a track's buffer follow each other in its file from its position
on, the tags say so, and an unfinished file is where they end. -/
structure Placed (urlId : Int) (track : BufferedSeek.Track) (origins : List Origin) : Prop where
  inOrder : origins = consecutive urlId track.details.currentStreamPos origins.length
  tags : TagsFrom (chunks track.details.currentCacheBuf) track.details.currentStreamPos
  position : track.finished = false →
    (track.file.file.position : Int) = track.details.currentStreamPos + origins.length

/-- The invariant of runs whose tags stay right. -/
structure Invariant (content : Int → List UInt8) (state : State) : Prop where
  traced : Traced content state
  placed : ∀ urlId, Placed urlId (state.calls.tracks urlId) (state.origins urlId)
  copy : ∀ urlId position, state.calls.lastRead = some (urlId, position) →
    state.lastReadOrigins = consecutive urlId (position - state.lastReadOrigins.length)
      state.lastReadOrigins.length
  unread : state.calls.lastRead = none → state.calls.lastReadBuffer = []

/-- The tags of a track whose bytes follow each other are right when they count up. -/
theorem tagged_iff {content : Int → List UInt8} {state : State} {urlId offset : Int}
    (traced : Traced content state)
    (inOrder : state.origins urlId = consecutive urlId offset (state.origins urlId).length) :
    Tagged urlId (chunks (state.calls.tracks urlId).details.currentCacheBuf)
        (state.origins urlId) ↔
      TagsFrom (chunks (state.calls.tracks urlId).details.currentCacheBuf) offset := by
  obtain ⟨bytes, holds, stored⟩ := traced.stored urlId
  have length : (state.origins urlId).length = bytes.length := by
    simpa using congrArg List.length stored
  rw [inOrder, length, ← chunks_length holds, tagged_consecutive]

/-- The invariant makes the tags right. -/
theorem Invariant.tagsRight {content : Int → List UInt8} {state : State}
    (invariant : Invariant content state) : TagsRight state := by
  intro urlId
  have placed := invariant.placed urlId
  exact (tagged_iff invariant.traced placed.inOrder).mpr placed.tags

/-- Where one track is replaced, the others stay placed. -/
theorem placed_replace {state next : State} {urlId : Int} {track : BufferedSeek.Track}
    {origins : List Origin}
    (placed : ∀ other, Placed other (state.calls.tracks other) (state.origins other))
    (tracks : next.calls.tracks = Function.update state.calls.tracks urlId track)
    (sources : next.origins = Function.update state.origins urlId origins)
    (arrives : Placed urlId track origins) (other : Int) :
    Placed other (next.calls.tracks other) (next.origins other) := by
  rw [tracks, sources]
  by_cases same : other = urlId
  · subst same
    simpa using arrives
  · simpa [same] using placed other

/-- A call that replaces one track, which stays placed, and leaves the copy alone keeps
the invariant. -/
theorem Invariant.of_track {content : Int → List UInt8} {state next : State} {urlId : Int}
    {track : BufferedSeek.Track} {origins : List Origin} (invariant : Invariant content state)
    (tracedNext : Traced content next)
    (calls : next.calls = BufferedSeek.setTrack state.calls urlId track)
    (sources : next.origins = Function.update state.origins urlId origins)
    (copy : next.lastReadOrigins = state.lastReadOrigins)
    (arrives : Placed urlId track origins) : Invariant content next where
  traced := tracedNext
  placed := placed_replace invariant.placed (by rw [calls]; rfl) sources arrives
  copy := by
    rw [calls, copy]
    exact invariant.copy
  unread := by
    rw [calls]
    exact invariant.unread

/-- Right tags of a track whose bytes follow each other count up from their first. -/
theorem TagsRight.tagsFrom {content : Int → List UInt8} {next : State} {urlId offset : Int}
    {track : BufferedSeek.Track} {origins : List Origin} (right : TagsRight next)
    (traced : Traced content next) (tracks : next.calls.tracks urlId = track)
    (sources : next.origins urlId = origins)
    (inOrder : origins = consecutive urlId offset origins.length) :
    TagsFrom (chunks track.details.currentCacheBuf) offset := by
  subst tracks sources
  exact (tagged_iff traced inOrder).mp (right urlId)

/-- A file read keeps the invariant. -/
theorem filled_invariant {content : Int → List UInt8} {state next : State} {urlId : Int}
    {maxFileChunkSize : Nat} {file : FileDetails} {buffer : CacheBuffer} {finished : Bool}
    (invariant : Invariant content state) (tracedNext : Traced content next)
    (live : (state.calls.tracks urlId).finished = false)
    (read : InputPluginFile.tryRead maxFileChunkSize (state.calls.tracks urlId).file
      (state.calls.tracks urlId).details.currentCacheBuf = some (file, buffer, finished))
    (calls : next.calls = BufferedSeek.setTrack state.calls urlId
      { details := { (state.calls.tracks urlId).details with currentCacheBuf := buffer }
        file := file
        finished := finished })
    (sources : next.origins = Function.update state.origins urlId (state.origins urlId ++
      consecutive urlId (state.calls.tracks urlId).file.file.position
        (file.file.position - (state.calls.tracks urlId).file.file.position)))
    (copy : next.lastReadOrigins = state.lastReadOrigins) : Invariant content next := by
  obtain ⟨bytes, holds, stored⟩ := invariant.traced.stored urlId
  obtain ⟨inOrder, tags, position⟩ := invariant.placed urlId
  obtain ⟨more, _, _, moves, _⟩ := holds.tryRead read
  have length : (state.origins urlId).length = bytes.length := by
    simpa using congrArg List.length stored
  have stands := position live
  have filled := fill_tags holds.circulates tags (by rw [stands, length, holds.bytes]) read
  refine invariant.of_track tracedNext calls sources copy ⟨?_, filled, ?_⟩
  · rw [List.length_append, consecutive_length, consecutive_add, ← inOrder, stands]
  · intro _
    simp only [List.length_append, consecutive_length]
    omega

/-- A decoder read keeps the invariant when it ends at a chunk, and otherwise makes
the tags wrong. -/
theorem read_exact {content : Int → List UInt8} {state next : State} {urlId : Int} {bufSize : Nat}
    {bytes : Option (List UInt8)} {details : DecoderDetails}
    (invariant : Invariant content state) (tracedNext : Traced content next)
    (taken : decoderReadBuffer (state.calls.tracks urlId).details bufSize = some (bytes, details))
    (tracks : next.calls.tracks = Function.update state.calls.tracks urlId
      { state.calls.tracks urlId with details := details })
    (lastRead : next.calls.lastRead = some (urlId, details.currentStreamPos))
    (sources : next.origins = Function.update state.origins urlId
      ((state.origins urlId).drop (bytes.getD []).length))
    (copy : next.lastReadOrigins = (state.origins urlId).take (bytes.getD []).length) :
    (EndsAtChunks state (.decoderReadBuffer urlId bufSize) → Invariant content next) ∧
      (TagsRight next → EndsAtChunks state (.decoderReadBuffer urlId bufSize)) := by
  obtain ⟨traced, placed, _, _⟩ := invariant
  obtain ⟨stored, holds, places⟩ := traced.stored urlId
  obtain ⟨inOrder, tags, position⟩ := placed urlId
  have length : (state.origins urlId).length = stored.length := by
    simpa using congrArg List.length places
  obtain ⟨copied, rest, ready, rfl, written, rfl⟩ | ⟨waits, rfl, rfl⟩ :=
    decoderReadBuffer_cases taken
  · obtain ⟨later, split, _⟩ := holds.write written
    have within : copied.length ≤ (state.origins urlId).length := by
      rw [length, split, List.length_append]
      omega
    obtain ⟨taken, left⟩ := consecutive_split inOrder within
    have exact := write_tags holds.circulates tags written
    constructor
    · intro ends
      refine ⟨tracedNext, placed_replace placed tracks sources ⟨left, exact.mpr (ends ready), ?_⟩,
        ?_, ?_⟩
      · intro live
        have stands := position live
        simp only [Option.getD_some, List.length_drop]
        omega
      · intro other position read
        rw [lastRead, Option.some.injEq, Prod.mk.injEq] at read
        obtain ⟨rfl, rfl⟩ := read
        rw [copy, Option.getD_some, taken, consecutive_length, Int.add_sub_cancel]
      · rw [lastRead]
        nofun
    · intro right _
      have track := congrFun tracks urlId
      have origins := congrFun sources urlId
      rw [Function.update_self] at track origins
      exact exact.mp (right.tagsFrom tracedNext track origins left)
  · constructor
    · intro _
      refine ⟨tracedNext, placed_replace placed tracks sources ⟨inOrder, tags, position⟩, ?_, ?_⟩
      · intro other position read
        rw [copy]
        rfl
      · rw [lastRead]
        nofun
    · intro _ ready
      rw [waits] at ready
      contradiction

/-- A discard keeps the invariant when it ends at a chunk, and otherwise makes the
tags wrong. -/
theorem discard_exact {content : Int → List UInt8} {state next : State} {urlId seekPoint : Int}
    {rest : CacheBuffer} (invariant : Invariant content state) (tracedNext : Traced content next)
    (forward : (state.calls.tracks urlId).details.currentStreamPos ≤ seekPoint)
    (discarded : (state.calls.tracks urlId).details.currentCacheBuf.discardDataUpto
      (seekPoint - (state.calls.tracks urlId).details.currentStreamPos) = some rest)
    (calls : next.calls = BufferedSeek.setTrack state.calls urlId { state.calls.tracks urlId with
      details := { (state.calls.tracks urlId).details with
        currentCacheBuf := rest
        currentStreamPos := seekPoint } })
    (sources : next.origins = Function.update state.origins urlId ((state.origins urlId).drop
      (seekPoint - (state.calls.tracks urlId).details.currentStreamPos).toNat))
    (copy : next.lastReadOrigins = state.lastReadOrigins) :
    (endsAtChunk (state.calls.tracks urlId).details.currentCacheBuf.dataBuffer.items
        (seekPoint - (state.calls.tracks urlId).details.currentStreamPos) = true →
      Invariant content next) ∧
      (TagsRight next →
        endsAtChunk (state.calls.tracks urlId).details.currentCacheBuf.dataBuffer.items
          (seekPoint - (state.calls.tracks urlId).details.currentStreamPos) = true) := by
  obtain ⟨stored, holds, places⟩ := invariant.traced.stored urlId
  obtain ⟨inOrder, tags, position⟩ := invariant.placed urlId
  obtain ⟨gone, split, taken, _⟩ := holds.discard_loop discarded
  have within : (seekPoint - (state.calls.tracks urlId).details.currentStreamPos).toNat ≤
      (state.origins urlId).length := by
    have length : (state.origins urlId).length = stored.length := by
      simpa using congrArg List.length places
    rw [length, split, List.length_append]
    omega
  obtain ⟨_, left⟩ := consecutive_split inOrder within
  have lands : (state.calls.tracks urlId).details.currentStreamPos +
      (seekPoint - (state.calls.tracks urlId).details.currentStreamPos).toNat = seekPoint := by
    omega
  rw [lands] at left
  have reaches : (state.calls.tracks urlId).details.currentStreamPos +
      (seekPoint - (state.calls.tracks urlId).details.currentStreamPos) = seekPoint := by omega
  have exact := discard_tags holds.circulates tags (by omega) discarded
  rw [reaches] at exact
  constructor
  · intro atChunk
    refine invariant.of_track tracedNext calls sources copy ⟨left, exact.mpr atChunk, ?_⟩
    intro live
    have stands := position live
    simp only [List.length_drop]
    omega
  · intro right
    have origins := congrFun sources urlId
    rw [Function.update_self] at origins
    exact exact.mp (right.tagsFrom tracedNext (by rw [calls, setTrack_self]) origins left)

/-- The last bytes of a read that ended at a position follow each other up to it. -/
theorem Invariant.copy_suffix {content : Int → List UInt8} {state : State} {urlId position : Int}
    {need : Nat} (invariant : Invariant content state)
    (read : state.calls.lastRead = some (urlId, position))
    (enough : need ≤ state.lastReadOrigins.length) :
    state.lastReadOrigins.drop (state.lastReadOrigins.length - need) =
      consecutive urlId (position - need) need := by
  have within : state.lastReadOrigins.length - need ≤ state.lastReadOrigins.length := by omega
  obtain ⟨_, left⟩ := consecutive_split (invariant.copy urlId position read) within
  have begins : position - state.lastReadOrigins.length +
      (state.lastReadOrigins.length - need : Nat) = position - need := by omega
  have count : (state.lastReadOrigins.drop (state.lastReadOrigins.length - need)).length =
      need := by
    rw [List.length_drop]
    omega
  rw [begins, count] at left
  exact left

/-- A number of bytes at the end of the copy is put back before the front chunk. -/
structure PutBack (state next : State) (urlId seekPoint : Int) (need : Nat) (chunk : Chunk)
    (held : CacheBuffer) : Prop where
  lands : (state.calls.tracks urlId).details.currentStreamPos - need = seekPoint
  positive : 0 < need
  enough : need < state.calls.lastReadBuffer.length
  found : (state.calls.tracks urlId).details.currentCacheBuf.getDataPtr = some (chunk, held)
  calls : next.calls = BufferedSeek.setTrack state.calls urlId { state.calls.tracks urlId with
    details := { (state.calls.tracks urlId).details with
      currentCacheBuf := (held.modifyData (·.insertBegin (state.calls.lastReadBuffer.drop
        (state.calls.lastReadBuffer.length - need)) seekPoint)).putDataPtr false
      currentStreamPos := seekPoint } }
  sources : next.origins = Function.update state.origins urlId
    (state.lastReadOrigins.drop (state.lastReadOrigins.length - need) ++ state.origins urlId)
  copy : next.lastReadOrigins = state.lastReadOrigins

section PutBack

variable {content : Int → List UInt8} {state next : State} {urlId seekPoint : Int} {need : Nat}
  {chunk : Chunk} {held : CacheBuffer}

/-- The bytes put back are in the copy of the last read. -/
theorem PutBack.within (put : PutBack state next urlId seekPoint need chunk held)
    (invariant : Invariant content state) : need ≤ state.lastReadOrigins.length := by
  have sameLength : state.lastReadOrigins.length = state.calls.lastReadBuffer.length := by
    simpa using congrArg List.length invariant.traced.copy
  have enough := put.enough
  omega

/-- Bytes that are put back keep the invariant when they end at the position of
their track. -/
theorem PutBack.invariant (put : PutBack state next urlId seekPoint need chunk held)
    (invariant : Invariant content state) (tracedNext : Traced content next)
    (fresh : state.calls.lastRead =
      some (urlId, (state.calls.tracks urlId).details.currentStreamPos)) :
    Invariant content next := by
  have within := put.within invariant
  obtain ⟨lands, positive, enough, found, calls, sources, copy⟩ := put
  obtain ⟨stored, holds, places⟩ := invariant.traced.stored urlId
  obtain ⟨inOrder, tags, position⟩ := invariant.placed urlId
  have back := invariant.copy_suffix fresh within
  rw [lands] at back
  have joined : consecutive urlId seekPoint need ++ state.origins urlId =
      consecutive urlId seekPoint (need + (state.origins urlId).length) := by
    have further : seekPoint + need = (state.calls.tracks urlId).details.currentStreamPos := by
      omega
    rw [consecutive_add, further, ← inOrder]
  rw [back, joined] at sources
  have begins : seekPoint + (state.calls.lastReadBuffer.drop
      (state.calls.lastReadBuffer.length - need)).length =
        (state.calls.tracks urlId).details.currentStreamPos := by
    rw [List.length_drop]
    omega
  refine invariant.of_track tracedNext calls sources copy ⟨?_, ?_, ?_⟩
  · rw [consecutive_length]
  · exact insert_tags holds.circulates tags begins found
  · intro live
    have stands := position live
    simp only [consecutive_length]
    omega

/-- Bytes from elsewhere make the tag of their chunk wrong. -/
theorem PutBack.fresh (put : PutBack state next urlId seekPoint need chunk held)
    (invariant : Invariant content state) (right : TagsRight next) :
    state.calls.lastRead =
      some (urlId, (state.calls.tracks urlId).details.currentStreamPos) := by
  have within := put.within invariant
  obtain ⟨lands, positive, enough, found, calls, sources, copy⟩ := put
  obtain ⟨stored, holds, places⟩ := invariant.traced.stored urlId
  have here := right urlId
  obtain ⟨rest, _, _, _, stays, _⟩ := put_data_chunks holds.circulates
    (·.insertBegin (state.calls.lastReadBuffer.drop
      (state.calls.lastReadBuffer.length - need)) seekPoint) found
  have occupied : (chunk.insertBegin (state.calls.lastReadBuffer.drop
      (state.calls.lastReadBuffer.length - need)) seekPoint).second.items ≠ [] := by
    rw [CacheBuffer.insertBegin_items]
    apply List.append_ne_nil_of_left_ne_nil
    apply List.ne_nil_of_length_pos
    rw [List.length_drop]
    omega
  rw [calls, setTrack_self, chunks, stays occupied, List.cons_append, Tagged, sources,
    Function.update_self] at here
  have first := here.1 occupied
  cases read : state.calls.lastRead with
  | none =>
    rw [invariant.unread read, List.length_nil] at enough
    omega
  | some last =>
    obtain ⟨other, offset⟩ := last
    have successor : need = need - 1 + 1 := by omega
    rw [invariant.copy_suffix read within, successor, consecutive] at first
    simp only [List.cons_append, List.head?_cons, Option.some.injEq, Prod.mk.injEq] at first
    obtain ⟨rfl, begins⟩ := first
    have tag : offset - (need - 1 + 1 : Nat) = seekPoint := begins
    have ended : offset = (state.calls.tracks other).details.currentStreamPos := by omega
    rw [ended]

/-- Bytes that are put back keep the invariant when they end at the position of
their track; bytes from elsewhere make the tag of their chunk wrong. -/
theorem put_back_exact (need : Nat) (invariant : Invariant content state)
    (tracedNext : Traced content next)
    (put : PutBack state next urlId seekPoint need chunk held) :
    (state.calls.lastRead = some (urlId, (state.calls.tracks urlId).details.currentStreamPos) →
      Invariant content next) ∧
      (TagsRight next → state.calls.lastRead =
        some (urlId, (state.calls.tracks urlId).details.currentStreamPos)) :=
  ⟨put.invariant invariant tracedNext, put.fresh invariant⟩

end PutBack

/-- From the invariant, a call that meets the condition keeps it, and a call that
leaves the tags right has met the condition. -/
theorem step_exact {content : Int → List UInt8} {state next : State} {call : Call}
    (invariant : Invariant content state) (taken : step state call = some next) :
    (EndsAtChunks state call → Invariant content next) ∧
      (TagsRight next → EndsAtChunks state call) := by
  have tracedNext := step_traced invariant.traced taken
  cases step_effect taken with
  | filled urlId maxFileChunkSize file buffer finished live read =>
    exact ⟨fun _ => filled_invariant invariant tracedNext live read rfl rfl rfl, fun _ => trivial⟩
  | read urlId bufSize bytes details read =>
    exact read_exact invariant tracedNext read rfl rfl rfl rfl
  | refused urlId seekPoint refusal =>
    refine ⟨fun _ => invariant, fun _ range => ?_⟩
    obtain ⟨backward, noChunk⟩ := updateDecDetailSeek_refused range refusal
    refine ⟨fun forward => absurd forward (Int.not_le.mpr backward), fun chunks => ?_⟩
    rw [noChunk] at chunks
    contradiction
  | reached urlId seekPoint details served =>
    obtain ⟨range, lands, discards | puts⟩ := updateDecDetailSeek_reached served
    · obtain ⟨forward, discarded⟩ := discards
      have still : ((state.calls.tracks urlId).details.currentStreamPos -
          details.currentStreamPos).toNat = 0 := by
        rw [lands]
        simp only
        omega
      have exact := discard_exact invariant tracedNext forward discarded (by rw [← lands])
        (by rw [still, Nat.sub_zero, List.drop_length, List.nil_append, lands]) rfl
      constructor
      · intro ends
        exact exact.1 ((ends range).1 forward)
      · intro right _
        exact ⟨fun _ => exact.2 right, fun _ backward => absurd forward (Int.not_le.mpr backward)⟩
    · obtain ⟨backward, enough, chunk, held, found, put⟩ := puts
      have still : (details.currentStreamPos -
          (state.calls.tracks urlId).details.currentStreamPos).toNat = 0 := by
        rw [lands]
        simp only
        omega
      have bounded := BufferedSeek.bmod_le_length state.calls.lastReadBuffer.length
      obtain ⟨need, needs⟩ : ∃ need, need =
          ((state.calls.tracks urlId).details.currentStreamPos - seekPoint).toNat := ⟨_, rfl⟩
      have returns : (state.calls.tracks urlId).details.currentStreamPos - need = seekPoint := by
        omega
      have positive : 0 < need := by omega
      have within : need < state.calls.lastReadBuffer.length := by omega
      rw [← needs] at put
      have exact := put_back_exact need invariant tracedNext ⟨returns, positive, within, found,
        by rw [← put, ← lands], by rw [needs, still, List.drop_zero, lands], rfl⟩
      have some : (state.calls.tracks urlId).details.currentCacheBuf.isDataEmpty = false := by
        obtain ⟨⟨rest, front⟩, _⟩ := CacheBuffer.getDataPtr_some found
        simp [CacheBuffer.isDataEmpty, BoundedQueue.isEmpty, front]
      constructor
      · intro ends
        exact exact.1 ((ends range).2 some backward enough)
      · intro right _
        exact ⟨fun forward => absurd forward (Int.not_le.mpr backward),
          fun _ _ _ => exact.2 right⟩

/-- Tracks that have just been opened meet the invariant. -/
theorem start_invariant (bufferSize elemSize : Int → Nat) (content : Int → List UInt8) :
    Invariant content (start bufferSize elemSize content) := by
  refine ⟨⟨fun _ => rfl, fun urlId => ?_, rfl⟩, fun urlId => ⟨rfl, ?_, fun _ => rfl⟩, nofun,
    fun _ => rfl⟩
  · exact ⟨[], Holds.make (bufferSize urlId) (elemSize urlId) 0 0, rfl⟩
  · apply tagsFrom_vacant
    intro chunk member
    have queued : chunk ∈ (CacheBuffer.make (bufferSize urlId) (elemSize urlId)
        0 0).cacheBuffer.items := member
    rw [CacheBuffer.make_cache_items] at queued
    rw [List.eq_of_mem_replicate queued]
    rfl

/-- In every sequence of calls the buffered bytes and those of the last read are
the bytes of the files at their origins. -/
theorem origins_traced {bufferSize elemSize : Int → Nat} {content : Int → List UInt8}
    {calls : List Call} {finish : State}
    (ran : LabelledRuns.run step (start bufferSize elemSize content) calls = some finish) :
    Traced content finish :=
  LabelledRuns.run_preserves (fun _ _ _ traced taken => step_traced traced taken)
    (start_invariant bufferSize elemSize content).traced ran

/-- In every sequence of calls the tags are right after every call exactly when no
read or discard ends within a chunk and every seek puts back fresh bytes. -/
theorem tags_right_iff (bufferSize elemSize : Int → Nat) (content : Int → List UInt8)
    (calls : List Call) (finish : State)
    (ran : LabelledRuns.run step (start bufferSize elemSize content) calls = some finish) :
    LabelledRuns.Along step (fun _ _ next => TagsRight next)
        (start bufferSize elemSize content) calls ↔
      LabelledRuns.Meets step EndsAtChunks (start bufferSize elemSize content) calls := by
  refine LabelledRuns.along_iff_meets ?_ ?_ (start_invariant bufferSize elemSize content) ran
  · intro state call next invariant taken
    obtain ⟨keeps, needs⟩ := step_exact invariant taken
    exact ⟨needs, fun ends => (keeps ends).tagsRight⟩
  · intro state call next invariant taken right
    obtain ⟨keeps, needs⟩ := step_exact invariant taken
    exact keeps (needs right)

/-- Two chunks of four bytes, of which the first is read whole and put back in
part, keep their tags right. -/
theorem tags_right_iff_whole_chunk :
    LabelledRuns.Along step (fun _ _ next => TagsRight next)
      (start (fun _ => 8) (fun _ => 4) (fun _ => [0, 1, 2, 3, 4, 5, 6, 7]))
      [.tryRead 1 4, .tryRead 1 4, .decoderReadBuffer 1 4, .updateDecDetailSeek 1 2] := by
  have ran : ∃ finish, LabelledRuns.run step
      (start (fun _ => 8) (fun _ => 4) (fun _ => [0, 1, 2, 3, 4, 5, 6, 7]))
      [.tryRead 1 4, .tryRead 1 4, .decoderReadBuffer 1 4, .updateDecDetailSeek 1 2] =
        some finish := ⟨_, rfl⟩
  obtain ⟨finish, ran⟩ := ran
  exact (tags_right_iff (fun _ => 8) (fun _ => 4) (fun _ => [0, 1, 2, 3, 4, 5, 6, 7]) _ finish
    ran).mpr (by decide)

/-- After a read of the first byte of a chunk of four, the chunk begins with byte
one of the file and is tagged with minus one. -/
theorem part_read_moves_tag_back :
    ∃ finish, LabelledRuns.run step
        (start (fun _ => 8) (fun _ => 4) (fun _ => [0, 1, 2, 3, 4, 5, 6, 7]))
        [.tryRead 1 4, .decoderReadBuffer 1 1] = some finish ∧
      ((finish.calls.tracks 1).details.currentCacheBuf.dataBuffer.front.map
        (fun chunk => (chunk.first, chunk.second.items))) = some (-1, [1, 2, 3]) ∧
      finish.origins 1 = [(1, 1), (1, 2), (1, 3)] ∧ ¬ TagsRight finish := by
  refine ⟨_, rfl, rfl, rfl, ?_⟩
  intro right
  exact absurd (right 1) (by decide)

end Mprt.PositionTags
