import Mprt.DecoderPluginsManager
import Mprt.LabelledRuns

/-!
# What the report of a played track changes

An output plugin reports each played track with a job of its url id. The job
looks for the track among the finished ones; when it is not there, the front
track of the list is finished under that id, whatever track it is. So the job
concerns only its own track exactly when that track is finished or at the front.
Otherwise the front track of another id is taken off the list, and the map of
finished tracks has it under a wrong key.

A job that has found its own track removes it from the map. The same job from a
second output plugin therefore never finds the manager done with it: it takes
the next track off the list, or reads the front of an empty one.
-/

namespace Mprt.FinishIsolation

open DecoderPluginsManager

/-- Every key of the map of finished tracks is the url id of its track. -/
def KeysAgree (state : DecoderPluginsManager) : Prop :=
  ∀ key address, state.finishedDecoderDetailList.lookup key = some address →
    (state.details address).urlId = key

/-- The list and the map point to allocated details. -/
def Owned (state : DecoderPluginsManager) : Prop :=
  (∀ address ∈ state.decoderDetailList, address < state.nextDetails) ∧
    ∀ key address, state.finishedDecoderDetailList.lookup key = some address →
      address < state.nextDetails

/-- The manager before its first job. -/
def Fresh (state : DecoderPluginsManager) : Prop :=
  state.decoderDetailList = [] ∧ state.finishedDecoderDetailList = ∅

/-- The track is finished, or it is at the front of the list. -/
def Finishable (state : DecoderPluginsManager) (urlId : Int) : Prop :=
  (state.finishedDecoderDetailList.lookup urlId).isSome = true ∨
    state.decoderDetailList.head?.map (fun front => (state.details front).urlId) = some urlId

instance (state : DecoderPluginsManager) (urlId : Int) : Decidable (Finishable state urlId) :=
  inferInstanceAs (Decidable (_ ∨ _))

/-- Entries of other url ids are as before: those of the list in their order,
those of the map, and the details of their tracks, except that the track that is
now at the front may have been opened. -/
structure Isolated (urlId : Int) (before after : DecoderPluginsManager) : Prop where
  list : after.decoderDetailList.filter (fun address => (before.details address).urlId ≠ urlId) =
    before.decoderDetailList.filter (fun address => (before.details address).urlId ≠ urlId)
  finished : ∀ key, key ≠ urlId → after.finishedDecoderDetailList.lookup key =
    before.finishedDecoderDetailList.lookup key
  details : ∀ address, (before.details address).urlId ≠ urlId →
    after.details address = before.details address ∨
      after.decoderDetailList.head? = some address ∧ ∃ cacheBuf result,
        after.details address = (before.details address).openWith cacheBuf result

/-- After the step the keys agree, and the report of a played track has changed
entries of its own url id only. -/
def Isolates (before : DecoderPluginsManager) (job : Job) (after : DecoderPluginsManager) : Prop :=
  KeysAgree after ∧
    match job with
    | .playFinished _ urlId _ => Isolated urlId before after
    | _ => True

/-- A report of a played track finds the track finished or at the front. -/
def JobFinishable (state : DecoderPluginsManager) : Job → Prop
  | .playFinished _ urlId _ => Finishable state urlId
  | _ => True

instance (state : DecoderPluginsManager) : (job : Job) → Decidable (JobFinishable state job)
  | .playFinished _ urlId _ => inferInstanceAs (Decidable (Finishable state urlId))
  | .addInputUrlJob _ _ | .setCacheBuffer _ _ | .stop | .pause | .quit | .cont _ _
  | .contInternal _ _ | .decodeCont _ | .seekDuration _ _ _ _ => inferInstanceAs (Decidable True)

/-- The same list, map and allocation, with the url ids of all details. -/
structure SameTracks (before after : DecoderPluginsManager) : Prop where
  list : after.decoderDetailList = before.decoderDetailList
  finished : after.finishedDecoderDetailList = before.finishedDecoderDetailList
  next : after.nextDetails = before.nextDetails
  urlIds : ∀ address, (after.details address).urlId = (before.details address).urlId

namespace SameTracks

variable {before middle after : DecoderPluginsManager}

theorem refl (state : DecoderPluginsManager) : SameTracks state state :=
  ⟨rfl, rfl, rfl, fun _ => rfl⟩

theorem trans (first : SameTracks before middle) (second : SameTracks middle after) :
    SameTracks before after :=
  ⟨second.list.trans first.list, second.finished.trans first.finished,
    second.next.trans first.next,
    fun address => (second.urlIds address).trans (first.urlIds address)⟩

/-- The keys agree with the url ids as long as the map and these ids are the same. -/
theorem keysAgree (same : SameTracks before after) (agree : KeysAgree before) :
    KeysAgree after := by
  intro key address found
  rw [same.finished] at found
  rw [same.urlIds]
  exact agree key address found

/-- So does allocation depend only on the list, the map and the next address. -/
theorem owned (same : SameTracks before after) (owned : Owned before) : Owned after := by
  rw [Owned, same.list, same.finished, same.next]
  exact owned

end SameTracks

/-- Details may change in everything but their url id. -/
theorem setDetails_same {state : DecoderPluginsManager} {address : Nat}
    {details : CurrentDecoderDetails} (urlId : details.urlId = (state.details address).urlId) :
    SameTracks state (state.setDetails address details) := by
  refine ⟨rfl, rfl, rfl, ?_⟩
  intro other
  by_cases chosen : other = address
  · simp [setDetails, chosen, urlId]
  · simp [setDetails, chosen]

/-- Cache buffers lie elsewhere than the details of the tracks. -/
theorem modifyBuffer_same (state : DecoderPluginsManager) (change : CacheBuffer → CacheBuffer)
    (address : Nat) : SameTracks state (state.modifyBuffer change address) :=
  ⟨rfl, rfl, rfl, fun _ => rfl⟩

/-- A cache buffer from the pool, or a new one, is no matter of the tracks. -/
theorem getCachePutBuf_same (state : DecoderPluginsManager) (index : Nat) (urlId : Int) :
    SameTracks state (state.getCachePutBuf index urlId).2 ∧
      (state.getCachePutBuf index urlId).2.details = state.details := by
  rw [getCachePutBuf]
  simp only
  split <;> exact ⟨⟨rfl, rfl, rfl, fun _ => rfl⟩, rfl⟩

/-- Neither is a buffer that goes back to the pool, where its data is cleared. -/
theorem giveCacheBufBack_same (state : DecoderPluginsManager) (index : Nat) (urlId : Int) :
    SameTracks state (state.giveCacheBufBack index urlId) ∧
      (state.giveCacheBufBack index urlId).details = state.details := by
  unfold giveCacheBufBack
  simp only
  split <;> exact ⟨⟨rfl, rfl, rfl, fun _ => rfl⟩, rfl⟩

/-- The opening of a track writes into its details only. -/
theorem initApi_effect (state : DecoderPluginsManager) (front : Nat) (result : OpenResult) :
    SameTracks state (state.initApi front result) ∧
      (∀ address, address ≠ front →
        (state.initApi front result).details address = state.details address) ∧
      ∃ cacheBuf, (state.initApi front result).details front =
        (state.details front).openWith cacheBuf result := by
  unfold initApi
  simp only
  have fetched : SameTracks state (state.getDecoder (state.details front).currentDecoderPlugin
      (state.details front).urlId) := ⟨rfl, rfl, rfl, fun _ => rfl⟩
  obtain ⟨same, details⟩ := getCachePutBuf_same
    (state.getDecoder (state.details front).currentDecoderPlugin (state.details front).urlId)
    (state.details front).currentDecoderPlugin (state.details front).urlId
  generalize (state.getDecoder (state.details front).currentDecoderPlugin
    (state.details front).urlId).getCachePutBuf _ _ = got at *
  have reached := fetched.trans same
  have before : got.2.details = state.details := details
  have urlId : ((state.details front).openWith got.1 result).urlId =
      (got.2.details front).urlId := by
    rw [before]
    exact CurrentDecoderDetails.openWith_urlId _ _ _
  refine ⟨reached.trans ((setDetails_same urlId).trans ⟨rfl, rfl, rfl, fun _ => rfl⟩), ?_, ?_⟩
  · intro address other
    simp [emit, setDetails, other, before]
  · exact ⟨got.1, by simp [emit, setDetails]⟩

/-- The opening of the front track writes into its details only. -/
theorem initDecode_effect (state : DecoderPluginsManager) (result : OpenResult) :
    SameTracks state (state.initDecodeInternalSingle result) ∧
      ∀ address, (state.initDecodeInternalSingle result).details address = state.details address ∨
        state.decoderDetailList.head? = some address ∧ ∃ cacheBuf,
          (state.initDecodeInternalSingle result).details address =
            (state.details address).openWith cacheBuf result := by
  rw [initDecodeInternalSingle]
  cases tracks : state.decoderDetailList with
  | nil => exact ⟨SameTracks.refl state, fun _ => Or.inl rfl⟩
  | cons front rest =>
    simp only
    by_cases known : (state.plugins (state.details front).currentDecoderPlugin).decoders.isInCache
        (state.details front).urlId = true
    · rw [if_pos known]
      exact ⟨SameTracks.refl state, fun _ => Or.inl rfl⟩
    · rw [if_neg known]
      have opened := initApi_effect state front result
      refine ⟨opened.1, ?_⟩
      intro address
      by_cases chosen : address = front
      · rw [chosen]
        exact Or.inr ⟨rfl, opened.2.2⟩
      · exact Or.inl (opened.2.1 address chosen)

/-- At the end of the data the total of the front track is corrected, and no other details are
touched. -/
theorem correctTotalSamples_effect (state : DecoderPluginsManager) (front : Nat) :
    SameTracks state (state.correctTotalSamples front) ∧
      ∀ address, address ≠ front →
        (state.correctTotalSamples front).details address = state.details address := by
  rw [correctTotalSamples]
  simp only
  split
  · constructor
    · have same : SameTracks state (state.setDetails front { state.details front with
          soundDetails := { (state.details front).soundDetails with
            totalSamples := (state.details front).currentSamplesWritten } }) :=
        setDetails_same rfl
      exact same.trans ⟨rfl, rfl, rfl, fun _ => rfl⟩
    · intro address other
      simp [emit, setDetails, other]
  · exact ⟨SameTracks.refl state, fun _ _ => rfl⟩

/-- Finishing the front track takes it off the list and puts it into the map under
the id given. Of the other tracks only the next one may be opened. -/
theorem finish_effect {state after : DecoderPluginsManager} {urlId : Int} {result : OpenResult}
    (finished : state.finishDecodeInternalSingle urlId result = some after) :
    ∃ front rest, state.decoderDetailList = front :: rest ∧
      after.decoderDetailList = rest ∧
      after.finishedDecoderDetailList = state.finishedDecoderDetailList.insert urlId front ∧
      after.nextDetails = state.nextDetails ∧
      (∀ address, (after.details address).urlId = (state.details address).urlId) ∧
      ∀ address, address ≠ front → after.details address = state.details address ∨
        rest.head? = some address ∧ ∃ cacheBuf,
          after.details address = (state.details address).openWith cacheBuf result := by
  rw [finishDecodeInternalSingle] at finished
  cases tracks : state.decoderDetailList with
  | nil => simp [tracks] at finished
  | cons front rest =>
    simp only [tracks] at finished
    obtain ⟨same, others⟩ := correctTotalSamples_effect state front
    generalize state.correctTotalSamples front = corrected at *
    obtain ⟨opened, details⟩ := initDecode_effect (corrected.moveToFinished urlId front rest) result
    obtain rfl := Option.some.inj finished
    have urlIds : ∀ address,
        ((corrected.moveToFinished urlId front rest).details address).urlId =
          (state.details address).urlId := same.urlIds
    have kept : (corrected.moveToFinished urlId front rest).finishedDecoderDetailList =
        state.finishedDecoderDetailList.insert urlId front := by
      rw [← same.finished]
      rfl
    have next : (corrected.moveToFinished urlId front rest).nextDetails = state.nextDetails :=
      same.next
    refine ⟨front, rest, rfl, opened.list, opened.finished.trans kept, opened.next.trans next,
      fun address => (opened.urlIds address).trans (urlIds address), ?_⟩
    intro address other
    rw [← others address other]
    exact details address

/-! ## Steps that keep the keys -/

/-- What a step that is no report of a played track preserves. -/
def Kept (before after : DecoderPluginsManager) : Prop :=
  Owned before → Owned after ∧ (KeysAgree before → KeysAgree after)

namespace Kept

variable {before middle after : DecoderPluginsManager}

/-- A job that leaves the tracks as they are keeps the keys. -/
theorem of_same (same : SameTracks before after) : Kept before after :=
  fun owned => ⟨same.owned owned, same.keysAgree⟩

theorem trans (first : Kept before middle) (second : Kept middle after) : Kept before after := by
  intro owned
  have reached := first owned
  have ended := second reached.1
  exact ⟨ended.1, fun agree => ended.2 (reached.2 agree)⟩

end Kept

/-- The front track finished under any id is still allocated, and under its own id
it keeps the keys. -/
theorem finish_kept {state after : DecoderPluginsManager} {urlId : Int} {result : OpenResult}
    (finished : state.finishDecodeInternalSingle urlId result = some after) (owned : Owned state) :
    Owned after ∧ ((∃ front, state.decoderDetailList.head? = some front ∧
      (state.details front).urlId = urlId) → KeysAgree state → KeysAgree after) := by
  obtain ⟨front, rest, tracks, list, map, next, urlIds, _⟩ := finish_effect finished
  have allocated := owned.1
  rw [tracks] at allocated
  constructor
  · constructor
    · rw [list, next]
      intro address member
      exact allocated address (List.mem_cons_of_mem front member)
    · rw [map, next]
      intro key address found
      by_cases own : key = urlId
      · rw [own, AList.lookup_insert] at found
        obtain rfl := Option.some.inj found
        exact allocated front List.mem_cons_self
      · rw [AList.lookup_insert_ne own] at found
        exact owned.2 key address found
  · rintro ⟨head, isFront, ownId⟩ agree key address found
    rw [tracks, List.head?_cons, Option.some.injEq] at isFront
    rw [urlIds]
    rw [map] at found
    by_cases own : key = urlId
    · rw [own, AList.lookup_insert] at found
      obtain rfl := Option.some.inj found
      rw [isFront, ownId, own]
    · rw [AList.lookup_insert_ne own] at found
      exact agree key address found

/-- A frame is written to one output after another, which changes the details of the front track
but not its url id. -/
theorem writeFrames_same {front : Nat} {countsPerBuffer : Bool} {samples : Int}
    {bytes : List UInt8} {addresses : List Nat} {state after : DecoderPluginsManager}
    (written : writeFrames front countsPerBuffer samples bytes addresses state = some after) :
    SameTracks state after := by
  induction addresses generalizing state with
  | nil =>
    obtain rfl := Option.some.inj written
    exact SameTracks.refl state
  | cons address rest inductionHypothesis =>
    simp only [writeFrames, Option.bind_eq_some_iff] at written
    obtain ⟨buffer, _, following⟩ := written
    have counted : SameTracks state (state.setDetails front { state.details front with
        currentSamplesWritten := (state.details front).currentSamplesWritten +
          if countsPerBuffer then samples else 0 }) := setDetails_same rfl
    have stored := counted.trans (modifyBuffer_same _ (fun _ => buffer) address)
    exact stored.trans (inductionHypothesis following)

/-- So it is for the frames of a whole turn, by induction on them. -/
theorem decodeFrames_same {front : Nat} {frames : List (Int × List UInt8)}
    {state after : DecoderPluginsManager} (decoded : decodeFrames front frames state = some after) :
    SameTracks state after := by
  induction frames generalizing state with
  | nil =>
    obtain rfl := Option.some.inj decoded
    exact SameTracks.refl state
  | cons frame rest inductionHypothesis =>
    obtain ⟨samples, bytes⟩ := frame
    simp only [decodeFrames, Option.bind_eq_some_iff] at decoded
    obtain ⟨middle, written, following⟩ := decoded
    have counted : SameTracks state (state.setDetails front { state.details front with
        currentSamplesWritten := (state.details front).currentSamplesWritten +
          if (state.plugins (state.details front).currentDecoderPlugin).countsPerBuffer then 0
          else samples }) := setDetails_same rfl
    exact (counted.trans (writeFrames_same written)).trans (inductionHypothesis following)

/-- The end of a stream finishes the front track under its own id. -/
theorem decode_kept {state after : DecoderPluginsManager} {front : Nat} {env : DecodeEnv}
    (isFront : state.decoderDetailList.head? = some front)
    (decoded : state.decode front env = some after) : Kept state after := by
  unfold decode at decoded
  simp only at decoded
  split at decoded
  · obtain rfl := Option.some.inj decoded
    exact Kept.of_same (SameTracks.refl state)
  · simp only [Option.bind_eq_some_iff] at decoded
    obtain ⟨middle, frames, ends⟩ := decoded
    have same := decodeFrames_same frames
    split at ends
    · intro owned
      have finished := finish_kept ends (same.owned owned)
      have own : ∃ head, middle.decoderDetailList.head? = some head ∧
          (middle.details head).urlId = (state.details front).urlId :=
        ⟨front, by rw [same.list]; exact isFront, same.urlIds front⟩
      exact ⟨finished.1, fun agree => finished.2 own (same.keysAgree agree)⟩
    · obtain rfl := Option.some.inj ends
      exact Kept.of_same same

/-- To call other plugins changes no entry. -/
theorem emit_kept (state : DecoderPluginsManager) (events : List ManagerEvent) :
    Kept state (state.emit events) :=
  Kept.of_same ⟨rfl, rfl, rfl, fun _ => rfl⟩

/-- A turn of the decoding loop may finish the front track, under its own url id: the key that the
map gets agrees with the track. -/
theorem decodeCont_kept {state after : DecoderPluginsManager} {env : DecodeEnv}
    (decoded : state.decodeCont env = some after) : Kept state after := by
  rw [decodeCont] at decoded
  split at decoded
  · obtain rfl := Option.some.inj decoded
    exact Kept.of_same (SameTracks.refl state)
  · rename_i front rest tracks
    simp only at decoded
    split at decoded
    · obtain rfl := Option.some.inj decoded
      exact Kept.of_same (SameTracks.refl state)
    · simp only [Option.map_eq_some_iff] at decoded
      obtain ⟨middle, frames, rfl⟩ := decoded
      have isFront : state.decoderDetailList.head? = some front := by rw [tracks]; rfl
      have kept := decode_kept isFront frames
      split
      · exact kept
      · exact kept.trans (emit_kept middle _)

/-- What is pushed to the front or moved there was in the map or in the list. -/
theorem bringToFront_kept (state : DecoderPluginsManager) (urlId : Int) :
    Kept state (state.bringToFront urlId) := by
  intro owned
  rw [bringToFront]
  cases finished : state.finishedDecoderDetailList.lookup urlId with
  | some address =>
    simp only
    split
    · exact ⟨owned, fun agree => agree⟩
    · refine ⟨⟨?_, owned.2⟩, fun agree => agree⟩
      intro other member
      rcases List.mem_cons.mp member with rfl | later
      · exact owned.2 urlId other finished
      · exact owned.1 other later
  | none =>
    simp only
    cases found : state.decoderDetailList.find? (fun address =>
        (state.details address).urlId = urlId) with
    | none => exact ⟨owned, fun agree => agree⟩
    | some address =>
      refine ⟨⟨?_, owned.2⟩, fun agree => agree⟩
      intro other member
      rcases List.mem_cons.mp member with rfl | later
      · exact owned.1 other (List.mem_of_find?_eq_some found)
      · exact owned.1 other (List.mem_of_mem_erase later)

/-- A seek of the front track gives it another position and clears the outputs. -/
theorem seekFront_same {state after : DecoderPluginsManager} {front : Nat}
    {seekDurationMs : Int} {frames : List (Int × List UInt8)}
    (sought : state.seekFront front seekDurationMs frames = some after) :
    SameTracks state after := by
  rw [seekFront] at sought
  simp only [Option.map_eq_some_iff] at sought
  obtain ⟨middle, decoded, rfl⟩ := sought
  have moved : SameTracks middle (middle.setDetails front { middle.details front with
      currentSamplesWritten :=
        (middle.details front).soundDetails.timeDurationToSamples (seekDurationMs * 1000) }) :=
    setDetails_same rfl
  exact (decodeFrames_same decoded).trans (moved.trans ⟨rfl, rfl, rfl, fun _ => rfl⟩)

/-- A seek moves a track to the front, from the list or from the map. What is taken out of the map
leaves the other keys as they were. -/
theorem seekDuration_kept {state after : DecoderPluginsManager} {urlId seekDurationMs : Int}
    {frames : List (Int × List UInt8)} {env : DecodeEnv}
    (sought : state.seekDuration urlId seekDurationMs frames env = some after) :
    Kept state after := by
  rw [seekDuration] at sought
  simp only [Option.map_eq_some_iff] at sought
  obtain ⟨middle, moved, rfl⟩ := sought
  have brought := bringToFront_kept state urlId
  refine brought.trans (Kept.trans ?_ (emit_kept middle _))
  split at moved
  · obtain rfl := Option.some.inj moved
    exact Kept.of_same (SameTracks.refl _)
  · simp only [Option.bind_eq_some_iff] at moved
    obtain ⟨reached, front, decoded⟩ := moved
    exact (Kept.of_same (seekFront_same front)).trans (decodeCont_kept decoded)

/-- To go on opens the front track and decodes, and each part keeps the keys. -/
theorem contInternal_kept {state after : DecoderPluginsManager} {result : OpenResult}
    {env : DecodeEnv} (continued : state.contInternal result env = some after) :
    Kept state after := by
  rw [contInternal] at continued
  split at continued
  · obtain rfl := Option.some.inj continued
    exact emit_kept state _
  · exact (Kept.of_same (initDecode_effect state result).1).trans (decodeCont_kept continued)

/-- An added track gets details of its own. -/
theorem pushBackDetails_kept (state : DecoderPluginsManager) (details : CurrentDecoderDetails) :
    Kept state (state.pushBackDetails details) := by
  intro owned
  refine ⟨⟨?_, ?_⟩, ?_⟩
  · intro address member
    rcases List.mem_append.mp member with old | new
    · exact Nat.lt_succ_of_lt (owned.1 address old)
    · rw [List.mem_singleton.mp new]
      exact Nat.lt_succ_self _
  · intro key address found
    exact Nat.lt_succ_of_lt (owned.2 key address found)
  · intro agree key address found
    have other : address ≠ state.nextDetails := Nat.ne_of_lt (owned.2 key address found)
    simp only [pushBackDetails, setDetails, if_neg other]
    exact agree key address found

/-- A new track gets details of its own at the end of the list, and no key. -/
theorem addInputUrl_kept {state after : DecoderPluginsManager} {urlExt : String} {urlId : Int}
    (added : state.addInputUrlJobInternal urlExt urlId = some after) : Kept state after := by
  rw [addInputUrlJobInternal] at added
  simp only [Option.map_eq_some_iff] at added
  obtain ⟨index, _, rfl⟩ := added
  have pushed := pushBackDetails_kept state
    { CurrentDecoderDetails.opened urlExt urlId with currentDecoderPlugin := index }
  have got := pushed.trans (Kept.of_same (getCachePutBuf_same _ index urlId).1)
  split
  · exact (got.trans (emit_kept _ _)).trans (emit_kept _ _)
  · exact got.trans (emit_kept _ _)

/-- A track may get its cache buffer later, which is no change of its url id. -/
theorem setCacheBuffer_same (state : DecoderPluginsManager) (urlId : Int) (cacheBuf : Nat) :
    SameTracks state (state.setCacheBuffer urlId cacheBuf) := by
  rw [setCacheBuffer]
  split
  · exact SameTracks.refl state
  · exact setDetails_same rfl

/-! ## The report of a played track -/

/-- A released track leaves the map and nothing else. -/
theorem releaseFinished_effect (state : DecoderPluginsManager) (index : Nat) (urlId : Int)
    {finished : Nat} (own : (state.details finished).urlId = urlId) :
    (state.releaseFinished index urlId finished).decoderDetailList = state.decoderDetailList ∧
      (state.releaseFinished index urlId finished).finishedDecoderDetailList =
        state.finishedDecoderDetailList.erase urlId ∧
      (state.releaseFinished index urlId finished).nextDetails = state.nextDetails ∧
      (state.releaseFinished index urlId finished).details = state.details := by
  rw [releaseFinished, if_pos own]
  simp only
  obtain ⟨same, details⟩ := giveCacheBufBack_same
    (state.emit [.decoderFinish (state.plugins index).pluginName urlId]) index urlId
  generalize (state.emit [.decoderFinish (state.plugins index).pluginName urlId]).giveCacheBufBack
    index urlId = given at *
  have map : given.finishedDecoderDetailList = state.finishedDecoderDetailList := same.finished
  refine ⟨same.list, ?_, same.next, details⟩
  rw [← map]
  rfl

/-- Without its own track the second half of the job changes nothing. -/
theorem releaseFinished_other (state : DecoderPluginsManager) (index : Nat) (urlId : Int)
    {finished : Nat} (other : (state.details finished).urlId ≠ urlId) :
    state.releaseFinished index urlId finished = state := by
  rw [releaseFinished, if_neg other]

/-- A track found finished is released, and all other entries stay. -/
theorem playFinished_found {state after : DecoderPluginsManager} {index : Nat} {urlId : Int}
    {result : OpenResult} {finished : Nat} (agree : KeysAgree state)
    (found : state.finishedDecoderDetailList.lookup urlId = some finished)
    (played : state.playFinished index urlId result = some after) :
    KeysAgree after ∧ Isolated urlId state after ∧
      after.decoderDetailList = state.decoderDetailList ∧
      after.finishedDecoderDetailList.lookup urlId = none := by
  simp only [playFinished, found, Option.some.injEq] at played
  obtain ⟨list, map, _, details⟩ :=
    releaseFinished_effect state index urlId (agree urlId finished found)
  rw [played] at list map details
  refine ⟨?_, ⟨by rw [list], ?_, fun address _ => Or.inl (by rw [details])⟩, list, ?_⟩
  · intro key address present
    rw [map] at present
    by_cases own : key = urlId
    · rw [own, AList.lookup_erase] at present
      cases present
    · rw [AList.lookup_erase_ne own] at present
      rw [details]
      exact agree key address present
  · intro key other
    rw [map, AList.lookup_erase_ne other]
  · rw [map, AList.lookup_erase]

/-- A track that is not finished is finished from the front and released when the
front is its own; else the map has the front track under a wrong key. -/
theorem playFinished_unfound {state after : DecoderPluginsManager} {index : Nat} {urlId : Int}
    {result : OpenResult} (missing : state.finishedDecoderDetailList.lookup urlId = none)
    (played : state.playFinished index urlId result = some after) :
    ∃ front rest, state.decoderDetailList = front :: rest ∧ after.decoderDetailList = rest ∧
      ((state.details front).urlId = urlId → KeysAgree state →
        KeysAgree after ∧ Isolated urlId state after ∧
          after.finishedDecoderDetailList.lookup urlId = none) ∧
      ((state.details front).urlId ≠ urlId → ¬ KeysAgree after) := by
  simp only [playFinished, missing, Option.map_eq_some_iff] at played
  obtain ⟨ended, finished, released⟩ := played
  obtain ⟨front, rest, tracks, list, map, _, urlIds, others⟩ := finish_effect finished
  have found : ended.finishedDecoderDetailList.lookup urlId = some front := by
    rw [map, AList.lookup_insert]
  simp only [found] at released
  by_cases own : (state.details front).urlId = urlId
  · have ownEnded : (ended.details front).urlId = urlId := by rw [urlIds, own]
    obtain ⟨listAfter, mapAfter, _, details⟩ := releaseFinished_effect ended index urlId ownEnded
    rw [released] at listAfter mapAfter details
    have lookups : ∀ key, key ≠ urlId → after.finishedDecoderDetailList.lookup key =
        state.finishedDecoderDetailList.lookup key := by
      intro key other
      rw [mapAfter, AList.lookup_erase_ne other, map, AList.lookup_insert_ne other]
    have gone : after.finishedDecoderDetailList.lookup urlId = none := by
      rw [mapAfter, AList.lookup_erase]
    refine ⟨front, rest, tracks, listAfter.trans list, ?_, fun other => absurd own other⟩
    intro _ agree
    refine ⟨?_, ⟨?_, lookups, ?_⟩, gone⟩
    · intro key address present
      by_cases same : key = urlId
      · rw [same, gone] at present
        cases present
      · rw [lookups key same] at present
        rw [details, urlIds]
        exact agree key address present
    · rw [listAfter, list, tracks, List.filter_cons_of_neg (by simp [own])]
    · intro address other
      have notFront : address ≠ front := by
        intro same
        rw [same] at other
        exact other own
      rw [details, listAfter, list]
      rcases others address notFront with kept | ⟨head, cacheBuf, opened⟩
      · exact Or.inl kept
      · exact Or.inr ⟨head, cacheBuf, result, opened⟩
  · have otherEnded : (ended.details front).urlId ≠ urlId := by rw [urlIds]; exact own
    rw [releaseFinished_other ended index urlId otherEnded] at released
    subst released
    refine ⟨front, rest, tracks, list, fun same => absurd same own, ?_⟩
    intro _ agree
    exact otherEnded (agree urlId front found)

/-- The report of a played track isolates exactly when it finds its track finished
or at the front. -/
theorem playFinished_isolates_iff {state after : DecoderPluginsManager} {index : Nat}
    {urlId : Int} {result : OpenResult} (agree : KeysAgree state)
    (played : state.playFinished index urlId result = some after) :
    (KeysAgree after ∧ Isolated urlId state after) ↔ Finishable state urlId := by
  cases found : state.finishedDecoderDetailList.lookup urlId with
  | some finished =>
    obtain ⟨kept, isolated, _, _⟩ := playFinished_found agree found played
    constructor
    · intro _
      exact Or.inl (by rw [found]; rfl)
    · intro _
      exact ⟨kept, isolated⟩
  | none =>
    obtain ⟨front, rest, tracks, _, good, bad⟩ := playFinished_unfound found played
    by_cases own : (state.details front).urlId = urlId
    · obtain ⟨kept, isolated, _⟩ := good own agree
      constructor
      · intro _
        exact Or.inr (by rw [tracks, List.head?_cons, Option.map_some, own])
      · intro _
        exact ⟨kept, isolated⟩
    · constructor
      · intro both
        exact absurd both.1 (bad own)
      · rintro (there | isFront)
        · rw [found] at there
          cases there
        · rw [tracks, List.head?_cons, Option.map_some, Option.some.injEq] at isFront
          exact absurd isFront own

/-- A report that has left the keys right is never done with: a second one for the
same id changes the list, or has no result. -/
theorem playFinished_again {state once : DecoderPluginsManager} {first second : Nat} {urlId : Int}
    {result next : OpenResult} (agree : KeysAgree state)
    (played : state.playFinished first urlId result = some once) (kept : KeysAgree once) :
    once.playFinished second urlId next ≠ some once := by
  have gone : once.finishedDecoderDetailList.lookup urlId = none := by
    cases found : state.finishedDecoderDetailList.lookup urlId with
    | some finished => exact (playFinished_found agree found played).2.2.2
    | none =>
      obtain ⟨front, rest, _, _, good, bad⟩ := playFinished_unfound found played
      by_cases own : (state.details front).urlId = urlId
      · exact (good own agree).2.2
      · exact absurd kept (bad own)
  intro again
  obtain ⟨front, rest, tracks, list, _⟩ := playFinished_unfound gone again
  rw [tracks] at list
  exact List.cons_ne_self front rest list

/-- Allocation is kept by the report of a played track too. -/
theorem playFinished_owned {state after : DecoderPluginsManager} {index : Nat} {urlId : Int}
    {result : OpenResult} (owned : Owned state)
    (played : state.playFinished index urlId result = some after) : Owned after := by
  have released : ∀ (reached : DecoderPluginsManager) (finished : Nat), Owned reached →
      Owned (reached.releaseFinished index urlId finished) := by
    intro reached finished allocated
    by_cases own : (reached.details finished).urlId = urlId
    · obtain ⟨list, map, next, _⟩ := releaseFinished_effect reached index urlId own
      rw [Owned, list, map, next]
      refine ⟨allocated.1, ?_⟩
      intro key address present
      by_cases same : key = urlId
      · rw [same, AList.lookup_erase] at present
        cases present
      · rw [AList.lookup_erase_ne same] at present
        exact allocated.2 key address present
    · rw [releaseFinished_other reached index urlId own]
      exact allocated
  rw [playFinished] at played
  split at played
  · obtain rfl := Option.some.inj played
    exact released state _ owned
  · simp only [Option.map_eq_some_iff] at played
    obtain ⟨ended, finished, rfl⟩ := played
    have kept := (finish_kept finished owned).1
    split
    · exact released ended _ kept
    · exact kept

/-! ## Runs -/

/-- Every job but the report of a played track keeps the keys. -/
theorem step_kept {state after : DecoderPluginsManager} {job : Job}
    (stepped : DecoderPluginsManager.step state job = some after) (owned : Owned state) :
    Owned after ∧ (KeysAgree state → (∀ index urlId result, job ≠ .playFinished index urlId result) →
      KeysAgree after) := by
  have kept : Kept state after → Owned after ∧ (KeysAgree state →
      (∀ index urlId result, job ≠ .playFinished index urlId result) → KeysAgree after) :=
    fun keeps => ⟨(keeps owned).1, fun agree _ => (keeps owned).2 agree⟩
  cases job with
  | addInputUrlJob urlExt urlId => exact kept (addInputUrl_kept stepped)
  | setCacheBuffer urlId cacheBuf =>
    obtain rfl := Option.some.inj stepped
    exact kept (Kept.of_same (setCacheBuffer_same state urlId cacheBuf))
  | stop | pause | quit =>
    obtain rfl := Option.some.inj stepped
    exact kept (Kept.of_same ⟨rfl, rfl, rfl, fun _ => rfl⟩)
  | cont result env =>
    have playing : SameTracks state { state with currentState := .play } :=
      ⟨rfl, rfl, rfl, fun _ => rfl⟩
    exact kept ((Kept.of_same playing).trans (contInternal_kept stepped))
  | contInternal result env => exact kept (contInternal_kept stepped)
  | decodeCont env => exact kept (decodeCont_kept stepped)
  | seekDuration urlId seekDurationMs frames env => exact kept (seekDuration_kept stepped)
  | playFinished index urlId result =>
    exact ⟨playFinished_owned owned stepped, fun _ unfinished => absurd rfl (unfinished index urlId result)⟩

/-- One job isolates exactly when it is no report of a played track, or finds its
track finished or at the front. -/
theorem step_isolates_iff (before : DecoderPluginsManager) (job : Job)
    (after : DecoderPluginsManager) (holds : KeysAgree before ∧ Owned before)
    (stepped : DecoderPluginsManager.step before job = some after) :
    Isolates before job after ↔ JobFinishable before job := by
  have kept := step_kept stepped holds.2
  have others : (∀ index urlId result, job ≠ .playFinished index urlId result) →
      (Isolates before job after ↔ JobFinishable before job) := by
    intro notPlayed
    have agree := kept.2 holds.1 notPlayed
    cases job with
    | playFinished index urlId result => exact absurd rfl (notPlayed index urlId result)
    | _ => exact ⟨fun _ => trivial, fun _ => ⟨agree, trivial⟩⟩
  cases job with
  | playFinished index urlId result => exact playFinished_isolates_iff holds.1 stepped
  | _ => exact others (by intro index urlId result same; cases same)

/-- In every run the keys agree after each job, and each report of a played track
changes entries of its own id only, exactly when each report finds its track
finished or at the front. In every reached state with right keys this holds of any
further report, and no report for which it holds can be repeated without a change. -/
theorem finish_isolated {start state : DecoderPluginsManager} {jobs : List Job}
    (fresh : Fresh start)
    (ran : LabelledRuns.run DecoderPluginsManager.step start jobs = some state) :
    (LabelledRuns.Along DecoderPluginsManager.step Isolates start jobs ↔
      LabelledRuns.Meets DecoderPluginsManager.step JobFinishable start jobs) ∧
    (KeysAgree state → ∀ index urlId result,
      (∃ once, state.playFinished index urlId result = some once ∧ KeysAgree once ∧
        Isolated urlId state once) ↔ Finishable state urlId) ∧
    (KeysAgree state → ∀ first second urlId result next once,
      state.playFinished first urlId result = some once → KeysAgree once →
        once.playFinished second urlId next ≠ some once) := by
  have agree : KeysAgree start := by
    intro key address found
    simp [fresh.2] at found
  have owned : Owned start := by
    constructor
    · rw [fresh.1]
      intro address member
      cases member
    · intro key address found
      simp [fresh.2] at found
  refine ⟨?_, ?_, ?_⟩
  · exact LabelledRuns.along_iff_meets step_isolates_iff
      (fun before job after holds stepped isolates =>
        ⟨isolates.1, (step_kept stepped holds.2).1⟩) ⟨agree, owned⟩ ran
  · intro agreeing index urlId result
    constructor
    · rintro ⟨once, played, kept, isolated⟩
      exact (playFinished_isolates_iff agreeing played).mp ⟨kept, isolated⟩
    · intro finishable
      have returns : ∃ once, state.playFinished index urlId result = some once := by
        rw [playFinished]
        cases found : state.finishedDecoderDetailList.lookup urlId with
        | some finished => exact ⟨_, rfl⟩
        | none =>
          cases tracks : state.decoderDetailList with
          | nil => simp [Finishable, found, tracks] at finishable
          | cons front rest =>
            simp only [finishDecodeInternalSingle, tracks]
            exact ⟨_, rfl⟩
      obtain ⟨once, played⟩ := returns
      exact ⟨once, played, (playFinished_isolates_iff agreeing played).mpr finishable⟩
  · intro agreeing first second urlId result next once played kept
    exact playFinished_again agreeing played kept

/-- A manager with one decoder plugin and two output plugins. -/
def newManager : DecoderPluginsManager where
  currentState := .stop
  decoderDetailList := []
  finishedDecoderDetailList := ∅
  decoderPluginList := [0]
  plugins := fun _ => ⟨"decoder_plugin_flac", fun urlExt => urlExt == "flac", true, false, .make 0,
    .make 0, 8, 4⟩
  outputPluginList := [0, 1]
  details := fun _ => .opened "" 0
  nextDetails := 0
  buffers := fun _ => CacheBuffer.make 8 4 0 0
  nextBuffer := 0
  uninitialised := fun _ => (0, 0)
  nextDecoder := 0
  events := []

def shortInfo : OpenResult := .opened ⟨2, 1, 44100, false, 8⟩

/-- Two tracks are added, and the first one is decoded to its end and reported. -/
def firstPlayed : List Job :=
  [.addInputUrlJob "flac" 1, .addInputUrlJob "flac" 2,
    .cont shortInfo ⟨false, [], false, .silent⟩, .setCacheBuffer 1 10,
    .decodeCont ⟨false, [(2, [7, 9])], true, shortInfo⟩, .playFinished 0 1 .silent]

/-- The first of two tracks has been played and reported. A report of the second, which is at the
front by then, changes entries of its own id only, and another report of it would not leave
everything as it is. -/
theorem finish_isolated_first : ∃ state once,
    LabelledRuns.run DecoderPluginsManager.step newManager firstPlayed = some state ∧
      LabelledRuns.Along DecoderPluginsManager.step Isolates newManager firstPlayed ∧
      state.playFinished 0 2 .silent = some once ∧ Isolated 2 state once ∧
      once.playFinished 0 2 .silent ≠ some once := by
  have fresh : Fresh newManager := ⟨rfl, rfl⟩
  have parts := fun state => @finish_isolated newManager state firstPlayed fresh
  have finished : ∃ state, LabelledRuns.run DecoderPluginsManager.step newManager firstPlayed =
      some state ∧ KeysAgree state ∧ Finishable state 2 := by
    refine ⟨_, rfl, ?_, by decide⟩
    intro key address found
    cases (show none = some address from found)
  obtain ⟨state, ran, agree, finishable⟩ := finished
  obtain ⟨once, played, kept, isolated⟩ := ((parts state ran).2.1 agree 0 2 .silent).mpr finishable
  exact ⟨state, once, ran, (parts state ran).1.mpr (by decide), played, isolated,
    (parts state ran).2.2 agree 0 0 2 .silent .silent once played kept⟩

/-- The report of the first track by the second output plugin takes the other
track off the list and enters it in the map under the first one's id. -/
theorem second_report_takes_next : ∃ once twice,
    LabelledRuns.run DecoderPluginsManager.step newManager firstPlayed = some once ∧
      once.decoderDetailList = [1] ∧ once.playFinished 0 1 .silent = some twice ∧
      twice.decoderDetailList = [] ∧ ¬ Isolated 1 once twice ∧ ¬ KeysAgree twice := by
  refine ⟨_, _, rfl, rfl, rfl, rfl, ?_, ?_⟩
  · intro isolated
    have list := isolated.list
    exact absurd list (by decide)
  · intro agree
    exact absurd (agree 1 1 rfl) (by decide)

end Mprt.FinishIsolation
