import Mprt.StopStart

/-!
# The order of the tracks

An item that is asked for gets the next url id, and its track goes through the input
plugin, the decoder and the output plugin by jobs of several threads. As long as no seek is
asked for, no track overtakes another one on this way, however the jobs interleave, and
none comes twice: the decoder decodes one track to its end before it decodes the next, and
the tracks are added to the queue of the output plugin in the order of the items.

Tracks that cannot be opened, stops and starved tracks drop out of the order and leave it
as it is. Only a seek brings a track back to the front.
-/

namespace Mprt.TrackOrder

open Player
open TrackFlow
open StopStart (flow)

variable {media : Media} {prefetch : Flow → Prop} {before after : Flow}

/-- Those on their way to the decoder come in the order of their ids, and so do those on
their way to the output plugin. Of both only the track that is being decoded may be on both
ways. What is finished is before all that is to come. -/
structure Ordered (flow : Flow) : Prop where
  issued : Issued flow
  seeks : flow.seeks = []
  ahead : flow.ahead.Pairwise (· < ·)
  passing : flow.passing.Pairwise (· < ·)
  apart : ∀ arrived ∈ flow.passing, ∀ coming ∈ flow.ahead,
    arrived < coming ∨ arrived = coming ∧ coming ∈ flow.pool
  finished : ∀ under urlId, flow.finished under = some urlId → ∀ coming ∈ flow.ahead,
    urlId < coming
  decoded : flow.decoded.Pairwise (· ≤ ·)
  decoding : ∀ done ∈ flow.decoded, ∀ coming ∈ flow.ahead, done ≤ coming
  given : ∀ done ∈ flow.decoded, done ≤ flow.counter
  queued : flow.queued <:+ flow.added

/-! ## What a move does to the ways -/

/-- Without a seek a track joins the way to the decoder at its end only. -/
theorem ahead_cases (move : Move media prefetch before after) (seeks : before.seeks = []) :
    after.ahead.Sublist before.ahead ∨ after.ahead = before.ahead ++ [before.counter + 1] := by
  cases move with
  | started | prefetched | retried =>
    exact .inr (by simp only [Flow.ask, Flow.ahead, List.append_assoc])
  | filed urlId rest first => exact .inl (by simp [Flow.ahead, first])
  | unfiled urlId rest first missing =>
    exact .inl (by simp [Flow.ahead, first])
  | opened urlId rest first => exact .inl (by simp [Flow.ahead, first])
  | unopened urlId rest first failed => exact .inl (by simp [Flow.ahead, first])
  | closed urlId rest waiting first removed =>
    refine .inl ?_
    rcases removed with rfl | rfl
    · exact .refl _
    · exact ((List.Sublist.refl _).append List.erase_sublist).append (.refl _)
  | handed urlId rest first => exact .inl (by simp [Flow.ahead, first])
  | listed urlId rest first => exact .inl (by simp [Flow.ahead, first])
  | ended urlId rest first ready => exact .inl (by simp [Flow.ahead, first])
  | lost urlId other reports rest report unfinished first =>
    exact .inl (by simp [Flow.ahead, first])
  | sought urlId rest listed first known unknown => simp [seeks] at first
  | _ => exact .inl (.refl _)

/-- A track joins the way to the output plugin when the decoder opens it. -/
theorem passing_cases (move : Move media prefetch before after) :
    after.passing = before.passing ∨ ∃ urlId rest, before.listed = urlId :: rest ∧
      urlId ∉ before.pool ∧ urlId ∈ after.pool ∧ after.ahead = before.ahead ∧
        after.passing = before.passing ++ [urlId] := by
  cases move with
  | announced urlId rest first fresh =>
    exact .inr ⟨urlId, rest, first, fresh, List.mem_cons_self, rfl,
      by simp only [Flow.passing, List.append_assoc]⟩
  | passed urlId rest first => exact .inl (by simp [Flow.passing, first])
  | added urlId rest first => exact .inl (by simp [Flow.passing, first])
  | _ => exact .inl rfl

/-- A decoder that a track has is taken from it only after its end. -/
theorem pool_kept (move : Move media prefetch before after) {urlId : Int}
    (present : urlId ∈ before.pool) :
    urlId ∈ after.pool ∨ before.finished urlId = some urlId := by
  cases move with
  | announced | unannounced => exact .inl (List.mem_cons_of_mem _ present)
  | released other reports report finished =>
    by_cases same : urlId = other
    · exact .inr (same ▸ finished)
    · exact .inl ((List.mem_erase_of_ne same).mpr present)
  | _ => exact .inl present

/-- A track that is finished was the first one of the decoder, and is removed. -/
theorem finished_cases (move : Move media prefetch before after) {under urlId : Int}
    (finished : after.finished under = some urlId) :
    before.finished under = some urlId ∨ before.ahead = urlId :: after.ahead := by
  cases move with
  | ended other rest first ready =>
    simp only [Function.update_apply] at finished
    split at finished
    · obtain rfl := Option.some.inj finished
      exact .inr (by simp [Flow.ahead, first])
    · exact .inl finished
  | lost other track reports rest report unfinished first =>
    simp only [Function.update_apply] at finished
    split at finished
    · obtain rfl := Option.some.inj finished
      exact .inr (by simp [Flow.ahead, first])
    · exact .inl finished
  | released other reports report ended =>
    simp only [Function.update_apply] at finished
    split at finished
    · cases finished
    · exact .inl finished
  | _ => exact .inl finished

/-- What is decoded is the first track of the decoder. -/
theorem decoded_cases (move : Move media prefetch before after) :
    after.decoded = before.decoded ∨ ∃ urlId rest, before.listed = urlId :: rest ∧
      after.ahead = before.ahead ∧ after.decoded = before.decoded ++ [urlId] := by
  cases move with
  | decoded urlId rest first ready => exact .inr ⟨urlId, rest, first, rfl, rfl⟩
  | _ => exact .inl rfl

/-- The queue of the output plugin loses tracks at its front. -/
theorem queued_suffix (move : Move media prefetch before after)
    (queued : before.queued <:+ before.added) : after.queued <:+ after.added := by
  cases move with
  | added urlId rest first =>
    obtain ⟨gone, same⟩ := queued
    exact ⟨gone, by rw [← same, List.append_assoc]⟩
  | stopped stops pending => exact List.nil_suffix
  | played urlId rest first => exact (List.suffix_cons urlId rest).trans (first ▸ queued)
  | starved urlId rest first => exact (List.suffix_cons urlId rest).trans (first ▸ queued)
  | _ => exact queued

/-! ## The order -/

/-- A bound on all that is to come stays one, since an item that joins has a new id. -/
theorem Ordered.coming (ordered : Ordered before) (move : Move media prefetch before after)
    {related : Int → Prop} (bounded : ∀ coming ∈ before.ahead, related coming)
    (new : related (before.counter + 1)) : ∀ coming ∈ after.ahead, related coming := by
  intro coming present
  rcases ahead_cases move ordered.seeks with fewer | joined
  · exact bounded coming (fewer.subset present)
  · rw [joined] at present
    rcases List.mem_append.mp present with known | last
    · exact bounded coming known
    · exact List.mem_singleton.mp last ▸ new

/-- The next id that is given is greater than all ids on their way. -/
theorem Ordered.below (ordered : Ordered before) {urlId : Int}
    (present : urlId ∈ before.ahead ∨ urlId ∈ before.passing) : urlId < before.counter + 1 := by
  refine Int.lt_add_one_of_le (ordered.issued.ids urlId (Flow.mem_ids.mpr ?_))
  exact present.imp_right .inl

/-- The first track of the decoder is before all others. -/
theorem Ordered.front (ordered : Ordered before) {urlId : Int} {rest : List Int}
    (first : before.listed = urlId :: rest) : ∀ coming ∈ before.ahead, urlId ≤ coming := by
  have sorted := ordered.ahead
  intro coming present
  simp only [Flow.ahead, first, List.cons_append, List.pairwise_cons] at sorted present
  rcases List.mem_cons.mp present with rfl | later
  · exact Int.le_refl _
  · exact Int.le_of_lt (sorted.1 coming later)

/-- A track on both ways keeps its decoder, which it loses only after its end. -/
theorem Ordered.apart_kept (ordered : Ordered before) (move : Move media prefetch before after)
    {arrived coming : Int} (passing : arrived ∈ before.passing) (ahead : coming ∈ before.ahead) :
    arrived < coming ∨ arrived = coming ∧ coming ∈ after.pool := by
  rcases ordered.apart arrived passing coming ahead with less | ⟨same, pooled⟩
  · exact .inl less
  · rcases pool_kept move pooled with still | finished
    · exact .inr ⟨same, still⟩
    · exact absurd (ordered.finished coming coming finished coming ahead) (Int.lt_irrefl coming)

/-- Without seeks every move keeps the order: a track goes to the end of the next place, or out of
the way. -/
theorem Ordered.move (ordered : Ordered before) (move : Move media prefetch before after) :
    Ordered after := by
  have passing := passing_cases move
  refine ⟨ordered.issued.move move, ?_, ?_, ?_, ?_, ?_, ?_, ?_, ?_,
    queued_suffix move ordered.queued⟩
  · rw [List.eq_nil_iff_forall_not_mem]
    intro urlId present
    have known := move.seeks_known present
    simp [ordered.seeks] at known
  · rcases ahead_cases move ordered.seeks with fewer | joined
    · exact ordered.ahead.sublist fewer
    · rw [joined, List.pairwise_append]
      refine ⟨ordered.ahead, List.pairwise_singleton _ _, ?_⟩
      rintro urlId present last member
      exact List.mem_singleton.mp member ▸ ordered.below (.inl present)
  · rcases passing with same | ⟨urlId, rest, first, fresh, pooled, still, joined⟩
    · rw [same]
      exact ordered.passing
    · rw [joined, List.pairwise_append]
      refine ⟨ordered.passing, List.pairwise_singleton _ _, ?_⟩
      rintro arrived present last member
      obtain rfl := List.mem_singleton.mp member
      -- A track on both ways has a decoder already.
      rcases ordered.apart arrived present last (Flow.mem_ahead.mpr (.inl (by simp [first])))
        with less | ⟨_, ready⟩
      · exact less
      · exact absurd ready fresh
  · intro arrived arrives coming comes
    rcases passing with same | ⟨urlId, rest, first, fresh, pooled, still, joined⟩
    · rw [same] at arrives
      rcases ahead_cases move ordered.seeks with fewer | joins
      · exact ordered.apart_kept move arrives (fewer.subset comes)
      · rw [joins] at comes
        rcases List.mem_append.mp comes with known | last
        · exact ordered.apart_kept move arrives known
        · exact .inl (List.mem_singleton.mp last ▸ ordered.below (.inr arrives))
    · rw [still] at comes
      rw [joined] at arrives
      rcases List.mem_append.mp arrives with known | last
      · exact ordered.apart_kept move known comes
      · obtain rfl := List.mem_singleton.mp last
        rcases Int.lt_or_eq_of_le (ordered.front first coming comes) with less | same
        · exact .inl less
        · exact .inr ⟨same, same ▸ pooled⟩
  · intro under urlId finished
    rcases finished_cases move finished with known | first
    · refine ordered.coming move (ordered.finished under urlId known) ?_
      exact Int.lt_add_one_of_le (ordered.issued.finished under urlId known)
    · have sorted := ordered.ahead
      rw [first, List.pairwise_cons] at sorted
      exact sorted.1
  · rcases decoded_cases move with same | ⟨urlId, rest, first, still, joined⟩
    · rw [same]
      exact ordered.decoded
    · rw [joined, List.pairwise_append]
      refine ⟨ordered.decoded, List.pairwise_singleton _ _, ?_⟩
      rintro done present last member
      obtain rfl := List.mem_singleton.mp member
      exact ordered.decoding done present last (Flow.mem_ahead.mpr (.inl (by simp [first])))
  · intro done present
    rcases decoded_cases move with same | ⟨urlId, rest, first, still, joined⟩
    · rw [same] at present
      refine ordered.coming move (ordered.decoding done present) ?_
      exact Int.le_of_lt (Int.lt_add_one_of_le (ordered.given done present))
    · rw [still]
      rw [joined] at present
      rcases List.mem_append.mp present with known | last
      · exact ordered.decoding done known
      · obtain rfl := List.mem_singleton.mp last
        exact ordered.front first
  · intro done present
    refine Int.le_trans ?_ move.counter_le
    rcases move.decoded_known present with known | ahead
    · exact ordered.given done known
    · exact Int.le_of_lt_add_one (ordered.below (.inl ahead))

/-- A request other than a seek moves no track. -/
theorem request_ordered {state : State} (ordered : Ordered (flow state)) {request : Request}
    (noSeek : ∀ urlId, request ≠ .seekDuration urlId) : Ordered (flow (state.request request)) := by
  have issued := StopStart.request_issued ordered.issued request
  have same : flow (state.request request) = { flow state with
      starts := (flow (state.request request)).starts
      stops := (flow (state.request request)).stops } := by
    cases request with
    | seekDuration urlId => exact absurd rfl (noSeek urlId)
    | stop | startPlay found =>
      simp [flow, State.request, State.postPlaylist, StopStart.pendingSeeks,
        StopStart.playlistSoughtId, StopStart.isFailure, StopStart.handedId,
        StopStart.announcedId, List.filterMap_cons]
  rw [same] at issued ⊢
  exact { ordered with issued := issued }

/-- A step of the player, or a request other than a seek. -/
def NoSeek : Request ⊕ Action → Prop
  | .inl (.seekDuration _) => False
  | _ => True

instance : (action : Request ⊕ Action) → Decidable (NoSeek action)
  | .inl (.seekDuration _) => isFalse not_false
  | .inl .stop | .inl (.startPlay _) | .inr _ => isTrue trivial

/-- So does every step of the player and of its user. -/
theorem step_ordered (before : State) (action : Request ⊕ Action) (next : State)
    (ordered : Ordered (flow before)) (noSeek : NoSeek action)
    (taken : stepWithUser media before action = some next) : Ordered (flow next) := by
  cases action with
  | inl request =>
    obtain rfl := Option.some.inj taken
    refine request_ordered ordered ?_
    rintro urlId rfl
    exact noSeek
  | inr action =>
    have moves : Moves media (fun _ => True) (flow before) (flow next) :=
      StopStart.step_moves taken (fun _ _ _ _ _ _ _ => trivial)
    exact moves.preserve (fun _ _ => Ordered.move) ordered

/-- Nothing is on its way in the beginning. -/
theorem start_ordered (uninitialised : Uninitialised) : Ordered (flow (start uninitialised)) := by
  have nothing : LabelledRuns.run (stepWithUser StopStart.allOpen) (start uninitialised) [] =
      some (start uninitialised) := rfl
  refine ⟨StopStart.reachable_issued nothing, ?_, ?_, ?_, ?_, ?_, ?_, ?_, ?_, ?_⟩ <;>
    simp [flow, start, Flow.ahead, Flow.passing, StopStart.pendingSeeks]

/-- In every run of the player with its user in which no seek is asked for, the tracks are added
to the queue of the output plugin in the order in which the items were asked for, none twice,
and the queue holds those added last. The decoder decodes one track to its end before the
next. -/
theorem tracks_in_order {uninitialised : Uninitialised} {actions : List (Request ⊕ Action)}
    {state : State} (noSeeks : ∀ action ∈ actions, NoSeek action)
    (ran : LabelledRuns.run (stepWithUser media) (start uninitialised) actions = some state) :
    state.added.Pairwise (· < ·) ∧ state.soundDetailsQueue <:+ state.added ∧
      state.decoded.Pairwise (· ≤ ·) ∧ ∀ urlId ∈ state.added, urlId ≤ state.urlId := by
  have met : LabelledRuns.Meets (stepWithUser media) (fun _ action => NoSeek action)
      (start uninitialised) actions := LabelledRuns.meets_of_labels _ actions noSeeks
  have ordered := LabelledRuns.run_preserves_under step_ordered (start_ordered uninitialised) met
    ran
  have passing := ordered.passing
  rw [Flow.passing, List.append_assoc, List.pairwise_append] at passing
  refine ⟨passing.1, ordered.queued, ordered.decoded, fun urlId present => ?_⟩
  refine Int.le_of_lt_add_one (ordered.below (.inr ?_))
  exact Flow.mem_passing.mpr (.inl present)

/-- A first item is played near to its end and a second one is added. -/
def playBoth : List (Request ⊕ Action) :=
  StopStart.prefetchSecond ++ [.inr StopStart.onDecoder, .inr StopStart.onDecoder,
    .inr StopStart.onPlaylist, .inr .output]

/-- Two items are played one after the other, and come into the queue in this order. -/
theorem tracks_in_order_both : ∃ finish,
    LabelledRuns.run (stepWithUser StopStart.allOpen) (start StopStart.allStopped) playBoth =
        some finish ∧
      finish.added = [1, 2] ∧ finish.added.Pairwise (· < ·) := by
  refine ⟨_, rfl, rfl, ?_⟩
  exact (tracks_in_order (by decide : ∀ action ∈ playBoth, NoSeek action)
    (show LabelledRuns.run (stepWithUser StopStart.allOpen) (start StopStart.allStopped) playBoth =
      some _ from rfl)).1

end Mprt.TrackOrder
