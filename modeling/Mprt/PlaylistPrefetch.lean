import Mprt.LabelledRuns
import Mprt.PlaylistAgreement
import Mprt.PlaylistHandOver

/-!
# How often the next item is handed over

An item that is handed to the input plugin gets a url id, so each playing of an
item has its own. Output plugins report positions under that id. Near the end of
a playing the item that follows should be handed over, once for this playing.

One number and one flag stand for all the reports that have come. They say
whether a report near the end has come among the last reports, those since a
report was about another item, and so they are about an item and not about a
playing of it. A report is answered as it should exactly when its playing was
reported near the end before if and only if its item was among the last reports.
Both are read off the reports themselves, which are recorded beside the state.
-/

namespace Mprt.PlaylistPrefetch

open PlaylistManagement

/-- The playlist and the item of a report near the end of a playing. -/
def nearEnd (state : PlaylistManagement) (urlId currentPositionMs : Int) :
    Option (Playlist × PlaylistItem) :=
  match state.playlistList.lookup state.currentPlayingListId with
  | none => none
  | some list =>
      match list.getPlaylistItemWithUrlId urlId with
      | none => none
      | some item =>
          if item.duration - 1000 * currentPositionMs ≤ 1000 * state.minWaitNextSong then
            some (list, item)
          else none

/-- The plugin has added the next item of this item. -/
def Added (state : PlaylistManagement) (playlistItemId : Int) : Prop :=
  state.currentPlayingItemId = playlistItemId ∧ state.addedNextSong = true

instance (state : PlaylistManagement) (playlistItemId : Int) :
    Decidable (Added state playlistItemId) := inferInstanceAs (Decidable (_ ∧ _))

/-- A report of an output about an item of the current playlist. -/
structure Report where
  playlistItemId : Int
  nearEnd : Bool
deriving DecidableEq

/-- The report that a position of a playing is. -/
def reportAt (state : PlaylistManagement) (urlId currentPositionMs : Int) : Option Report :=
  match state.playlistList.lookup state.currentPlayingListId with
  | none => none
  | some list =>
      (list.getPlaylistItemWithUrlId urlId).map (fun item =>
        ⟨item.playlistItemId, item.duration - 1000 * currentPositionMs ≤
          1000 * state.minWaitNextSong⟩)

/-- Among the reports, the newest of which comes first, one of those since the last about
another item is near the end of this one. -/
def Covered (reports : List Report) (playlistItemId : Int) : Prop :=
  ∃ report ∈ reports.takeWhile (fun report => report.playlistItemId = playlistItemId),
    report.nearEnd = true

instance (reports : List Report) (playlistItemId : Int) :
    Decidable (Covered reports playlistItemId) := inferInstanceAs (Decidable (∃ _ ∈ _, _))

/-- The state with its history: the reports that were about items of the current playlist,
the newest first, each playing that was reported near its end, with what handing over the
item after it is, and what progress reports have handed over. -/
structure Prefetching where
  state : PlaylistManagement
  reports : List Report
  near : List (Int × List Event)
  handed : List Event

/-- The history starts empty. A state that has added the next song already starts as if
its current item had been reported near the end. -/
def begun (start : PlaylistManagement) : Prefetching where
  state := start
  reports := if start.addedNextSong then [⟨start.currentPlayingItemId, true⟩] else []
  near := []
  handed := []

/-- Requests to play an item, and reports of output plugins. -/
inductive PlayJob where
  | startPlay (playlistId playlistItemId : Int)
  | progress (urlId currentPositionMs : Int)
deriving DecidableEq

/-- The first report near the end of a playing is entered. -/
def enter (playing : Prefetching) (urlId currentPositionMs : Int) : List (Int × List Event) :=
  match nearEnd playing.state urlId currentPositionMs with
  | none => playing.near
  | some (list, item) =>
      if urlId ∈ playing.near.map Prod.fst then playing.near
      else playing.near ++
        [(urlId, playing.state.handOverOf list (list.successor item.playlistItemId))]

def step (playing : Prefetching) : PlayJob → Option Prefetching
  | .startPlay playlistId playlistItemId =>
      some { playing with state := playing.state.startPlayInternal playlistId playlistItemId }
  | .progress urlId currentPositionMs =>
      let after := playing.state.progress urlId currentPositionMs
      some ⟨after, (reportAt playing.state urlId currentPositionMs).toList ++ playing.reports,
        enter playing urlId currentPositionMs,
        playing.handed ++ handOvers (after.events.drop playing.state.events.length)⟩

/-- Every playing that was reported near its end has had the item after it handed
over once, and nothing else was handed over by a report. -/
def Once (playing : Prefetching) : Prop :=
  (playing.near.map Prod.fst).Nodup ∧ playing.handed = playing.near.flatMap Prod.snd

/-- Where a report is near the end and there is a next item, its playing was reported
near the end before exactly if its item was among the last reports. -/
def SeenAlike (playing : Prefetching) : PlayJob → Prop
  | .startPlay _ _ => True
  | .progress urlId currentPositionMs =>
      match nearEnd playing.state urlId currentPositionMs with
      | none => True
      | some (list, item) =>
          (list.successor item.playlistItemId).isSome = true →
            (urlId ∈ playing.near.map Prod.fst ↔ Covered playing.reports item.playlistItemId)

instance (playing : Prefetching) : (job : PlayJob) → Decidable (SeenAlike playing job)
  | .startPlay _ _ => inferInstanceAs (Decidable True)
  | .progress urlId currentPositionMs =>
      match near : nearEnd playing.state urlId currentPositionMs with
      | none => decidable_of_iff True (by simp only [SeenAlike, near])
      | some (list, item) =>
          decidable_of_iff ((list.successor item.playlistItemId).isSome = true →
              (urlId ∈ playing.near.map Prod.fst ↔
                Covered playing.reports item.playlistItemId))
            (by simp only [SeenAlike, near])

/-! ## One report -/

/-- The hand-over of the item after the reported one. -/
theorem addNextSong_events {state : PlaylistManagement} {list : Playlist}
    (found : state.playlistList.lookup state.currentPlayingListId = some list) :
    state.addNextSong.events =
      state.events ++ state.handOverOf list (list.successor state.currentPlayingItemId) := by
  have next : state.getNextPlaylistItemId = list.getNextItemId state.currentPlayingItemId := by
    simp only [getNextPlaylistItemId, found]
  have played := (contPlayInternal_effect found state.getNextPlaylistItemId).1
  rw [next, list.find_next] at played
  simp only [addNextSong, next]
  exact played

/-- The current item after a report is the reported one, and the flag is kept only
if it was so before. -/
theorem reportItem_effect (state : PlaylistManagement) (item : PlaylistItem) :
    (state.reportItem item.playlistItemId).currentPlayingItemId = item.playlistItemId ∧
      ((state.reportItem item.playlistItemId).addedNextSong = false ↔
        ¬ Added state item.playlistItemId) ∧
      (state.reportItem item.playlistItemId).playlistList = state.playlistList ∧
      (state.reportItem item.playlistItemId).currentPlayingListId = state.currentPlayingListId ∧
      (state.reportItem item.playlistItemId).minWaitNextSong = state.minWaitNextSong ∧
      (state.reportItem item.playlistItemId).inputUrlId = state.inputUrlId ∧
      (state.reportItem item.playlistItemId).events = state.events := by
  unfold reportItem Added
  by_cases other : item.playlistItemId ≠ state.currentPlayingItemId
  · rw [if_pos other]
    refine ⟨rfl, ?_, rfl, rfl, rfl, rfl, rfl⟩
    simp [other.symm]
  · rw [if_neg other]
    have same : state.currentPlayingItemId = item.playlistItemId := (Classical.not_not.mp other).symm
    refine ⟨same, ?_, rfl, rfl, rfl, rfl, rfl⟩
    simp [same]

/-- The state that has called back with the position of the reported item, which is
the current one from then on. -/
def reported (state : PlaylistManagement) (item : PlaylistItem) (currentPositionMs : Int) :
    PlaylistManagement :=
  (state.emit [.progressPlaylistItemCb state.currentPlayingListId item.playlistItemId
    currentPositionMs]).reportItem item.playlistItemId

/-- A report of an item of the current playlist, by whether it is near the end. -/
theorem progress_found {state : PlaylistManagement} {list : Playlist} {item : PlaylistItem}
    {urlId : Int} (found : state.playlistList.lookup state.currentPlayingListId = some list)
    (played : list.getPlaylistItemWithUrlId urlId = some item) (currentPositionMs : Int) :
    state.progress urlId currentPositionMs =
        (if item.duration - 1000 * currentPositionMs ≤ 1000 * state.minWaitNextSong ∧
            ¬ Added state item.playlistItemId then
            (reported state item currentPositionMs).addNextSong
          else reported state item currentPositionMs) ∧
      nearEnd state urlId currentPositionMs =
        (if item.duration - 1000 * currentPositionMs ≤ 1000 * state.minWaitNextSong then
          some (list, item) else none) := by
  obtain ⟨_, added, _, _, wait, _⟩ := reportItem_effect (state.emit
    [.progressPlaylistItemCb state.currentPlayingListId item.playlistItemId currentPositionMs]) item
  constructor
  · rw [progress]
    simp only [found, played, wait, added]
    rfl
  · simp only [nearEnd, found, played]

/-- What a report hands over. -/
theorem progress_events (state : PlaylistManagement) (urlId currentPositionMs : Int) :
    ∃ new, (state.progress urlId currentPositionMs).events = state.events ++ new ∧
      handOvers new =
        match nearEnd state urlId currentPositionMs with
        | none => []
        | some (list, item) =>
            if Added state item.playlistItemId then []
            else state.handOverOf list (list.successor item.playlistItemId) := by
  cases found : state.playlistList.lookup state.currentPlayingListId with
  | none =>
    refine ⟨[], ?_, ?_⟩
    · simp only [progress, found, List.append_nil]
    · simp only [nearEnd, found]
      rfl
  | some list =>
    cases played : list.getPlaylistItemWithUrlId urlId with
    | none =>
      refine ⟨[], ?_, ?_⟩
      · simp only [progress, found, played, List.append_nil]
      · simp only [nearEnd, found, played]
        rfl
    | some item =>
      obtain ⟨progressed, near⟩ := progress_found found played currentPositionMs
      obtain ⟨current, _, lists, listId, _, urlIds, events⟩ := reportItem_effect (state.emit
        [.progressPlaylistItemCb state.currentPlayingListId item.playlistItemId
          currentPositionMs]) item
      have reportedEvents : (reported state item currentPositionMs).events = state.events ++
          [.progressPlaylistItemCb state.currentPlayingListId item.playlistItemId
            currentPositionMs] := events
      rw [progressed, near]
      by_cases atEnd : item.duration - 1000 * currentPositionMs ≤ 1000 * state.minWaitNextSong
      · by_cases added : Added state item.playlistItemId
        · rw [if_neg (fun both => both.2 added), if_pos atEnd]
          refine ⟨_, reportedEvents, ?_⟩
          simp only [if_pos added]
          rfl
        · rw [if_pos ⟨atEnd, added⟩, if_pos atEnd]
          have foundThen : (reported state item currentPositionMs).playlistList.lookup
              (reported state item currentPositionMs).currentPlayingListId = some list := by
            rw [reported, lists, listId]
            exact found
          have handed := addNextSong_events foundThen
          have nextItem : (reported state item currentPositionMs).currentPlayingItemId =
              item.playlistItemId := current
          have sameHandOver : ∀ next, (reported state item currentPositionMs).handOverOf list next =
              state.handOverOf list next := by
            intro next
            cases next with
            | none => rfl
            | some next =>
              simp only [handOverOf, handOver, reported, urlIds, listId]
              rfl
          rw [nextItem, reportedEvents, sameHandOver, List.append_assoc] at handed
          refine ⟨_, handed, ?_⟩
          simp only [if_neg added]
          rw [handOvers_append, handOvers_handOverOf]
          rfl
      · rw [if_neg (fun both => atEnd both.1), if_neg atEnd]
        exact ⟨_, reportedEvents, rfl⟩

/-- A ledger with one more report: the hand-overs fit the entries exactly when the
playing was entered before if and only if nothing is handed over for it now. -/
theorem entered_fits_iff {near : List (Int × List Event)} (distinct : (near.map Prod.fst).Nodup)
    (urlId : Int) (next : List Event) (added : Prop) [Decidable added] :
    (((if urlId ∈ near.map Prod.fst then near else near ++ [(urlId, next)]).map Prod.fst).Nodup ∧
        near.flatMap Prod.snd ++ (if added then [] else next) =
          (if urlId ∈ near.map Prod.fst then near else near ++ [(urlId, next)]).flatMap Prod.snd) ↔
      (next ≠ [] → (urlId ∈ near.map Prod.fst ↔ added)) := by
  have longer : urlId ∉ near.map Prod.fst → ((near ++ [(urlId, next)]).map Prod.fst).Nodup := by
    intro unknown
    rw [List.map_append, List.nodup_append]
    refine ⟨distinct, List.nodup_singleton _, ?_⟩
    intro other member own single same
    obtain rfl := List.mem_singleton.mp single
    exact unknown (same ▸ member)
  by_cases known : urlId ∈ near.map Prod.fst
  · rw [if_pos known]
    by_cases before : added
    · rw [if_pos before, List.append_nil]
      exact iff_of_true ⟨distinct, rfl⟩ (fun _ => iff_of_true known before)
    · rw [if_neg before, List.append_right_eq_self]
      constructor
      · intro both tracks
        exact absurd both.2 tracks
      · intro agree
        refine ⟨distinct, ?_⟩
        by_contra tracks
        exact before ((agree tracks).mp known)
  · rw [if_neg known, List.flatMap_append, List.flatMap_singleton]
    by_cases before : added
    · rw [if_pos before, List.append_nil, List.self_eq_append_right]
      constructor
      · intro both tracks
        exact absurd both.2 tracks
      · intro agree
        refine ⟨longer known, ?_⟩
        by_contra tracks
        exact known ((agree tracks).mpr before)
    · rw [if_neg before]
      exact iff_of_true ⟨longer known, rfl⟩ (fun _ => iff_of_false known before)

/-! ## What the number and the flag stand for -/

/-- The number and the flag of the plugin say of each item whether it was reported near the
end among the last reports. -/
def Linked (playing : Prefetching) : Prop :=
  ∀ playlistItemId, Added playing.state playlistItemId ↔ Covered playing.reports playlistItemId

/-- A further report covers its own item only: if it is near the end, or if the item was
covered already. -/
theorem covered_cons (report : Report) (reports : List Report) (playlistItemId : Int) :
    Covered (report :: reports) playlistItemId ↔
      report.playlistItemId = playlistItemId ∧
        (report.nearEnd = true ∨ Covered reports playlistItemId) := by
  unfold Covered
  by_cases own : report.playlistItemId = playlistItemId
  · simp [own]
  · simp [own]

theorem begun_linked (start : PlaylistManagement) : Linked (begun start) := by
  intro playlistItemId
  unfold Added begun
  cases start.addedNextSong with
  | false => simp [Covered]
  | true =>
    rw [if_pos rfl, covered_cons]
    simp

/-- A request to play leaves the number and the flag alone. -/
theorem startPlayInternal_added (state : PlaylistManagement)
    (playlistId requested playlistItemId : Int) :
    Added (state.startPlayInternal playlistId requested) playlistItemId ↔
      Added state playlistItemId := by
  cases found : state.playlistList.lookup playlistId with
  | none => simp only [startPlayInternal, found, Added]
  | some list =>
    have chosen : (state.choosePlaylist playlistId).playlistList.lookup
        (state.choosePlaylist playlistId).currentPlayingListId = some list := found
    obtain ⟨_, _, item, flag⟩ := contPlayInternal_effect chosen requested
    have sameItem : (state.startPlayInternal playlistId requested).currentPlayingItemId =
        state.currentPlayingItemId := by
      simp only [startPlayInternal, found]
      exact item
    have sameFlag : (state.startPlayInternal playlistId requested).addedNextSong =
        state.addedNextSong := by
      simp only [startPlayInternal, found]
      exact flag
    rw [Added, Added, sameItem, sameFlag]

/-- Adding the next song sets the flag for the current item. -/
theorem addNextSong_added (state : PlaylistManagement) (playlistItemId : Int) :
    Added state.addNextSong playlistItemId ↔ state.currentPlayingItemId = playlistItemId := by
  have item : state.addNextSong.currentPlayingItemId = state.currentPlayingItemId := by
    cases found : state.playlistList.lookup state.currentPlayingListId with
    | none => simp only [addNextSong, contPlayInternal, found]
    | some list => exact (contPlayInternal_effect found state.getNextPlaylistItemId).2.2.1
  have flag : state.addNextSong.addedNextSong = true := rfl
  simp only [Added, item, flag, and_true]

/-- What the number and the flag say after a report: of its item as the report makes it,
of the others nothing. -/
theorem progress_added (state : PlaylistManagement)
    (urlId currentPositionMs playlistItemId : Int) :
    Added (state.progress urlId currentPositionMs) playlistItemId ↔
      match reportAt state urlId currentPositionMs with
      | none => Added state playlistItemId
      | some report => report.playlistItemId = playlistItemId ∧
          (report.nearEnd = true ∨ Added state playlistItemId) := by
  cases found : state.playlistList.lookup state.currentPlayingListId with
  | none => simp only [progress, reportAt, found]
  | some list =>
    cases played : list.getPlaylistItemWithUrlId urlId with
    | none => simp only [progress, reportAt, found, played, Option.map_none]
    | some item =>
      obtain ⟨progressed, _⟩ := progress_found found played currentPositionMs
      obtain ⟨current, added, _⟩ := reportItem_effect (state.emit
        [.progressPlaylistItemCb state.currentPlayingListId item.playlistItemId
          currentPositionMs]) item
      have sameItem : (reported state item currentPositionMs).currentPlayingItemId =
          item.playlistItemId := current
      have sameFlag : (reported state item currentPositionMs).addedNextSong = true ↔
          Added state item.playlistItemId := by
        rw [← Bool.not_eq_false, ← Classical.not_not (a := Added state item.playlistItemId)]
        exact not_congr added
      rw [progressed]
      simp only [reportAt, found, played, Option.map_some, decide_eq_true_eq]
      by_cases atEnd : item.duration - 1000 * currentPositionMs ≤ 1000 * state.minWaitNextSong
      · by_cases before : Added state item.playlistItemId
        · rw [if_neg (fun both => both.2 before), Added, sameItem, sameFlag]
          simp only [atEnd, before, true_or, and_true]
        · rw [if_pos ⟨atEnd, before⟩, addNextSong_added, sameItem]
          simp only [atEnd, true_or, and_true]
      · rw [if_neg (fun both => atEnd both.1), Added, sameItem, sameFlag]
        simp only [atEnd, false_or]
        exact and_congr_right (fun same => by rw [same])

/-- Every job keeps the number and the flag linked to the reports. -/
theorem step_linked (before : Prefetching) (job : PlayJob) (after : Prefetching)
    (linked : Linked before) (stepped : step before job = some after) : Linked after := by
  intro playlistItemId
  cases job with
  | startPlay playlistId requested =>
    obtain rfl := Option.some.inj stepped
    exact (startPlayInternal_added before.state playlistId requested playlistItemId).trans
      (linked playlistItemId)
  | progress urlId currentPositionMs =>
    obtain rfl := Option.some.inj stepped
    refine (progress_added before.state urlId currentPositionMs playlistItemId).trans ?_
    cases reportAt before.state urlId currentPositionMs with
    | none => exact linked playlistItemId
    | some report =>
      refine Iff.trans ?_ (covered_cons report before.reports playlistItemId).symm
      exact and_congr_right (fun _ => or_congr_right (linked playlistItemId))

/-! ## Runs -/

/-- What holds between two jobs of a run that has been right so far. -/
structure Invariant (playing : Prefetching) : Prop where
  once : Once playing
  linked : Linked playing

/-- One job keeps the hand-overs right exactly when its item and its playing were seen
near the end alike. -/
theorem step_once_iff (before : Prefetching) (job : PlayJob) (after : Prefetching)
    (invariant : Invariant before) (stepped : step before job = some after) :
    Once after ↔ SeenAlike before job := by
  obtain ⟨⟨distinct, handed⟩, linked⟩ := invariant
  cases job with
  | startPlay playlistId playlistItemId =>
    obtain rfl := Option.some.inj stepped
    exact iff_of_true ⟨distinct, handed⟩ trivial
  | progress urlId currentPositionMs =>
    obtain rfl := Option.some.inj stepped
    obtain ⟨new, events, handedNew⟩ := progress_events before.state urlId currentPositionMs
    have dropped : ((before.state.progress urlId currentPositionMs).events.drop
        before.state.events.length) = new := by
      rw [events, List.drop_left]
    simp only [Once, enter, SeenAlike, dropped, handedNew]
    cases nearEnd before.state urlId currentPositionMs with
    | none =>
      simp only [List.append_nil]
      exact iff_of_true ⟨distinct, handed⟩ trivial
    | some pair =>
      obtain ⟨list, item⟩ := pair
      have something : before.state.handOverOf list (list.successor item.playlistItemId) ≠ [] ↔
          (list.successor item.playlistItemId).isSome = true := by
        cases list.successor item.playlistItemId with
        | none => simp [handOverOf]
        | some next => simp [handOverOf, handOver]
      simp only [handed]
      rw [← something, ← linked item.playlistItemId]
      exact entered_fits_iff distinct urlId _ (Added before.state item.playlistItemId)

/-- Files of one minute. -/
def minuteFiles : FileSystem :=
  { PlaylistAgreement.titledFiles with
    readMetadata := fun _ => some ⟨[("Duration(ms)", "60000")], [], by
      intro text found
      obtain rfl := Option.some.inj found
      decide⟩ }

/-- A playlist of three items, of which none has been played. -/
def threeMinutes : PlaylistManagement :=
  let made := PlaylistManagement.new ⟨.stop, -1, -1⟩ 10000
  (made.addPlaylist minuteFiles "" none).addPlaylistItemsInternal minuteFiles 0 (-1)
    (some ["a", "b", "c"])

/-- Two items are played one after the other, with two reports near the end of each. -/
def oneAfterAnother : List PlayJob :=
  [.startPlay 0 0, .progress 1 1000, .progress 1 55000, .progress 1 57000, .progress 2 1000,
    .progress 2 51000, .progress 2 30000, .progress 2 58000]

end Mprt.PlaylistPrefetch
