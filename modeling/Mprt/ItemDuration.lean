import Mathlib.Data.List.Induction
import Mprt.ShownTags

/-!
# The duration of an item

The progress bar takes the duration of an item from the view: it finds the row of the item and
reads the text in the column of the duration. The plugin reports the duration too, from the tag of
the item, when it starts it. The two are the same, whatever was moved, removed or added between
them, as long as no other tag comes with the caption of the duration.
-/

namespace Mprt

namespace PlaylistView

/-- `get_duration_ms`, with what Qt makes of a text as a number. -/
def getDurationMs (toLongLong : String → Option Int) (view : PlaylistView)
    (playlistItemId : Int) : Int :=
  match view.getItemRow playlistItemId with
  | none => -1
  | some itemRow =>
      match view.tableHeaders.lookup audioPropDurationMs with
      | none => -1
      | some col =>
          let text := (view.rows[itemRow]?).bind (fun row => (row.texts[col]?).join)
          (text.bind toLongLong).getD (-1)

end PlaylistView

def PlaylistTabwidget.getDurationMs (toLongLong : String → Option Int)
    (widget : PlaylistTabwidget) (playlistId playlistItemId : Int) : Int :=
  match widget.playlistViews.lookup playlistId with
  | none => -1
  | some view => view.getDurationMs toLongLong playlistItemId

namespace ItemDuration

open PlaylistManagement ShownTags

/-- The tags are a map, and only the duration is shown as the duration. -/
structure OwnCaption (display : Display) (tags : List (String × String)) : Prop where
  distinct : (tags.map Prod.fst).Nodup
  own : ∀ tag ∈ tags, display.caption tag.1 = audioPropDurationMs ↔ tag.1 = audioPropDurationMs

section Cells

variable {display : Display} {tags : List (String × String)}

/-- The duration is shown as it was read. -/
theorem OwnCaption.tagText_eq (caption : OwnCaption display tags) :
    tagText display tags audioPropDurationMs = tags.lookup audioPropDurationMs := by
  obtain ⟨distinct, own⟩ := caption
  induction tags using List.reverseRecOn with
  | nil => rfl
  | append_singleton earlier tag inductionHypothesis =>
    rw [List.map_append, List.nodup_append] at distinct
    have shown := inductionHypothesis distinct.1
      (fun other member => own other (List.mem_append_left _ member))
    have last := own tag (List.mem_append_right _ (List.mem_singleton_self tag))
    rw [RowBuild.tagText_snoc, List.lookup_append, shown]
    by_cases same : tag.1 = audioPropDurationMs
    · have none : earlier.lookup audioPropDurationMs = none := by
        rw [List.lookup_eq_none_iff]
        intro other member
        have apart := distinct.2.2 other.1 (List.mem_map_of_mem member) tag.1
          (List.mem_singleton_self tag.1)
        rw [same] at apart
        exact bne_iff_ne.mpr apart.symm
      rw [none, if_pos ⟨by rw [same]; decide, last.mpr same⟩, List.lookup_cons, same]
      rfl
    · rw [if_neg (fun both => same (last.mp both.2)), List.lookup_cons,
        beq_eq_false_iff_ne.mpr (Ne.symm same)]
      exact (Option.or_none).symm

end Cells

/-- The text that the tags have for the duration is the number that the plugin reads, since both
come from the same metadata. -/
theorem stoll_durationMs {metadata : Metadata} {text : String}
    (tag : metadata.tags.lookup audioPropDurationMs = some text) :
    stoll text = some metadata.durationMs := by
  rw [Metadata.durationMs]
  split
  · rename_i none
    rw [tag] at none
    cases none
  · rename_i other found
    obtain rfl := Option.some.inj (tag.symm.trans found)
    exact (Option.some_get _).symm

section Views

variable {display : Display} {view : PlaylistView} {item : PlaylistItem} {metadata : Metadata}

/-- The view finds the row of an item, and in it the text of the duration. -/
theorem getDurationMs_eq (indexed : view.Indexed) (there : item.playlistItemId ∈ view.itemIds)
    (read : item.metadata = some metadata)
    (shows : ∀ row ∈ view.rows, row.playlistItemId = item.playlistItemId →
      PlaylistView.ShowsTags display view.tableHeaders item row)
    (toLongLong : String → Option Int) :
    view.getDurationMs toLongLong item.playlistItemId =
      ((tagText display metadata.tags audioPropDurationMs).bind toLongLong).getD (-1) := by
  have inside := List.idxOf_lt_length_of_mem there
  obtain ⟨row, at_row, named⟩ : ∃ row,
      view.rows[view.itemIds.idxOf item.playlistItemId]? = some row ∧
        row.playlistItemId = item.playlistItemId := by
    have at_id := List.getElem?_eq_getElem inside
    rw [List.getElem_idxOf inside, PlaylistView.itemIds, List.getElem?_map] at at_id
    exact Option.map_eq_some_iff.mp at_id
  obtain ⟨own, same, cells⟩ := (shows row (List.mem_of_getElem? at_row) named).read
  obtain rfl := Option.some.inj (read.symm.trans same)
  have cell := cells audioPropDurationMs (by decide) (by decide)
  rw [PlaylistView.getDurationMs, indexed.getItemRow_eq, KeyedSequence.idxOf?_of_mem there,
    ← cell, RowBuild.cellText]
  simp only [at_row, Option.bind_some]
  cases view.tableHeaders.lookup audioPropDurationMs with
  | none => rfl
  | some col => rfl

end Views

/-! ## The reports of the plugin -/

/-- A report that an item starts is about an item of a playlist, with its duration. -/
def Reports (state : PlaylistManagement) (event : Event) : Prop :=
  ∀ playlistId playlistItemId duration,
    event = .startPlaylistItemCb playlistId playlistItemId duration →
      ∃ list, state.playlistList.lookup playlistId = some list ∧
        ∃ item ∈ list.playlist.items, item.playlistItemId = playlistItemId ∧
          duration = (item.metadata.map Metadata.durationMs).getD 0

/-- The items that have started were announced, with the durations that were reported. -/
def Reported (state : PlaylistManagement) : Prop :=
  ∀ playlistId playlistItemId duration,
    .startPlaylistItemCb playlistId playlistItemId duration ∈ state.events →
      ∃ item ∈ state.events.flatMap (announced playlistId), item.playlistItemId = playlistItemId ∧
        duration = (item.metadata.map Metadata.durationMs).getD 0

section Reports

variable {before middle after : PlaylistManagement} {event : Event}

/-- A call of another plugin reports no item. -/
theorem reports_of_isCall (state : PlaylistManagement) (call : isCall event = true) :
    Reports state event := by
  rintro playlistId playlistItemId duration rfl
  cases call

/-- What is reported of an item that was there before. -/
theorem Reports.earlier (still : Still before after) (reports : Reports after event) :
    Reports before event := by
  intro playlistId playlistItemId duration same
  obtain ⟨list, found, item, member, named, time⟩ :=
    reports playlistId playlistItemId duration same
  obtain ⟨earlier, foundEarlier, grown⟩ := still.lists playlistId list found
  obtain ⟨old, there, recorded⟩ := grown.items item member
  rw [List.append_nil] at there
  have metadata : old.metadata = item.metadata := congrArg Prod.snd recorded
  refine ⟨earlier, foundEarlier, old, there, ?_, ?_⟩
  · exact (congrArg Prod.fst recorded).trans named
  · rw [metadata]
    exact time

/-- Every item whose start is told in a part of a job is an item of the current playlist, with its
duration. -/
theorem playing_reports (path : Playing before after) :
    ∃ more, after.events = before.events ++ more ∧ ∀ event ∈ more, Reports before event := by
  induction path with
  | tells told _ progress =>
    exact ⟨_, told.events, fun event member =>
      reports_of_isCall _ (isCall_of_progress (progress event member))⟩
  | @plays state list playlistItemId item found there =>
    refine ⟨_, playItem_events state list playlistItemId item, fun event member => ?_⟩
    rintro playlistId id duration rfl
    simp only [List.mem_cons, reduceCtorEq, List.not_mem_nil, or_false, false_or,
      Event.startPlaylistItemCb.injEq] at member
    obtain ⟨rfl, rfl, rfl⟩ := member
    exact ⟨list, found, item, List.mem_of_getElem? there, KeyedSequence.find_key there, rfl⟩
  | trans first _ early late =>
    obtain ⟨some, events, reports⟩ := early
    obtain ⟨rest, further, reportsLate⟩ := late
    refine ⟨some ++ rest, by rw [further, events, List.append_assoc], fun event member => ?_⟩
    rcases List.mem_append.mp member with inFirst | inSecond
    · exact reports event inFirst
    · exact (reportsLate event inSecond).earlier (playing_still first)

/-- A job reports items that were there when it began. -/
theorem step_reports {job : Job} (stepped : before.step job = some after) :
    ∃ more, after.events = before.events ++ more ∧ ∀ event ∈ more, Reports before event := by
  have single {next : PlaylistManagement} (event : Event)
      (events : next.events = before.events ++ [event]) (other : ∀ playlistId playlistItemId
        duration, event ≠ .startPlaylistItemCb playlistId playlistItemId duration) :
      ∃ more, next.events = before.events ++ more ∧ ∀ event ∈ more, Reports before event := by
    refine ⟨[event], events, fun told member => ?_⟩
    rintro playlistId playlistItemId duration rfl
    exact absurd (List.mem_singleton.mp member).symm (other _ _ _)
  cases step_effect stepped with
  | @plays _ _ _ told _ announces calls path =>
    obtain ⟨later, further, reports⟩ := playing_reports path
    refine ⟨told ++ later, ?_, fun event member => ?_⟩
    · rw [further, announces.events, List.append_assoc]
    · rcases List.mem_append.mp member with inTold | inLater
      · exact reports_of_isCall _ (calls event inTold)
      · exact (reports event inLater).earlier (told_still announces calls)
  | asksSeek | answersSeek | movesItem | removesItem | renames | removesPlaylist =>
    exact single _ rfl (fun _ _ _ same => by cases same)
  | addsItems _ found =>
    refine ⟨_, rfl, fun event member => ?_⟩
    rintro playlistId playlistItemId duration rfl
    rw [called] at member
    split at member <;> simp at member
  | missesItem => exact ⟨[], (List.append_nil _).symm,
    fun _ member => absurd member List.not_mem_nil⟩
  | addsPlaylist =>
    refine ⟨[_, _], rfl, fun event member => ?_⟩
    rintro playlistId playlistItemId duration rfl
    simp at member

/-- A job keeps that the items that have started were announced, with the durations that were
reported for them. -/
theorem Reported.step {job : Job} (recorded : Recorded before) (reported : Reported before)
    (stepped : before.step job = some after) : Reported after := by
  obtain ⟨more, events, reports⟩ := step_reports stepped
  intro playlistId playlistItemId duration member
  rw [events, List.flatMap_append]
  rw [events, List.mem_append] at member
  rcases member with early | late
  · obtain ⟨item, told, named⟩ := reported playlistId playlistItemId duration early
    exact ⟨item, List.mem_append_left _ told, named⟩
  · obtain ⟨list, found, item, inList, named, time⟩ := reports _ late _ _ _ rfl
    obtain ⟨old, told, same⟩ := recorded.listed playlistId list found item inList
    have metadata : old.metadata = item.metadata := congrArg Prod.snd same
    refine ⟨old, List.mem_append_left _ told, (congrArg Prod.fst same).trans named, ?_⟩
    rw [metadata]
    exact time

end Reports

/-! ## Runs -/

section Runs

variable {display : Display} {window next : PlaylistDeletion.PlaylistWindow display}

/-- However few callbacks are handled, the rows of the views are found by their ids. -/
def PrefixIndexed (display : Display) (state : PlaylistManagement) : Prop :=
  ∀ handled shown,
    PlaylistTabwidget.receiveAll display ⟨∅⟩ (state.events.take handled) = some shown →
      PlaylistAgreement.AllIndexed shown

/-- A job calls back at most once for rows, so a view that has handled some of the callbacks has
the rows of before the job or of after it. -/
theorem PrefixIndexed.step {before after : PlaylistManagement}
    {job : PlaylistAgreement.DisplayedJob display} (holds : PlaylistContents.Holds display before)
    (indexed : PrefixIndexed display before)
    (ran : PlaylistAgreement.stepDisplayed display before job = some after) :
    PrefixIndexed display after := by
  obtain ⟨all, new, events, single⟩ := PlaylistContents.step_answered holds ran
  intro handled shown received
  rcases PlaylistDeletion.receiveAll_take events single received with ⟨earlier, before⟩ | whole
  · exact indexed earlier shown before
  · obtain ⟨other, handledAll, indexedAll, _⟩ := all
    obtain rfl := Option.some.inj (whole.symm.trans handledAll)
    exact indexedAll

/-- What holds of the plugin and its callbacks between two steps. -/
structure Consistent (window : PlaylistDeletion.PlaylistWindow display) : Prop where
  invariant : PlaylistDeletion.Invariant window
  indexed : PrefixIndexed display window.core
  recorded : Recorded window.core
  reported : Reported window.core

/-- Nothing is shown and nothing has started in a new window. -/
theorem start_consistent (display : Display) (uninitialised : PlaylistManagement.Uninitialised)
    (minWaitNextSong : Int) :
    Consistent (PlaylistDeletion.start display uninitialised minWaitNextSong) where
  invariant := PlaylistDeletion.start_invariant display uninitialised minWaitNextSong
  indexed := by
    intro handled shown received
    have none : (PlaylistDeletion.start display uninitialised minWaitNextSong).core.events = [] :=
      rfl
    rw [none, List.take_nil] at received
    obtain rfl := Option.some.inj received
    exact PlaylistAgreement.none_indexed
  recorded := new_recorded uninitialised minWaitNextSong
  reported := fun _ _ _ member => absurd member List.not_mem_nil

/-- All four facts are kept by every step, each by the step lemma for it. -/
theorem Consistent.step {action : PlaylistDeletion.Action display}
    (consistent : Consistent window)
    (stepped : PlaylistDeletion.step window action = some next) : Consistent next := by
  have invariant := PlaylistDeletion.step_invariant consistent.invariant stepped
  have recorded := step_recorded consistent.recorded stepped
  rcases PlaylistDeletion.step_core stepped with same | ⟨job, ran⟩
  · refine ⟨invariant, ?_, recorded, ?_⟩
    · rw [same]
      exact consistent.indexed
    · rw [same]
      exact consistent.reported
  · exact ⟨invariant, consistent.indexed.step consistent.invariant.holds ran, recorded,
      consistent.reported.step consistent.recorded ran⟩

/-- In every run, whatever jobs and callbacks wait: the duration of an item that the widget reads
from its view is the number in the text that its tags have for it. It is the one that the plugin
reports whenever the item starts, when no other tag is shown as the duration and Qt reads the
number as the plugin does. -/
theorem durations_agree {uninitialised : PlaylistManagement.Uninitialised} {minWaitNextSong : Int}
    {actions : List (PlaylistDeletion.Action display)}
    (reached : LabelledRuns.run PlaylistDeletion.step
      (PlaylistDeletion.start display uninitialised minWaitNextSong) actions = some window)
    {playlistId : Int} {view : PlaylistView} {list : Playlist} {item : PlaylistItem}
    (shown : window.widget.playlistViews.lookup playlistId = some view)
    (found : window.core.playlistList.lookup playlistId = some list)
    (there : item.playlistItemId ∈ view.itemIds) (inList : item ∈ list.playlist.items)
    (toLongLong : String → Option Int) :
    ∃ metadata, item.metadata = some metadata ∧
      window.widget.getDurationMs toLongLong playlistId item.playlistItemId =
        ((tagText display metadata.tags audioPropDurationMs).bind toLongLong).getD (-1) ∧
      (∀ duration, .startPlaylistItemCb playlistId item.playlistItemId duration ∈
          window.core.events → duration = metadata.durationMs) ∧
      (OwnCaption display metadata.tags → ∀ text,
        metadata.tags.lookup audioPropDurationMs = some text → toLongLong text = stoll text →
          window.widget.getDurationMs toLongLong playlistId item.playlistItemId =
            metadata.durationMs) := by
  have consistent : Consistent window :=
    LabelledRuns.run_preserves (fun _ _ _ => Consistent.step)
      (start_consistent display uninitialised minWaitNextSong) reached
  have recorded := consistent.recorded
  have shows : ∀ row ∈ view.rows, row.playlistItemId = item.playlistItemId →
      PlaylistView.ShowsTags display view.tableHeaders item row := fun row inView same =>
    recorded.shows (run_celled reached playlistId view shown) found inView inList same
  obtain ⟨row, inView, named⟩ := List.mem_map.mp there
  obtain ⟨metadata, read, _⟩ := (shows row inView named).read
  have indexed := consistent.indexed window.handled window.widget consistent.invariant.widget
  have reads : window.widget.getDurationMs toLongLong playlistId item.playlistItemId =
      ((tagText display metadata.tags audioPropDurationMs).bind toLongLong).getD (-1) := by
    rw [PlaylistTabwidget.getDurationMs, shown]
    exact getDurationMs_eq (indexed playlistId view shown) there read shows toLongLong
  refine ⟨metadata, read, reads, fun duration reported => ?_, fun caption text tag same => ?_⟩
  · obtain ⟨started, told, sameId, time⟩ := consistent.reported playlistId _ duration reported
    obtain ⟨old, toldOld, record⟩ := recorded.listed playlistId list found item inList
    have ids : started.playlistItemId = old.playlistItemId :=
      sameId.trans (congrArg Prod.fst record).symm
    obtain rfl := List.inj_on_of_nodup_map (recorded.apart playlistId) told toldOld ids
    have kept : started.metadata = item.metadata := congrArg Prod.snd record
    rw [time, kept, read]
    rfl
  · rw [reads, caption.tagText_eq, tag, Option.bind_some, same, stoll_durationMs tag]
    rfl

end Runs

/-- Every file has a title and lasts for a minute. -/
def timedFiles : FileSystem :=
  { PlaylistAgreement.titledFiles with
    readMetadata := fun file => some ⟨[(audioPropDurationMs, "60000"), ("Title", file)], [], by
      intro text found
      obtain rfl := Option.some.inj found
      decide⟩ }

/-- A job whose urls are timed files. -/
def timed (job : Job) (asked : PlaylistAgreement.jobFiles job = some timedFiles) :
    PlaylistAgreement.DisplayedJob PlaylistAgreement.plainDisplay where
  job := job
  displayed := by
    intro files known file metadata read
    rw [asked] at known
    obtain rfl := Option.some.inj known
    obtain rfl := Option.some.inj read
    have named : "Title" ≠ "" ∧ PlaylistAgreement.plainDisplay.caption "Title" ≠ "Album Art" := by
      decide
    exact ⟨("Title", file), List.mem_cons_of_mem _ List.mem_cons_self, named⟩

/-- An item of a minute is added to a new playlist, shown, and played. -/
def minute : List (PlaylistDeletion.Action PlaylistAgreement.plainDisplay) :=
  [.post (timed (.addPlaylist timedFiles "" none) rfl),
    .post (timed (.addPlaylistItems timedFiles 0 (-1) (some ["a"])) rfl),
    .post (PlaylistAgreement.titled (.startPlay 0 0) (Or.inr rfl)),
    .runJob, .runJob, .runJob, .receive, .receive, .receive]

/-- The bar reads from the view what the plugin reports. -/
theorem durations_agree_minute : ∃ window,
    LabelledRuns.run PlaylistDeletion.step
        (PlaylistDeletion.start PlaylistAgreement.plainDisplay ⟨.stop, -1, -1⟩ 10000) minute =
          some window ∧
      .startPlaylistItemCb 0 0 60000 ∈ window.core.events ∧
      window.widget.getDurationMs stoll 0 0 = 60000 := by
  have run : ∃ window view list item,
      LabelledRuns.run PlaylistDeletion.step
          (PlaylistDeletion.start PlaylistAgreement.plainDisplay ⟨.stop, -1, -1⟩ 10000) minute =
            some window ∧
        window.widget.playlistViews.lookup 0 = some view ∧
        window.core.playlistList.lookup 0 = some list ∧
        view.itemIds = [0] ∧ list.playlist.items = [item] ∧ item.playlistItemId = 0 ∧
        item.metadata.map Metadata.tags =
          some [(audioPropDurationMs, "60000"), ("Title", "a")] ∧
        .startPlaylistItemCb 0 0 60000 ∈ window.core.events :=
    ⟨_, _, _, _, rfl, rfl, rfl, rfl, rfl, rfl, rfl, by decide⟩
  obtain ⟨window, view, list, item, reached, shown, found, ids, items, id, tags, started⟩ := run
  obtain ⟨metadata, read, _, reported, agrees⟩ := durations_agree reached shown found
    (by rw [ids, id]; decide) (by rw [items]; exact List.mem_singleton_self item) stoll
  rw [read] at tags
  have tags : metadata.tags = [(audioPropDurationMs, "60000"), ("Title", "a")] :=
    Option.some.inj tags
  rw [id] at reported agrees
  refine ⟨window, reached, started, ?_⟩
  rw [reported 60000 started]
  refine agrees ?_ "60000" ?_ rfl
  · rw [tags]
    exact ⟨by decide, by decide⟩
  · rw [tags]
    rfl

end ItemDuration

end Mprt
