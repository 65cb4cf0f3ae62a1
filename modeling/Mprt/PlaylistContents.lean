import Mprt.PlaylistAgreement

/-!
# The items of a playlist and of its view

A view and its playlist may order their items differently. They hold the same items all the
same: in every run of jobs, a widget that has handled the callbacks has a view for each playlist
and no other ones, and a view has a row for each item of its playlist and no other ones.

Ids are given out once. A job gives ids from the counter of a playlist on to the items it adds,
and an item with a smaller id stays in its playlist unless the job removes it.
-/

namespace Mprt.PlaylistContents

open PlaylistManagement PlaylistAgreement

/-- Each playlist has a view, each view a playlist, and both have the same items. -/
def SameItems (widget : PlaylistTabwidget) (state : PlaylistManagement) : Prop :=
  ∀ playlistId, Option.Rel List.Perm (viewIds widget playlistId) (coreIds state playlistId)

/-- A new widget that handles the callbacks so far has the same items as the playlists. -/
def Holds (display : Display) (state : PlaylistManagement) : Prop :=
  ∃ shown, PlaylistTabwidget.receiveAll display ⟨∅⟩ state.events = some shown ∧
    AllIndexed shown ∧ SameItems shown state

/-- At most the first of some callbacks changes rows. -/
def AtMostOne (events : List Event) : Prop :=
  ∃ first rest, events = first ++ rest ∧ first.length ≤ 1 ∧ ∀ event ∈ rest, Silent event

/-- What a job leaves to be handled. -/
structure Answered (display : Display) (before after : PlaylistManagement) : Prop where
  holds : Holds display after
  events : ∃ new, after.events = before.events ++ new ∧ AtMostOne new

section Steps

variable {display : Display} {shown : PlaylistTabwidget} {before after : PlaylistManagement}

theorem atMostOne_silent {events : List Event} (silent : ∀ event ∈ events, Silent event) :
    AtMostOne events :=
  ⟨[], events, rfl, Nat.zero_le 1, silent⟩

theorem atMostOne_single (event : Event) : AtMostOne [event] :=
  ⟨[event], [], rfl, Nat.le_refl 1, fun _ member => absurd member List.not_mem_nil⟩

theorem SameItems.view (same : SameItems shown before) {playlistId : Int} {list : Playlist}
    (found : before.playlistList.lookup playlistId = some list) :
    ∃ view, shown.playlistViews.lookup playlistId = some view ∧
      view.itemIds.Perm list.itemIds := by
  have related := same playlistId
  rw [coreIds, found, viewIds] at related
  cases shownView : shown.playlistViews.lookup playlistId with
  | none =>
    rw [shownView] at related
    cases related
  | some view =>
    rw [shownView] at related
    cases related with
    | some permuted => exact ⟨view, rfl, permuted⟩

/-- Calls that change no rows leave the items. -/
theorem quiet_answered (quiet : Quiet before after)
    (holds : Holds display before) : Answered display before after := by
  obtain ⟨ids, _, new, events, silent⟩ := quiet
  obtain ⟨shown, handled, indexed, same⟩ := holds
  refine ⟨⟨shown, ?_, indexed, ?_⟩, new, events, atMostOne_silent silent⟩
  · rw [events, receiveAll_append, handled]
    exact receiveAll_silent display shown silent
  · intro playlistId
    rw [ids]
    exact same playlistId

/-- One playlist and its view change, and the others do not. -/
theorem changed_answered {playlistId : Int} {ids : List Int} {view : PlaylistView}
    {new : List Event} (handled : PlaylistTabwidget.receiveAll display ⟨∅⟩ before.events = some shown)
    (indexed : AllIndexed shown) (same : SameItems shown before)
    (lists : ∀ other, coreIds after other =
      if other = playlistId then some ids else coreIds before other)
    (events : after.events = before.events ++ new) (single : AtMostOne new)
    (received : shown.receiveAll display new = some (shown.setView playlistId view))
    (indexedView : view.Indexed) (permuted : view.itemIds.Perm ids) :
    Answered display before after := by
  refine ⟨⟨shown.setView playlistId view, ?_, indexed.setView indexedView playlistId, ?_⟩, new,
    events, single⟩
  · rw [events, receiveAll_append, handled]
    exact received
  · intro other
    rw [lists, viewIds, PlaylistTabwidget.setView]
    by_cases named : other = playlistId
    · rw [if_pos named, named, AList.lookup_insert]
      exact .some permuted
    · rw [if_neg named, AList.lookup_insert_ne named]
      exact same other

/-- The case of a job that changes a playlist and calls back once. -/
theorem setPlaylist_answered {playlistId : Int} {list : Playlist} {view : PlaylistView}
    {event : Event}
    (handled : PlaylistTabwidget.receiveAll display ⟨∅⟩ before.events = some shown)
    (indexed : AllIndexed shown) (same : SameItems shown before)
    (received : shown.receive display event = some (shown.setView playlistId view))
    (indexedView : view.Indexed) (permuted : view.itemIds.Perm list.itemIds) :
    Answered display before ((before.setPlaylist playlistId list).emit [event]) := by
  have lists : ∀ other, coreIds ((before.setPlaylist playlistId list).emit [event]) other =
      if other = playlistId then some list.itemIds else coreIds before other :=
    setPlaylist_ids before playlistId list
  exact changed_answered handled indexed same lists rfl (atMostOne_single event)
    (receiveAll_single received) indexedView permuted

/-- A move permutes the items and the rows. -/
theorem movePlaylistItem_answered (holds : Holds display before) (playlistId fromId toId : Int) :
    Answered display before (before.movePlaylistItem playlistId fromId toId) := by
  rw [movePlaylistItem]
  split
  · exact quiet_answered (.refl before) holds
  · rename_i list found
    obtain ⟨moved, ids⟩ := list.moveItem_ids fromId toId
    simp only [moved]
    by_cases there : fromId ∈ list.itemIds
    · simp only [decide_eq_true there, if_true]
      obtain ⟨shown, handled, indexed, same⟩ := holds
      obtain ⟨view, viewFound, permuted⟩ := same.view found
      obtain ⟨indexedMoved, idsMoved⟩ :=
        (indexed playlistId view viewFound).movePlaylistItem fromId toId
      have received : shown.receive display (.movePlaylistItemCb playlistId fromId toId) =
          some (shown.setView playlistId (view.movePlaylistItem fromId toId)) := by
        simp only [PlaylistTabwidget.receive, viewFound]
      have rows : (view.movePlaylistItem fromId toId).itemIds.Perm view.itemIds := by
        rw [idsMoved, PlaylistView.moveIds]
        split
        · rename_i both
          exact KeyedSequence.moveRow_perm (List.idxOf_lt_length_of_mem both.2) _
        · rfl
      have items : (list.moveItem fromId toId).2.itemIds.Perm list.itemIds := by
        have source := List.idxOf_lt_length_of_mem there
        have landed : KeyedSequence.landing (list.itemIds.idxOf fromId)
            (list.itemIds.idxOf toId) < list.itemIds.length := by
          have target : list.itemIds.idxOf toId ≤ list.itemIds.length := List.idxOf_le_length
          rw [KeyedSequence.landing]
          split <;> omega
        rw [ids]
        exact KeyedSequence.moveRow_perm landed _
      exact setPlaylist_answered handled indexed same received indexedMoved
        ((rows.trans permuted).trans items.symm)
    · simp only [decide_eq_false there, Bool.false_eq_true, if_false]
      exact quiet_answered (.refl before) holds

/-- An item is removed from its playlist and its row from the view. -/
theorem removePlaylistItem_answered (holds : Holds display before)
    (playlistId playlistItemId : Int) :
    Answered display before (before.removePlaylistItem playlistId playlistItemId) := by
  rw [removePlaylistItem]
  split
  · exact quiet_answered (.refl before) holds
  · rename_i list found
    obtain ⟨removed, ids⟩ := list.removeItem_ids playlistItemId
    simp only [removed]
    by_cases there : playlistItemId ∈ list.itemIds
    · simp only [decide_eq_true there, if_true]
      obtain ⟨shown, handled, indexed, same⟩ := holds
      obtain ⟨view, viewFound, permuted⟩ := same.view found
      obtain ⟨indexedRemoved, idsRemoved⟩ :=
        (indexed playlistId view viewFound).removePlaylistItem playlistItemId
      have received : shown.receive display (.removePlaylistItemCb playlistId playlistItemId) =
          some (shown.setView playlistId (view.removePlaylistItem playlistItemId)) := by
        simp only [PlaylistTabwidget.receive, viewFound]
      refine setPlaylist_answered handled indexed same received indexedRemoved ?_
      rw [idsRemoved, ids, ← List.erase_eq_eraseIdx_of_idxOf rfl,
        ← List.erase_eq_eraseIdx_of_idxOf rfl]
      exact permuted.erase playlistItemId
    · simp only [decide_eq_false there, Bool.false_eq_true, if_false]
      exact quiet_answered (.refl before) holds

/-- A view goes with its playlist. -/
theorem removePlaylist_answered (holds : Holds display before) (playlistId : Int) :
    Answered display before (before.removePlaylist playlistId) := by
  obtain ⟨shown, handled, indexed, same⟩ := holds
  refine ⟨⟨⟨shown.playlistViews.erase playlistId⟩, removePlaylist_handled handled playlistId,
    indexed.erase playlistId, fun other => ?_⟩, [.removePlaylistCb playlistId], rfl,
    atMostOne_single _⟩
  rw [removePlaylist_ids, viewIds]
  split
  · rename_i named
    rw [named, AList.lookup_erase]
    exact .none
  · rename_i differs
    rw [AList.lookup_erase_ne differs]
    exact same other

/-- Added items get rows of their own, wherever these are. -/
theorem addPlaylistItems_answered (holds : Holds display before) {files : FileSystem}
    (displayed : ∀ file metadata, files.readMetadata file = some metadata →
      Displayable display metadata.tags) (playlistId fromId : Int) (urls : Option (List String)) :
    Answered display before (before.addPlaylistItemsInternal files playlistId fromId urls) := by
  have nothing := quiet_answered (.refl before) holds
  cases urls with
  | none => exact nothing
  | some urls =>
    cases found : before.playlistList.lookup playlistId with
    | none =>
      simp only [addPlaylistItemsInternal, found]
      exact nothing
    | some list =>
      obtain ⟨shown, handled, indexed, same⟩ := holds
      obtain ⟨view, viewFound, permuted⟩ := same.view found
      obtain ⟨new, after, _, order, effect⟩ :=
        addPlaylistItems_effect displayed indexed found viewFound permuted fromId urls
      rcases effect with ⟨none, kept⟩ | ⟨_, event, nextView, changed, received, indexedNext,
        idsNext⟩
      · have sameIds : after.itemIds = list.itemIds := by
          rw [order, none]
          rfl
        rw [kept]
        exact quiet_answered (setPlaylist_quiet found sameIds) ⟨shown, handled, indexed, same⟩
      · rw [changed]
        refine setPlaylist_answered handled indexed same received indexedNext ?_
        rw [idsNext, order]
        exact (KeyedSequence.insertRows_perm List.idxOf_le_length _).trans
          ((permuted.append_right _).trans (KeyedSequence.insertEach_perm _ _ _).symm)

/-- A new playlist gets a view with what was loaded. -/
theorem addPlaylist_answered (holds : Holds display before) {files : FileSystem}
    (displayed : ∀ file metadata, files.readMetadata file = some metadata →
      Displayable display metadata.tags) (filename : String) (urls : Option (List String)) :
    Answered display before (before.addPlaylist files filename urls) := by
  obtain ⟨shown, handled, indexed, same⟩ := holds
  obtain ⟨list, items, view, indexedView, rows, ids, events, received⟩ :=
    addPlaylist_effect displayed shown before filename urls
  refine changed_answered handled indexed same ids events
    ⟨[_], [_], rfl, Nat.le_refl 1, fun event member => ?_⟩ received indexedView
    (List.Perm.of_eq rows)
  rw [List.mem_singleton.mp member]
  exact silent_of_kept rfl

/-- Every job leaves the same items on both sides. The cases are those of the job. -/
theorem step_answered {job : DisplayedJob display} (holds : Holds display before)
    (stepped : stepDisplayed display before job = some after) : Answered display before after := by
  obtain ⟨job, displayed⟩ := job
  rw [stepDisplayed] at stepped
  cases job with
  | addPlaylist files filename urls =>
    obtain rfl := Option.some.inj stepped
    exact addPlaylist_answered holds (displayed files rfl) filename urls
  | addPlaylistItems files playlistId fromId urls =>
    obtain rfl := Option.some.inj stepped
    exact addPlaylistItems_answered holds (displayed files rfl) playlistId fromId urls
  | addPlaylistDirectory files playlistId fromId dirname =>
    obtain rfl := Option.some.inj stepped
    exact addPlaylistItems_answered holds (displayed files rfl) playlistId fromId
      (some (addPlaylistDirectoryBuilder files dirname))
  | movePlaylistItem playlistId fromId toId =>
    obtain rfl := Option.some.inj stepped
    exact movePlaylistItem_answered holds playlistId fromId toId
  | removePlaylistItem playlistId playlistItemId =>
    obtain rfl := Option.some.inj stepped
    exact removePlaylistItem_answered holds playlistId playlistItemId
  | removePlaylist playlistId =>
    obtain rfl := Option.some.inj stepped
    exact removePlaylist_answered holds playlistId
  | _ => exact quiet_answered (others_quiet stepped rfl) holds

end Steps

theorem start_holds (display : Display) {state : PlaylistManagement}
    (lists : state.playlistList = ∅) (events : state.events = []) : Holds display state := by
  refine ⟨⟨∅⟩, by rw [events]; rfl, none_indexed, fun playlistId => ?_⟩
  rw [viewIds, coreIds, lists, AList.lookup_empty, AList.lookup_empty]
  exact .none

/-- From no playlists on, in every run of jobs whose urls yield displayable tags, a widget that
has handled the callbacks has a view for each playlist and no others, with a row for each item
and no others, however items were moved or added. -/
theorem views_hold_items {display : Display} {uninitialised : PlaylistManagement.Uninitialised}
    {minWaitNextSong : Int}
    {jobs : List (DisplayedJob display)} {state : PlaylistManagement}
    (ran : LabelledRuns.run (stepDisplayed display) (.new uninitialised minWaitNextSong) jobs =
      some state) : Holds display state :=
  LabelledRuns.run_preserves (fun _ _ _ holds stepped => (step_answered holds stepped).holds)
    (start_holds display rfl rfl) ran

/-- The first item is moved before the last one, and is shown after it. -/
theorem views_hold_items_downwards : ∃ state,
    LabelledRuns.run (stepDisplayed plainDisplay) newManagement
        (threeItems ++ [titled (.movePlaylistItem 0 0 2) (Or.inr rfl)]) = some state ∧
      coreIds state 0 = some [1, 0, 2] ∧ Holds plainDisplay state :=
  ⟨_, rfl, rfl, views_hold_items (show LabelledRuns.run (stepDisplayed plainDisplay)
    (.new ⟨.stop, -1, -1⟩ 10000) (threeItems ++ [titled (.movePlaylistItem 0 0 2) (Or.inr rfl)]) =
      some _ from rfl)⟩

end Mprt.PlaylistContents
