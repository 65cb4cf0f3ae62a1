import Mprt.KeyedRows
import Mprt.PlaylistNames

/-!
# The tabs of the playlists

A `playlist_tabwidget` has a tab with a view for each playlist it was told of, and the tab bar
shows the name as its text. The user orders the tabs. Whatever the order, the tabs after some
callbacks are the playlists with the names that these callbacks say.

The line edit in which a tab is renamed and the context menu of a tab remember an index. A
callback or a move leaves the tab at an index there exactly when it removes no tab at or before
it, and moves none to, from or across it.
-/

namespace Mprt

open KeyedSequence PlaylistManagement PlaylistNames

/-- A tab, by the playlist of its view. -/
structure PlaylistTab where
  playlistId : Int
  tabText : String
deriving DecidableEq

/-- A `playlist_tabwidget` with its `tab_bar`: the playlists in `_playlist_views`, whether the
line edit and the context menu are shown, and the indices they are for. -/
structure PlaylistTabs where
  tabs : List PlaylistTab
  playlistViews : List Int
  lineEdit : Bool
  editedTab : Int
  contextMenu : Bool
  contextMenuTabIndex : Int
deriving DecidableEq

namespace PlaylistTabs

/-- The tab with an index, as `play_widget` finds its view. -/
def playWidget (widget : PlaylistTabs) (index : Int) : Option PlaylistTab :=
  if 0 ≤ index then widget.tabs[index.toNat]? else none

def tabIndexFromPlaylistId (widget : PlaylistTabs) (playlistId : Int) : Int :=
  match rowOf? PlaylistTab.playlistId widget.tabs playlistId with
  | some row => row
  | none => -1

/-- `setTabText` of the tab bar, which passes over an index without a tab. -/
def setTabText (widget : PlaylistTabs) (index : Int) (text : String) : PlaylistTabs :=
  if 0 ≤ index then
    { widget with
      tabs := widget.tabs.modify index.toNat (fun tab => { tab with tabText := text }) }
  else widget

/-- `removeTab`, which passes over an index without a tab. -/
def removeTab (widget : PlaylistTabs) (index : Int) : PlaylistTabs :=
  if 0 ≤ index then { widget with tabs := widget.tabs.eraseIdx index.toNat } else widget

def addPlaylistQtCb (widget : PlaylistTabs) (playlistName : String) (playlistId : Int) :
    PlaylistTabs :=
  { widget with
    tabs := widget.tabs ++ [⟨playlistId, playlistName⟩]
    playlistViews := widget.playlistViews.insert playlistId }

def renamePlaylistQtCb (widget : PlaylistTabs) (playlistId : Int) (playlistName : String) :
    PlaylistTabs :=
  widget.setTabText (widget.tabIndexFromPlaylistId playlistId) playlistName

def removePlaylistQtCb (widget : PlaylistTabs) (playlistId : Int) : PlaylistTabs :=
  if playlistId ∈ widget.playlistViews then
    let removed := widget.removeTab (widget.tabIndexFromPlaylistId playlistId)
    { removed with playlistViews := removed.playlistViews.filter (· ≠ playlistId) }
  else widget

/-- The callbacks that concern the tabs. -/
def receive (widget : PlaylistTabs) : Event → PlaylistTabs
  | .addPlaylistCb playlistName playlistId _ => widget.addPlaylistQtCb playlistName playlistId
  | .renamePlaylistItemCb playlistId playlistName =>
      widget.renamePlaylistQtCb playlistId playlistName
  | .removePlaylistCb playlistId => widget.removePlaylistQtCb playlistId
  | _ => widget

/-- The user moves a tab. -/
def moveTab (widget : PlaylistTabs) (source target : Nat) : PlaylistTabs :=
  { widget with tabs := moveRow widget.tabs source target }

def slotStartRename (widget : PlaylistTabs) (tabIndex : Int) : PlaylistTabs :=
  { widget with lineEdit := true, editedTab := tabIndex }

def slotTabContextMenu (widget : PlaylistTabs) (tabIndex : Int) : PlaylistTabs :=
  { widget with contextMenu := true, contextMenuTabIndex := tabIndex }

/-- The playlist whose view the tab with an index has. -/
def playlistAt (widget : PlaylistTabs) (index : Int) : Option Int :=
  (widget.playWidget index).map PlaylistTab.playlistId

/-- A callback leaves the tab at an index there: it removes no tab at or before it. -/
def SparedBy (widget : PlaylistTabs) (index : Int) : Event → Prop
  | .removePlaylistCb playlistId =>
      widget.tabIndexFromPlaylistId playlistId = -1 ∨
        index < widget.tabIndexFromPlaylistId playlistId
  | _ => True

/-- A move leaves the tab at an index there: it is not to, from or across it. -/
def SparedByMove (index : Int) (source target : Nat) : Prop :=
  source = target ∨ index < min (source : Int) target ∨ max (source : Int) target < index

instance (widget : PlaylistTabs) (index : Int) (event : Event) :
    Decidable (widget.SparedBy index event) := by
  unfold SparedBy
  split <;> infer_instance

/-- The playlists of the tabs, in their order. -/
def playlistIds (widget : PlaylistTabs) : List Int := widget.tabs.map PlaylistTab.playlistId

/-- The tabs after some callbacks. -/
structure Tracks (widget : PlaylistTabs) (events : List Event) : Prop where
  distinct : widget.playlistIds.Nodup
  shown : ∀ tab, tab ∈ widget.tabs ↔ nameAfter tab.playlistId events = some tab.tabText
  views : ∀ playlistId, playlistId ∈ widget.playlistViews ↔ playlistId ∈ widget.playlistIds

section Tabs

variable {widget : PlaylistTabs} {events : List Event} {event : Event} {index playlistId : Int}

/-- An index leads to the playlist that is in its row, and an index below zero to none. -/
theorem playlistAt_eq (widget : PlaylistTabs) (index : Int) :
    widget.playlistAt index = if 0 ≤ index then widget.playlistIds[index.toNat]? else none := by
  rw [playlistAt, playWidget, playlistIds]
  split
  · rw [List.getElem?_map]
  · rfl

/-- It leads to a playlist exactly when it is the index of a tab. -/
theorem playlistAt_isSome :
    (widget.playlistAt index).isSome = true ↔ 0 ≤ index ∧ index < widget.playlistIds.length := by
  rw [playlistAt_eq]
  split
  · simp only [isSome_getElem?]
    omega
  · simp only [Option.isSome_none, Bool.false_eq_true, false_iff]
    omega

/-- What an index leads to stays, if the playlist in that row does. -/
theorem playlistAt_kept_iff {after : PlaylistTabs} :
    after.playlistAt index = widget.playlistAt index ↔
      (0 ≤ index → after.playlistIds[index.toNat]? = widget.playlistIds[index.toNat]?) := by
  rw [playlistAt_eq, playlistAt_eq]
  split
  · rename_i inside
    exact ⟨fun same _ => same, fun same => same inside⟩
  · rename_i outside
    exact iff_of_true rfl (fun inside => absurd inside outside)

/-- A tab is found by its playlist, when there is one: its row is the index then, and else the
index is that of no tab. -/
theorem tabIndexFromPlaylistId_cases (widget : PlaylistTabs) (playlistId : Int) :
    (∃ row : Nat, rowOf? PlaylistTab.playlistId widget.tabs playlistId = some row ∧
      widget.tabIndexFromPlaylistId playlistId = row ∧ row < widget.playlistIds.length) ∨
    (playlistId ∉ widget.playlistIds ∧ widget.tabIndexFromPlaylistId playlistId = -1) := by
  rw [tabIndexFromPlaylistId]
  cases found : rowOf? PlaylistTab.playlistId widget.tabs playlistId with
  | none =>
    refine Or.inr ⟨fun member => ?_, rfl⟩
    rw [playlistIds, ← rowOf?_isSome, found] at member
    cases member
  | some row =>
    obtain ⟨tab, there, _⟩ := rowOf?_some found
    refine Or.inl ⟨row, rfl, rfl, ?_⟩
    rw [playlistIds, List.length_map]
    exact (List.getElem?_eq_some_iff.mp there).1

/-- Another text leaves each tab the playlist that it is for. -/
theorem playlistIds_setTabText (widget : PlaylistTabs) (index : Int) (text : String) :
    (widget.setTabText index text).playlistIds = widget.playlistIds := by
  rw [setTabText]
  split
  · exact modify_keys widget.tabs index.toNat _ (fun _ => rfl)
  · rfl

/-! ## What a callback does to the tabs -/

/-- The tabs are for the playlists that have a name by the callbacks so far, which are those that
were added and not removed. -/
theorem Tracks.mem_playlistIds (tracks : Tracks widget events) :
    playlistId ∈ widget.playlistIds ↔ ∃ name, nameAfter playlistId events = some name := by
  rw [playlistIds, List.mem_map]
  constructor
  · rintro ⟨tab, member, rfl⟩
    exact ⟨tab.tabText, (tracks.shown tab).mp member⟩
  · rintro ⟨name, named⟩
    exact ⟨⟨playlistId, name⟩, (tracks.shown _).mpr named, rfl⟩

/-- A playlist without a tab has no name, and the other way round. -/
theorem Tracks.notMem_iff (tracks : Tracks widget events) :
    playlistId ∉ widget.playlistIds ↔ nameAfter playlistId events = none := by
  rw [tracks.mem_playlistIds, Option.eq_none_iff_forall_ne_some, not_exists]

/-- The name after one more callback is what that callback makes of the name before it. -/
theorem nameAfter_snoc (playlistId : Int) (events : List Event) (event : Event) :
    nameAfter playlistId (events ++ [event]) =
      renamed playlistId (nameAfter playlistId events) event :=
  nameAfter_append playlistId events [event]

/-- A new playlist gets a tab behind the others, with its name. Its id has had no tab, since the
callback is the first for it. -/
theorem Tracks.addPlaylistQtCb (tracks : Tracks widget events) {playlistName : String}
    {items : Option (List PlaylistItem)} (fresh : nameAfter playlistId events = none) :
    Tracks (widget.addPlaylistQtCb playlistName playlistId)
      (events ++ [.addPlaylistCb playlistName playlistId items]) := by
  have ids : (widget.addPlaylistQtCb playlistName playlistId).playlistIds =
      widget.playlistIds ++ [playlistId] := List.map_append
  have absent := tracks.notMem_iff.mpr fresh
  refine ⟨?_, fun tab => ?_, fun other => ?_⟩
  · rw [ids]
    exact List.nodup_append.mpr ⟨tracks.distinct, List.nodup_singleton _, fun other member new =>
      fun found same => absent (List.mem_singleton.mp found ▸ same ▸ member)⟩
  · rw [nameAfter_snoc, renamed, PlaylistTabs.addPlaylistQtCb, List.mem_append, List.mem_singleton]
    by_cases same : playlistId = tab.playlistId
    · have other : tab ∉ widget.tabs := fun member =>
        absent (same ▸ List.mem_map_of_mem member)
      rw [if_pos same, or_iff_right other, Option.some.injEq]
      constructor
      · rintro rfl
        rfl
      · intro named
        rw [same, named]
    · rw [if_neg same, ← tracks.shown tab]
      refine or_iff_left ?_
      rintro rfl
      exact same rfl
  · rw [ids, PlaylistTabs.addPlaylistQtCb, List.mem_insert_iff, tracks.views, List.mem_append,
      List.mem_singleton, or_comm]

/-- The tab of the renamed playlist gets the new text. Without such a tab no text changes, as no
name does. -/
theorem Tracks.renamePlaylistQtCb (tracks : Tracks widget events) (playlistName : String) :
    Tracks (widget.renamePlaylistQtCb playlistId playlistName)
      (events ++ [.renamePlaylistItemCb playlistId playlistName]) := by
  have ids : (widget.renamePlaylistQtCb playlistId playlistName).playlistIds =
      widget.playlistIds := playlistIds_setTabText widget _ playlistName
  have views : (widget.renamePlaylistQtCb playlistId playlistName).playlistViews =
      widget.playlistViews := by
    rw [PlaylistTabs.renamePlaylistQtCb, setTabText]
    split <;> rfl
  refine ⟨ids ▸ tracks.distinct, fun tab => ?_, fun other => ?_⟩
  · rw [nameAfter_snoc, renamed, PlaylistTabs.renamePlaylistQtCb, setTabText]
    rcases widget.tabIndexFromPlaylistId_cases playlistId with ⟨row, found, at_row, _⟩ |
      ⟨absent, missing⟩
    · rw [at_row, if_pos (Int.natCast_nonneg row), Int.toNat_natCast]
      simp only
      rw [mem_modify_rowOf tracks.distinct found]
      by_cases same : playlistId = tab.playlistId
      · rw [if_pos same, or_iff_right (fun both => both.2 same.symm), Option.map_eq_some_iff]
        constructor
        · rintro ⟨old, member, named, rfl⟩
          refine ⟨old.tabText, ?_, rfl⟩
          rw [← same, ← named]
          exact (tracks.shown old).mp member
        · rintro ⟨oldName, named, text⟩
          refine ⟨⟨tab.playlistId, oldName⟩, (tracks.shown _).mpr named, same.symm, ?_⟩
          rw [text]
      · rw [if_neg same, ← tracks.shown tab]
        constructor
        · rintro (⟨member, _⟩ | ⟨old, _, named, rfl⟩)
          · exact member
          · exact absurd named.symm same
        · intro member
          exact Or.inl ⟨member, fun named => same named.symm⟩
    · rw [missing, if_neg (by omega), tracks.shown tab]
      split
      · rename_i same
        rw [← same, tracks.notMem_iff.mp absent]
        rfl
      · rfl
  · rw [ids, views]
    exact tracks.views other

/-- The tab of the removed playlist goes, together with its view, and the others keep their order. -/
theorem Tracks.removePlaylistQtCb (tracks : Tracks widget events) :
    Tracks (widget.removePlaylistQtCb playlistId) (events ++ [.removePlaylistCb playlistId]) := by
  rw [PlaylistTabs.removePlaylistQtCb]
  by_cases there : playlistId ∈ widget.playlistViews
  · rw [if_pos there]
    have member := (tracks.views playlistId).mp there
    rcases widget.tabIndexFromPlaylistId_cases playlistId with ⟨row, found, at_row, _⟩ |
      ⟨absent, _⟩
    · simp only [at_row, removeTab, if_pos (Int.natCast_nonneg row), Int.toNat_natCast]
      have erased := mem_eraseIdx_rowOf tracks.distinct found
      have ids (other : Int) : other ∈ (widget.tabs.eraseIdx row).map PlaylistTab.playlistId ↔
          other ∈ widget.playlistIds ∧ other ≠ playlistId := by
        simp only [List.mem_map, erased, playlistIds]
        constructor
        · rintro ⟨tab, ⟨member, differs⟩, rfl⟩
          exact ⟨⟨tab, member, rfl⟩, differs⟩
        · rintro ⟨⟨tab, member, rfl⟩, differs⟩
          exact ⟨tab, ⟨member, differs⟩, rfl⟩
      refine ⟨?_, fun tab => ?_, fun other => ?_⟩
      · rw [playlistIds, ← List.eraseIdx_map]
        exact tracks.distinct.sublist (List.eraseIdx_sublist _ _)
      · rw [nameAfter_snoc, renamed, erased, tracks.shown]
        by_cases same : playlistId = tab.playlistId
        · rw [if_pos same]
          exact iff_of_false (fun both => both.2 same.symm) (Option.some_ne_none _).symm
        · rw [if_neg same]
          exact and_iff_left (Ne.symm same)
      · simp only [List.mem_filter, playlistIds, ids, tracks.views, decide_eq_true_eq]
    · exact absurd member absent
  · rw [if_neg there]
    have absent := fun member => there ((tracks.views playlistId).mpr member)
    refine ⟨tracks.distinct, fun tab => ?_, tracks.views⟩
    rw [nameAfter_snoc, renamed, tracks.shown]
    split
    · rename_i same
      rw [← same, tracks.notMem_iff.mp absent]
    · rfl

/-- After every callback the tabs show what the callbacks so far say, provided that no playlist is
added twice. -/
theorem Tracks.receive (tracks : Tracks widget events)
    (fresh : ∀ added, addedPlaylist event = some added → nameAfter added events = none) :
    Tracks (widget.receive event) (events ++ [event]) := by
  have other (silent : concernsNames event = false) : Tracks widget (events ++ [event]) :=
    ⟨tracks.distinct, fun tab => by
      rw [nameAfter_snoc, renamed_other silent]
      exact tracks.shown tab, tracks.views⟩
  cases event with
  | addPlaylistCb playlistName added items => exact tracks.addPlaylistQtCb (fresh added rfl)
  | renamePlaylistItemCb changed playlistName => exact tracks.renamePlaylistQtCb playlistName
  | removePlaylistCb removed => exact tracks.removePlaylistQtCb
  | _ => exact other rfl

/-! ## What becomes of an index -/

/-- A callback leads an index elsewhere exactly when it does not spare it: when it removes a tab
at the index or before it. -/
theorem Tracks.receive_playlistAt_iff (tracks : Tracks widget events) (event : Event)
    (there : index = -1 ∨ (widget.playlistAt index).isSome = true) :
    (widget.receive event).playlistAt index = widget.playlistAt index ↔
      widget.SparedBy index event := by
  have same {after : PlaylistTabs} (ids : after.playlistIds = widget.playlistIds) :
      after.playlistAt index = widget.playlistAt index ↔ True :=
    iff_true_intro (playlistAt_kept_iff.mpr (fun _ => by rw [ids]))
  have bounded (inside : 0 ≤ index) : index.toNat < widget.playlistIds.length := by
    rcases there with none | found
    · omega
    · have := playlistAt_isSome.mp found
      omega
  cases event with
  | addPlaylistCb playlistName added items =>
    refine iff_true_intro (playlistAt_kept_iff.mpr (fun inside => ?_))
    have ids : (widget.addPlaylistQtCb playlistName added).playlistIds =
        widget.playlistIds ++ [added] := List.map_append
    rw [PlaylistTabs.receive, ids, List.getElem?_append_left (bounded inside)]
  | renamePlaylistItemCb changed playlistName =>
    exact same (playlistIds_setTabText widget _ playlistName)
  | removePlaylistCb removed =>
    rw [PlaylistTabs.receive, PlaylistTabs.removePlaylistQtCb, SparedBy]
    rcases widget.tabIndexFromPlaylistId_cases removed with ⟨row, found, at_row, _⟩ |
      ⟨absent, missing⟩
    · have there : removed ∈ widget.playlistViews := by
        rw [tracks.views, playlistIds, ← rowOf?_isSome, found]
        rfl
      have ids : PlaylistTabs.playlistIds
          { (widget.removeTab row) with
            playlistViews := (widget.removeTab row).playlistViews.filter (· ≠ removed) } =
          widget.playlistIds.eraseIdx row := by
        simp only [removeTab, if_pos (Int.natCast_nonneg row), Int.toNat_natCast, playlistIds,
          List.eraseIdx_map]
      rw [if_pos there, at_row, playlistAt_kept_iff, ids]
      constructor
      · intro kept
        rcases lt_or_ge index 0 with before | inside
        · exact Or.inr (by omega)
        · have earlier := (getElem?_eraseIdx_eq_iff tracks.distinct (bounded inside)).mp
            (kept inside)
          exact Or.inr (by omega)
      · rintro (impossible | earlier) inside
        · omega
        · exact (getElem?_eraseIdx_eq_iff tracks.distinct (bounded inside)).mpr (by omega)
    · rw [if_neg (fun member => absent ((tracks.views removed).mp member)), missing]
      exact iff_of_true rfl (Or.inl rfl)
  | _ => exact same rfl

/-- A move leads an index elsewhere exactly when it does not spare it: when the index lies between
the two places, or is one of them. -/
theorem moveTab_playlistAt_iff (distinct : widget.playlistIds.Nodup) {source target : Nat}
    (sourceInside : source < widget.tabs.length) (targetInside : target < widget.tabs.length)
    (there : index = -1 ∨ (widget.playlistAt index).isSome = true) :
    (widget.moveTab source target).playlistAt index = widget.playlistAt index ↔
      SparedByMove index source target := by
  have ids : (widget.moveTab source target).playlistIds =
      moveRow widget.playlistIds source target := map_moveRow _ _ _ _
  have length : widget.playlistIds.length = widget.tabs.length := List.length_map _
  rw [playlistAt_kept_iff, ids, SparedByMove]
  rcases lt_or_ge index 0 with before | inside
  · exact iff_of_true (fun inside => by omega) (by omega)
  · have bounded : index.toNat < widget.playlistIds.length := by
      rcases there with none | found
      · omega
      · have := playlistAt_isSome.mp found
        omega
    have kept := getElem?_moveRow_eq_iff distinct (by omega : source < widget.playlistIds.length)
      (by omega : target < widget.playlistIds.length) bounded
    constructor
    · intro same
      have outside := kept.mp (same inside)
      omega
    · intro outside _
      exact kept.mpr (by omega)

/-- Moving a tab changes the order of the tabs alone, which the callbacks do not speak of. -/
theorem Tracks.moveTab (tracks : Tracks widget events) {source target : Nat}
    (targetInside : target < widget.tabs.length) : Tracks (widget.moveTab source target) events := by
  have ids : (widget.moveTab source target).playlistIds =
      moveRow widget.playlistIds source target := map_moveRow _ _ _ _
  have permuted : (widget.moveTab source target).tabs.Perm widget.tabs :=
    moveRow_perm targetInside source
  refine ⟨?_, fun tab => ?_, fun other => ?_⟩
  · rw [ids]
    exact nodup_moveRow tracks.distinct source target
  · rw [permuted.mem_iff]
    exact tracks.shown tab
  · rw [playlistIds, (permuted.map _).mem_iff]
    exact tracks.views other

/-- No callback touches the line edit or the context menu: what they remember is an index,
whatever becomes of the tabs. -/
theorem receive_remembers (widget : PlaylistTabs) (event : Event) :
    (widget.receive event).lineEdit = widget.lineEdit ∧
      (widget.receive event).editedTab = widget.editedTab ∧
      (widget.receive event).contextMenu = widget.contextMenu ∧
      (widget.receive event).contextMenuTabIndex = widget.contextMenuTabIndex := by
  cases event with
  | renamePlaylistItemCb changed playlistName =>
    rw [receive, renamePlaylistQtCb, setTabText]
    split <;> exact ⟨rfl, rfl, rfl, rfl⟩
  | removePlaylistCb removed =>
    rw [receive, removePlaylistQtCb, removeTab]
    split
    · split <;> exact ⟨rfl, rfl, rfl, rfl⟩
    · exact ⟨rfl, rfl, rfl, rfl⟩
  | _ => exact ⟨rfl, rfl, rfl, rfl⟩

end Tabs

end PlaylistTabs

end Mprt
