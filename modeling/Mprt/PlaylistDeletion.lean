import Mathlib.Data.List.Sort
import Mprt.JobEffects
import Mprt.PlaylistContents

/-!
# Deleting what a view shows

The view names the items in its selected rows and asks the plugin to remove them. The plugin
does so later, and the view learns of it later still, so both may have changed in the meantime:
the rows that a view shows at one time need not be the items of the playlist at that time.

The plugin goes by ids, and ids are given out once. Whatever jobs and callbacks are under way,
an item that was once in a playlist is still there exactly when it has not been removed for a
row that showed it. When all is done, what was removed is what the deleted rows showed, and the
view has the remaining items.
-/

namespace Mprt

open PlaylistManagement PlaylistAgreement PlaylistContents

namespace PlaylistView

def getItemPlaylistId (view : PlaylistView) (row : Nat) : Int :=
  ((view.rows[row]?).map ViewRow.playlistItemId).getD invalidPlaylistItemId

/-- The set of the selected rows, the last one first. -/
def deletedRows (selected : List Nat) : List Nat :=
  selected.dedup.insertionSort (fun first second => second ≤ first)

/-- The playlist and the items that `delete_selected_items` names. -/
def deleteSelectedItems (view : PlaylistView) (selected : List Nat) : List (Int × Int) :=
  (deletedRows selected).map (fun row => (view.playlistId, view.getItemPlaylistId row))

end PlaylistView

namespace PlaylistDeletion

/-- The item that a job removes. -/
def removedBy : Job → Option (Int × Int)
  | .removePlaylistItem playlistId playlistItemId => some (playlistId, playlistItemId)
  | _ => none

/-- The plugin with its posted jobs, and the widget with the number of callbacks that it has
handled. As history, the items that were named for deletion, and those whose removal has run. -/
structure PlaylistWindow (display : Display) where
  core : PlaylistManagement
  jobs : List (DisplayedJob display)
  widget : PlaylistTabwidget
  handled : Nat
  condemned : List (Int × Int)
  removed : List (Int × Int)

/-- Rows are deleted in the view of a playlist, another job is posted, the plugin runs its next
job, or the widget handles the next callback. -/
inductive Action (display : Display) where
  | deleteSelectedItems (playlistId : Int) (selected : List Nat)
  | post (job : DisplayedJob display)
  | runJob
  | receive

variable {display : Display}

/-- `remove_playlist_item` posts a job. -/
def removal (display : Display) (item : Int × Int) : DisplayedJob display where
  job := .removePlaylistItem item.1 item.2
  displayed := fun _ asked => by cases asked

def step (window : PlaylistWindow display) : Action display → Option (PlaylistWindow display)
  | .deleteSelectedItems playlistId selected =>
      (window.widget.playlistViews.lookup playlistId).map (fun view =>
        { window with
          jobs := window.jobs ++ (view.deleteSelectedItems selected).map (removal display)
          condemned := window.condemned ++ view.deleteSelectedItems selected })
  | .post job =>
      -- only a view asks for the removal of an item
      if removedBy job.job = none then some { window with jobs := window.jobs ++ [job] } else none
  | .runJob =>
      match window.jobs with
      | [] => none
      | job :: rest =>
          (stepDisplayed display window.core job).map (fun core =>
            { window with
              core := core
              jobs := rest
              removed := window.removed ++ (removedBy job.job).toList })
  | .receive =>
      match window.core.events[window.handled]? with
      | none => none
      | some event =>
          (window.widget.receive display event).map (fun widget =>
            { window with widget := widget, handled := window.handled + 1 })

def start (display : Display) (uninitialised : PlaylistManagement.Uninitialised)
    (minWaitNextSong : Int) :
    PlaylistWindow display :=
  ⟨.new uninitialised minWaitNextSong, [], ⟨∅⟩, 0, [], []⟩

/-! ## Ids -/

/-- A playlist after a job, which may have removed an item: ids below the counter are those of
the other items that were there. -/
structure Kept (removed : Option (Int × Int)) (playlistId : Int) (before after : Playlist) :
    Prop where
  counter : before.playlistIdCounter ≤ after.playlistIdCounter
  items : ∀ id < before.playlistIdCounter,
    id ∈ after.itemIds ↔ id ∈ before.itemIds ∧ removed ≠ some (playlistId, id)

/-- No id of a playlist is given out again, and the playlists that had one are kept. -/
structure Evolves (removed : Option (Int × Int)) (before after : PlaylistManagement) : Prop where
  counter : before.playlistIdCounter ≤ after.playlistIdCounter
  lists : ∀ playlistId ≤ before.playlistIdCounter, ∀ list,
    after.playlistList.lookup playlistId = some list →
      ∃ earlier, before.playlistList.lookup playlistId = some earlier ∧
        Kept removed playlistId earlier list
  named : (∀ playlistId list, before.playlistList.lookup playlistId = some list →
      playlistId ≤ before.playlistIdCounter) →
    ∀ playlistId list, after.playlistList.lookup playlistId = some list →
      playlistId ≤ after.playlistIdCounter

section Ids

variable {removed : Option (Int × Int)} {before middle after : PlaylistManagement}
  {list changed : Playlist} {playlistId : Int}

/-- A playlist that stays as it is keeps its ids. -/
theorem Kept.refl (playlistId : Int) (list : Playlist) : Kept none playlistId list list :=
  ⟨Int.le_refl _, fun _ _ => ⟨fun member => ⟨member, by simp⟩, And.left⟩⟩

/-- It is enough that no id comes or goes and that the counter does not go back: the order may be
another. -/
theorem Kept.of_ids (counter : list.playlistIdCounter ≤ changed.playlistIdCounter)
    (ids : ∀ id, id ∈ changed.itemIds ↔ id ∈ list.itemIds) : Kept none playlistId list changed :=
  ⟨counter, fun id _ => by simp [ids id]⟩

/-- A job that leaves all playlists gives out no id and takes none back. -/
theorem Evolves.of_lists (lists : after.playlistList = before.playlistList)
    (counter : after.playlistIdCounter = before.playlistIdCounter) :
    Evolves none before after := by
  refine ⟨Int.le_of_eq counter.symm, fun playlistId _ list found => ?_, fun named => ?_⟩
  · rw [lists] at found
    exact ⟨list, found, .refl playlistId list⟩
  · rw [lists, counter]
    exact named

/-- Two parts of a job without a removal are one without a removal, since an id that one of them
gives out is not below the counter before. -/
theorem Evolves.trans (first : Evolves none before middle) (second : Evolves none middle after) :
    Evolves none before after := by
  refine ⟨first.counter.trans second.counter, fun playlistId below list found => ?_,
    fun named => second.named (first.named named)⟩
  obtain ⟨between, foundBetween, later⟩ :=
    second.lists playlistId (below.trans first.counter) list found
  obtain ⟨earlier, foundEarlier, sooner⟩ := first.lists playlistId below between foundBetween
  refine ⟨earlier, foundEarlier, sooner.counter.trans later.counter, fun id small => ?_⟩
  rw [later.items id (Int.lt_of_lt_of_le small sooner.counter), sooner.items id small]
  simp

/-- A job that changes one playlist. -/
theorem setPlaylist_evolves (found : before.playlistList.lookup playlistId = some list)
    (kept : Kept removed playlistId list changed) (others : ∀ other id,
      removed = some (other, id) → other = playlistId) :
    Evolves removed before (before.setPlaylist playlistId changed) := by
  refine ⟨Int.le_refl _, fun other _ after foundAfter => ?_, fun named other after foundAfter => ?_⟩
  · unfold setPlaylist at foundAfter
    by_cases same : other = playlistId
    · rw [same, AList.lookup_insert] at foundAfter
      obtain rfl := Option.some.inj foundAfter
      rw [same]
      exact ⟨list, found, kept⟩
    · rw [AList.lookup_insert_ne same] at foundAfter
      refine ⟨after, foundAfter, Int.le_refl _, fun id _ => ?_⟩
      have apart : removed ≠ some (other, id) := fun taken => same (others other id taken)
      simp [apart]
  · unfold setPlaylist at foundAfter
    by_cases same : other = playlistId
    · rw [same]
      exact named playlistId list found
    · rw [AList.lookup_insert_ne same] at foundAfter
      exact named other after foundAfter

/-- Callbacks do not change what the ids are. -/
theorem Evolves.emit (evolves : Evolves removed before after) (events : List Event) :
    Evolves removed before (after.emit events) :=
  ⟨evolves.counter, evolves.lists, evolves.named⟩

/-- The removal of an item that is not there. -/
theorem evolves_absent {playlistItemId : Int} (absent : ∀ list,
      before.playlistList.lookup playlistId = some list → playlistItemId ∉ list.itemIds) :
    Evolves (some (playlistId, playlistItemId)) before before := by
  refine ⟨Int.le_refl _, fun other _ list found => ⟨list, found, Int.le_refl _, fun id _ => ?_⟩, id⟩
  refine (and_iff_left_of_imp ?_).symm
  rintro member ⟨⟩
  exact absent list found member

/-- A change of an item's url id. -/
theorem playItem_evolves
    (found : before.playlistList.lookup before.currentPlayingListId = some list)
    (playlistItemId : Int) (item : PlaylistItem) :
    Evolves none before (before.playItem list playlistItemId item) := by
  have added : Evolves none before (before.addInputItem (list.basePath ++ item.url)) :=
    .of_lists rfl rfl
  have foundThen : (before.addInputItem (list.basePath ++ item.url)).playlistList.lookup
      before.currentPlayingListId = some list := found
  have updated : Kept none before.currentPlayingListId list
      (list.updateUrlId playlistItemId (before.inputUrlId + 1)) :=
    .of_ids (Int.le_refl _) (fun id => by rw [Playlist.updateUrlId_ids])
  exact (added.trans (setPlaylist_evolves foundThen updated nofun)).emit _

/-- Playing items, however many, changes their url ids alone. -/
theorem playing_evolves (path : Playing before after) : Evolves none before after := by
  induction path with
  | tells told _ _ => exact .of_lists told.lists told.counter
  | plays found _ => exact playItem_evolves found _ _
  | trans _ _ first second => exact first.trans second

/-- Adding an item takes the next id from the counter, or none when the url is not accepted. -/
theorem addItemAt_counter (list : Playlist) (files : FileSystem) (iter : Nat) (url : String) :
    list.playlistIdCounter ≤ (list.addItemAt files iter url).2.playlistIdCounter := by
  cases read : files.readMetadata (list.basePath ++ url) with
  | none =>
    rw [Playlist.addItemAt_refused read]
  | some metadata =>
    obtain ⟨next, accepted, _, counter, _⟩ := Playlist.addItemAt_accepted read iter
    rw [accepted, counter]
    omega

/-- Over all urls of a call the counter goes up, by induction on them. -/
theorem addUrls_counter (files : FileSystem) (fromId : Int) (urls : List String)
    (added : List PlaylistItem) (list : Playlist) :
    list.playlistIdCounter ≤ (urls.foldl (addUrl files fromId) (added, list)).2.playlistIdCounter := by
  induction urls generalizing added list with
  | nil => exact Int.le_refl _
  | cons url rest inductionHypothesis =>
    have once : list.playlistIdCounter ≤
        (addUrl files fromId (added, list) url).2.playlistIdCounter := by
      simp only [addUrl, Playlist.addItem, Playlist.addItemBefore]
      split <;> split <;> exact addItemAt_counter _ _ _ _
    exact once.trans (inductionHypothesis _ _)

/-- Added items have ids from the counter on. -/
theorem collected_kept (files : FileSystem) (fromId : Int) (urls : List String) (list : Playlist)
    (playlistId : Int) : Kept none playlistId list (collected files fromId urls list).2 := by
  obtain ⟨new, after, folded, ids, order, _⟩ :=
    Playlist.addUrls_effect files fromId (localUrls files urls) [] list
  have counter := addUrls_counter files fromId (localUrls files urls) [] list
  rw [collected, folded]
  rw [folded] at counter
  refine ⟨counter, fun id small => ?_⟩
  have unissued : id ∉ new.map PlaylistItem.playlistItemId := by
    rw [ids, mem_idsFrom]
    omega
  rw [order, (KeyedSequence.insertEach_perm _ _ _).mem_iff, List.mem_append]
  simp [unissued]

/-- Moving an item keeps the ids, in another order. -/
theorem moveItem_kept (list : Playlist) (playlistId fromId toId : Int) :
    Kept none playlistId list (list.moveItem fromId toId).2 := by
  refine .of_ids ?_ (fun id => ?_)
  · rw [Playlist.moveItem]
    split <;> exact Int.le_refl _
  · rw [(list.moveItem_ids fromId toId).2]
    by_cases there : fromId ∈ list.itemIds
    · have source := List.idxOf_lt_length_of_mem there
      have target : list.itemIds.idxOf toId ≤ list.itemIds.length := List.idxOf_le_length
      have landed : KeyedSequence.landing (list.itemIds.idxOf fromId)
          (list.itemIds.idxOf toId) < list.itemIds.length := by
        rw [KeyedSequence.landing]
        split <;> omega
      exact (KeyedSequence.moveRow_perm landed _).mem_iff
    · rw [KeyedSequence.moveRow, List.idxOf_eq_length there, List.getElem?_eq_none (Nat.le_refl _)]

/-- Removing an item takes away its id, and keeps all others below the counter. -/
theorem removeItem_kept (list : Playlist) (playlistId playlistItemId : Int) :
    Kept (some (playlistId, playlistItemId)) playlistId list
      (list.removeItem playlistItemId).2 := by
  constructor
  · rw [Playlist.removeItem]
    split <;> exact Int.le_refl _
  · intro id _
    rw [(list.removeItem_ids playlistItemId).2, ← List.erase_eq_eraseIdx_of_idxOf rfl,
      list.itemIds_nodup.mem_erase_iff]
    simp only [ne_eq, Option.some.injEq, Prod.mk.injEq, true_and, eq_comm, and_comm]

/-- A new playlist has an id that none had before. Which items it has does not matter: they are
not from before. -/
theorem addPlaylist_evolves (state : PlaylistManagement) (files : FileSystem) (filename : String)
    (urls : Option (List String)) : Evolves none state (state.addPlaylist files filename urls) := by
  refine ⟨?_, fun playlistId below list found => ?_, fun named playlistId list found => ?_⟩
  · change state.playlistIdCounter ≤ state.playlistIdCounter + 1
    omega
  · have other : playlistId ≠ state.playlistIdCounter + 1 := by omega
    have lookup := (AList.lookup_insert_ne other).symm.trans found
    exact ⟨list, lookup, .refl playlistId list⟩
  · change playlistId ≤ state.playlistIdCounter + 1
    by_cases new : playlistId = state.playlistIdCounter + 1
    · omega
    · have lookup := (AList.lookup_insert_ne new).symm.trans found
      have below := named playlistId list lookup
      omega

/-- A playlist that is removed does not come back, and neither do its items. -/
theorem removePlaylist_evolves (state : PlaylistManagement) (playlistId : Int) :
    Evolves none state (state.removePlaylist playlistId) := by
  have others : ∀ other list, (state.removePlaylist playlistId).playlistList.lookup other =
      some list → state.playlistList.lookup other = some list := by
    intro other list found
    have differs : other ≠ playlistId := by
      rintro rfl
      have gone : (state.removePlaylist other).playlistList.lookup other = none :=
        AList.lookup_erase _ _
      rw [gone] at found
      cases found
    exact (AList.lookup_erase_ne differs).symm.trans found
  exact ⟨Int.le_refl _, fun other _ list found => ⟨list, others other list found, .refl other list⟩,
    fun named other list found => named other list (others other list found)⟩

/-- The item that a job removes goes, and no other item. -/
theorem step_evolves {job : Job} (stepped : before.step job = some after) :
    Evolves (removedBy job) before after := by
  have kept (other : isRemoval job = false) : removedBy job = none := by
    cases job <;> first | rfl | cases other
  cases step_effect stepped with
  | plays other told _ path =>
    rw [kept other]
    exact (Evolves.of_lists told.lists told.counter).trans (playing_evolves path)
  | asksSeek | answersSeek => exact .of_lists rfl rfl
  | addsItems adding found =>
    rw [kept (silent_of_isAddition adding).1]
    exact (setPlaylist_evolves found (collected_kept _ _ _ _ _) nofun).emit _
  | movesItem found =>
    exact (setPlaylist_evolves found (moveItem_kept _ _ _ _) nofun).emit _
  | removesItem found =>
    refine (setPlaylist_evolves found (removeItem_kept _ _ _) ?_).emit _
    rintro other id ⟨⟩
    rfl
  | missesItem absent =>
    refine evolves_absent (fun list found => ?_)
    have refused := absent list found
    rwa [(list.removeItem_ids _).1, decide_eq_false_iff_not] at refused
  | renames found =>
    have renamed (list : Playlist) (playlistId : Int) (playlistName : String) :
        Kept none playlistId list (list.setPlaylistName playlistName) :=
      .of_ids (Int.le_refl _) (fun _ => Iff.rfl)
    exact (setPlaylist_evolves found (renamed _ _ _) nofun).emit _
  | addsPlaylist => exact addPlaylist_evolves _ _ _ _
  | removesPlaylist => exact removePlaylist_evolves _ _

end Ids

/-! ## What a view has shown -/

/-- An id that a playlist has given out, or never will. -/
def Issued (state : PlaylistManagement) (playlistId id : Int) : Prop :=
  playlistId ≤ state.playlistIdCounter ∧
    ∀ list, state.playlistList.lookup playlistId = some list → id < list.playlistIdCounter

def Named (widget : PlaylistTabwidget) : Prop :=
  ∀ playlistId view, widget.playlistViews.lookup playlistId = some view →
    view.playlistId = playlistId

/-- Every view shows ids that its playlist has given out. -/
def Viewed (state : PlaylistManagement) (widget : PlaylistTabwidget) : Prop :=
  ∀ playlistId view, widget.playlistViews.lookup playlistId = some view →
    view.playlistId = playlistId ∧ Issued state playlistId invalidPlaylistItemId ∧
      ∀ id ∈ view.itemIds, Issued state playlistId id

section Views

variable {before after : PlaylistManagement} {widget next shown : PlaylistTabwidget}

/-- An id that was given out has been given out at any later time. -/
theorem Issued.later {removed : Option (Int × Int)} {playlistId id : Int}
    (issued : Issued before playlistId id) (evolves : Evolves removed before after) :
    Issued after playlistId id := by
  refine ⟨issued.1.trans evolves.counter, fun list found => ?_⟩
  obtain ⟨earlier, foundEarlier, kept⟩ := evolves.lists playlistId issued.1 list found
  exact Int.lt_of_lt_of_le (issued.2 earlier foundEarlier) kept.counter

/-- So the ids that a widget shows remain ids that were given out, while the plugin goes on. -/
theorem Viewed.later {removed : Option (Int × Int)} (viewed : Viewed before widget)
    (evolves : Evolves removed before after) : Viewed after widget := by
  intro playlistId view found
  obtain ⟨named, invalid, ids⟩ := viewed playlistId view found
  exact ⟨named, invalid.later evolves, fun id member => (ids id member).later evolves⟩

/-- Adding rows to a view leaves it the view of its playlist. -/
theorem addLoop_playlistId (items : List PlaylistItem) {view shown : PlaylistView}
    {row lastUsedCol : Nat}
    (added : PlaylistView.addLoop display view row lastUsedCol items = some shown) :
    shown.playlistId = view.playlistId := by
  induction items generalizing view row lastUsedCol with
  | nil =>
    obtain rfl := Option.some.inj added
    rfl
  | cons item rest inductionHypothesis =>
    rw [PlaylistView.addLoop] at added
    split at added
    · exact inductionHypothesis added
    · split at added
      · exact inductionHypothesis added
      · simp only at added
        split at added
        · cases added
        · exact (inductionHypothesis added).trans rfl

/-- And so it is for all items of a callback, by the loop over them. -/
theorem addItems_playlistId {view shown : PlaylistView} {fromId : Int}
    {items : Option (List PlaylistItem)}
    (added : view.addItems display fromId items = some shown) :
    shown.playlistId = view.playlistId := by
  cases items with
  | none =>
    obtain rfl := Option.some.inj added
    rfl
  | some items =>
    simp only [PlaylistView.addItems] at added
    split at added
    · obtain rfl := Option.some.inj added
      rfl
    · exact addLoop_playlistId items added

/-- A view that is put back under its own playlist keeps the widget in order. -/
theorem Named.setView (named : Named widget) {playlistId : Int} {view : PlaylistView}
    (own : view.playlistId = playlistId) : Named (widget.setView playlistId view) := by
  intro other otherView found
  rcases PlaylistTabwidget.setView_lookup found with ⟨rfl, rfl⟩ | before
  · exact own
  · exact named other otherView before

/-- A view keeps the id of its playlist. -/
theorem Named.receive (named : Named widget) {event : Event}
    (received : widget.receive display event = some next) : Named next := by
  cases PlaylistTabwidget.receive_received received with
  | same => exact named
  | addsView added => exact named.setView (addItems_playlistId added)
  | addsRows found added =>
    exact named.setView ((addItems_playlistId added).trans (named _ _ found))
  | movesRow fromId toId found =>
    refine named.setView (Eq.trans ?_ (named _ _ found))
    rw [PlaylistView.movePlaylistItem]
    split <;> rfl
  | @removesRow playlistId view playlistItemId found =>
    exact named.setView (named playlistId view found)
  | removesView playlistId =>
    exact fun other view found => named other view (PlaylistTabwidget.erase_lookup found)

/-- After any callbacks each view is still the one of the playlist that it is found under. -/
theorem Named.receiveAll (named : Named widget) {events : List Event}
    (received : widget.receiveAll display events = some next) : Named next := by
  induction events generalizing widget with
  | nil =>
    obtain rfl := Option.some.inj received
    exact named
  | cons event rest inductionHypothesis =>
    rw [PlaylistTabwidget.receiveAll, Option.bind_eq_some_iff] at received
    obtain ⟨between, first, later⟩ := received
    exact inductionHypothesis (named.receive first) later

/-- A widget that has handled all callbacks shows ids that were given out. -/
theorem viewed_of_holds (holds : PlaylistContents.Holds display after)
    (listed : ∀ playlistId list, after.playlistList.lookup playlistId = some list →
      playlistId ≤ after.playlistIdCounter)
    (handled : PlaylistTabwidget.receiveAll display ⟨∅⟩ after.events = some shown) :
    Viewed after shown := by
  obtain ⟨other, all, _, same⟩ := holds
  obtain rfl := Option.some.inj (handled.symm.trans all)
  have empty : Named ⟨∅⟩ := fun playlistId view found => by
    rw [AList.lookup_empty] at found
    cases found
  have named := empty.receiveAll handled
  intro playlistId view found
  have related := same playlistId
  rw [viewIds, found, coreIds] at related
  cases core : after.playlistList.lookup playlistId with
  | none =>
    rw [core] at related
    cases related
  | some list =>
    rw [core] at related
    cases related with
    | some permuted =>
      have below := listed playlistId list core
      refine ⟨named playlistId view found, ⟨below, fun changed lookup => ?_⟩,
        fun id member => ⟨below, fun changed lookup => ?_⟩⟩
      · have counted := changed.counted
        rw [invalidPlaylistItemId]
        omega
      · obtain rfl := Option.some.inj (core.symm.trans lookup)
        exact (list.issued id (permuted.mem_iff.mp member)).2

/-- Callbacks in silence leave the widget. -/
theorem receiveAll_append_silent (widget : PlaylistTabwidget) (events : List Event)
    {rest : List Event} (silent : ∀ event ∈ rest, Silent event) :
    widget.receiveAll display (events ++ rest) = widget.receiveAll display events := by
  rw [receiveAll_append]
  cases widget.receiveAll display events with
  | none => rfl
  | some next => exact receiveAll_silent display next silent

/-- What is handled of the callbacks after a job was handled before it, or is all that shows. -/
theorem receiveAll_take {new : List Event} (events : after.events = before.events ++ new)
    (single : AtMostOne new) {handled : Nat}
    (received : PlaylistTabwidget.receiveAll display ⟨∅⟩ (after.events.take handled) = some shown) :
    (∃ earlier, PlaylistTabwidget.receiveAll display ⟨∅⟩ (before.events.take earlier) =
      some shown) ∨ PlaylistTabwidget.receiveAll display ⟨∅⟩ after.events = some shown := by
  obtain ⟨first, rest, rfl, few, silent⟩ := single
  rw [events, List.take_append, List.take_append, ← List.append_assoc,
    receiveAll_append_silent _ _ (fun event member =>
      silent event (List.mem_of_mem_take member))] at received
  rw [events, ← List.append_assoc, receiveAll_append_silent _ _ silent]
  cases remaining : first.take (handled - before.events.length) with
  | nil =>
    rw [remaining, List.append_nil] at received
    exact .inl ⟨handled, received⟩
  | cons event others =>
    have all : first.take (handled - before.events.length) = first := by
      refine List.take_of_length_le (few.trans ?_)
      by_contra short
      have zero : handled - before.events.length = 0 := by omega
      rw [zero, List.take_zero] at remaining
      cases remaining
    have past : before.events.length ≤ handled := by
      by_contra short
      have zero : handled - before.events.length = 0 := by omega
      rw [zero, List.take_zero] at remaining
      cases remaining
    rw [all, List.take_of_length_le past] at received
    exact .inr received

end Views

/-! ## Runs -/

/-- What holds between two steps of the window. -/
structure Invariant (window : PlaylistWindow display) : Prop where
  holds : PlaylistContents.Holds display window.core
  listed : ∀ playlistId list, window.core.playlistList.lookup playlistId = some list →
    playlistId ≤ window.core.playlistIdCounter
  widget : PlaylistTabwidget.receiveAll display ⟨∅⟩ (window.core.events.take window.handled) =
    some window.widget
  handled : window.handled ≤ window.core.events.length
  -- the widget may lag by any number of callbacks
  viewed : ∀ handled shown,
    PlaylistTabwidget.receiveAll display ⟨∅⟩ (window.core.events.take handled) = some shown →
      Viewed window.core shown
  condemned : window.condemned =
    window.removed ++ window.jobs.filterMap (fun job => removedBy job.job)
  issued : ∀ item ∈ window.condemned, Issued window.core item.1 item.2
  gone : ∀ item ∈ window.removed, ∀ list,
    window.core.playlistList.lookup item.1 = some list → item.2 ∉ list.itemIds

section Runs

variable {window next earlier later : PlaylistWindow display}

/-- Only a job that runs changes the plugin. -/
theorem step_core {action : Action display} (stepped : step window action = some next) :
    next.core = window.core ∨ ∃ job, stepDisplayed display window.core job = some next.core := by
  cases action with
  | deleteSelectedItems playlistId selected =>
    obtain ⟨view, _, rfl⟩ := Option.map_eq_some_iff.mp stepped
    exact .inl rfl
  | post job =>
    simp only [step] at stepped
    split at stepped
    · obtain rfl := Option.some.inj stepped
      exact .inl rfl
    · cases stepped
  | runJob =>
    simp only [step] at stepped
    split at stepped
    · cases stepped
    · rename_i job rest _
      obtain ⟨core, ran, rfl⟩ := Option.map_eq_some_iff.mp stepped
      exact .inr ⟨job, ran⟩
  | receive =>
    simp only [step] at stepped
    split at stepped
    · cases stepped
    · obtain ⟨widget, _, rfl⟩ := Option.map_eq_some_iff.mp stepped
      exact .inl rfl

/-- A new window has no views, and nothing has been given out or deleted. -/
theorem start_invariant (display : Display) (uninitialised : PlaylistManagement.Uninitialised)
    (minWaitNextSong : Int) :
    Invariant (start display uninitialised minWaitNextSong) where
  holds := PlaylistContents.start_holds display rfl rfl
  listed := fun playlistId list found => by
    have empty : (∅ : AList fun _ : Int => Playlist).lookup playlistId = some list := found
    rw [AList.lookup_empty] at empty
    cases empty
  widget := rfl
  handled := Nat.le_refl 0
  viewed := fun handled shown received => by
    have none : (start display uninitialised minWaitNextSong).core.events = [] := rfl
    rw [none, List.take_nil] at received
    obtain rfl := Option.some.inj received
    intro playlistId view found
    rw [AList.lookup_empty] at found
    cases found
  condemned := rfl
  issued := fun _ member => absurd member List.not_mem_nil
  gone := fun _ member => absurd member List.not_mem_nil

/-- The items in selected rows were given out, or are no items. -/
theorem deleteSelectedItems_issued {state : PlaylistManagement} {widget : PlaylistTabwidget}
    (viewed : Viewed state widget) {playlistId : Int} {view : PlaylistView}
    (found : widget.playlistViews.lookup playlistId = some view) (selected : List Nat) :
    ∀ item ∈ view.deleteSelectedItems selected, Issued state item.1 item.2 := by
  obtain ⟨named, invalid, ids⟩ := viewed playlistId view found
  intro item member
  obtain ⟨row, _, rfl⟩ := List.mem_map.mp member
  simp only [named, PlaylistView.getItemPlaylistId]
  cases shown : view.rows[row]? with
  | none => exact invalid
  | some there =>
    exact ids _ (List.mem_map_of_mem (List.mem_of_getElem? shown))

/-- The jobs for the deleted rows remove the items that were shown in these rows, each once and in
their order. -/
theorem removedBy_removals (display : Display) (items : List (Int × Int)) :
    (items.map (removal display)).filterMap (fun job => removedBy job.job) = items := by
  rw [List.filterMap_map]
  exact List.filterMap_some

/-- An item that was given out and is gone stays so. -/
theorem gone_evolves {removed : Option (Int × Int)} {before after : PlaylistManagement}
    (evolves : Evolves removed before after) {playlistId id : Int}
    (issued : Issued before playlistId id)
    (gone : ∀ list, before.playlistList.lookup playlistId = some list → id ∉ list.itemIds) :
    ∀ list, after.playlistList.lookup playlistId = some list → id ∉ list.itemIds := by
  intro list found member
  obtain ⟨before, foundBefore, kept⟩ := evolves.lists playlistId issued.1 list found
  exact gone before foundBefore ((kept.items id (issued.2 before foundBefore)).mp member).1

/-- The plugin runs a job. -/
theorem runJob_invariant (invariant : Invariant window) {job : DisplayedJob display}
    {rest : List (DisplayedJob display)} (queued : window.jobs = job :: rest)
    {core : PlaylistManagement} (ran : stepDisplayed display window.core job = some core) :
    Invariant { window with
      core := core
      jobs := rest
      removed := window.removed ++ (removedBy job.job).toList } := by
  have evolves : Evolves (removedBy job.job) window.core core := step_evolves ran
  have answered := step_answered invariant.holds ran
  obtain ⟨new, events, single⟩ := answered.events
  have listed := evolves.named invariant.listed
  have condemned : window.condemned = window.removed ++ (removedBy job.job).toList ++
      rest.filterMap (fun job => removedBy job.job) := by
    rw [invariant.condemned, queued, List.append_assoc, List.filterMap_cons]
    cases removedBy job.job <;> rfl
  refine ⟨answered.holds, listed, ?_, ?_, fun handled shown received => ?_, condemned,
    fun item member => (invariant.issued item member).later evolves, fun item member => ?_⟩
  · rw [events, List.take_append_of_le_length invariant.handled]
    exact invariant.widget
  · rw [events, List.length_append]
    exact invariant.handled.trans (Nat.le_add_right _ _)
  · rcases receiveAll_take events single received with ⟨earlier, before⟩ | all
    · exact (invariant.viewed earlier shown before).later evolves
    · exact viewed_of_holds answered.holds listed all
  · have named : item ∈ window.condemned := by
      rw [condemned]
      exact List.mem_append_left _ member
    have issued := invariant.issued item named
    rcases List.mem_append.mp member with old | removed
    · exact gone_evolves evolves issued (invariant.gone item old)
    · -- the job removes this item
      intro list found there
      obtain ⟨before, foundBefore, kept⟩ := evolves.lists item.1 issued.1 list found
      exact ((kept.items item.2 (issued.2 before foundBefore)).mp there).2
        (Option.mem_toList.mp removed)

/-- Every step keeps what the window knows of the two sides: deleted rows were shown, what was
shown was given out, and what was removed does not come back. -/
theorem step_invariant {action : Action display} (invariant : Invariant window)
    (stepped : step window action = some next) : Invariant next := by
  cases action with
  | deleteSelectedItems playlistId selected =>
    obtain ⟨view, found, rfl⟩ := Option.map_eq_some_iff.mp stepped
    refine { invariant with condemned := ?_, issued := fun item member => ?_ }
    · simp only
      rw [List.filterMap_append, removedBy_removals, invariant.condemned, List.append_assoc]
    · rcases List.mem_append.mp member with old | new
      · exact invariant.issued item old
      · have viewed := invariant.viewed window.handled window.widget invariant.widget
        exact deleteSelectedItems_issued viewed found selected item new
  | post job =>
    simp only [step] at stepped
    split at stepped
    · rename_i other
      obtain rfl := Option.some.inj stepped
      refine { invariant with condemned := ?_ }
      simp only [List.filterMap_append, List.filterMap_cons, other, List.filterMap_nil,
        List.append_nil]
      exact invariant.condemned
    · cases stepped
  | runJob =>
    simp only [step] at stepped
    split at stepped
    · cases stepped
    · rename_i job rest queued
      obtain ⟨core, ran, rfl⟩ := Option.map_eq_some_iff.mp stepped
      exact runJob_invariant invariant queued ran
  | receive =>
    simp only [step] at stepped
    split at stepped
    · cases stepped
    · rename_i event pending
      obtain ⟨widget, received, rfl⟩ := Option.map_eq_some_iff.mp stepped
      obtain ⟨below, at_event⟩ := List.getElem?_eq_some_iff.mp pending
      refine { invariant with widget := ?_, handled := below }
      rw [List.take_add_one, pending, receiveAll_append, invariant.widget]
      simp only [Option.bind_some, Option.toList_some, PlaylistTabwidget.receiveAll, received]

/-- An item that was in a playlist, for as long as the playlist is there. -/
structure Tracked (playlistId id : Int) (window : PlaylistWindow display) : Prop where
  issued : Issued window.core playlistId id
  found : ∀ list, window.core.playlistList.lookup playlistId = some list →
    id ∈ list.itemIds ∨ (playlistId, id) ∈ window.removed

/-- An item that was in a playlist is there after a step, or has been removed by then, or its
playlist is gone. -/
theorem step_tracked {playlistId id : Int} {action : Action display}
    (tracked : Tracked playlistId id window) (stepped : step window action = some next) :
    Tracked playlistId id next := by
  cases action with
  | deleteSelectedItems other selected =>
    obtain ⟨view, _, rfl⟩ := Option.map_eq_some_iff.mp stepped
    exact ⟨tracked.issued, tracked.found⟩
  | post job =>
    simp only [step] at stepped
    split at stepped
    · obtain rfl := Option.some.inj stepped
      exact ⟨tracked.issued, tracked.found⟩
    · cases stepped
  | runJob =>
    simp only [step] at stepped
    split at stepped
    · cases stepped
    · rename_i job rest queued
      obtain ⟨core, ran, rfl⟩ := Option.map_eq_some_iff.mp stepped
      have evolves : Evolves (removedBy job.job) window.core core := step_evolves ran
      refine ⟨tracked.issued.later evolves, fun list found => ?_⟩
      obtain ⟨before, foundBefore, kept⟩ := evolves.lists playlistId tracked.issued.1 list found
      rcases tracked.found before foundBefore with there | gone
      · by_cases removed : removedBy job.job = some (playlistId, id)
        · refine .inr (List.mem_append_right _ ?_)
          exact Option.mem_toList.mpr removed
        · exact .inl ((kept.items id (tracked.issued.2 before foundBefore)).mpr ⟨there, removed⟩)
      · exact .inr (List.mem_append_left _ gone)
  | receive =>
    simp only [step] at stepped
    split at stepped
    · cases stepped
    · obtain ⟨widget, _, rfl⟩ := Option.map_eq_some_iff.mp stepped
      exact ⟨tracked.issued, tracked.found⟩

/-- From the moment at which it is in the playlist, an item is followed in this way. -/
theorem Invariant.tracked (invariant : Invariant window) {playlistId id : Int} {list : Playlist}
    (found : window.core.playlistList.lookup playlistId = some list) (there : id ∈ list.itemIds) :
    Tracked playlistId id window := by
  refine ⟨⟨invariant.listed playlistId list found, fun other foundOther => ?_⟩,
    fun other foundOther => ?_⟩
  · obtain rfl := Option.some.inj (found.symm.trans foundOther)
    exact (list.issued id there).2
  · obtain rfl := Option.some.inj (found.symm.trans foundOther)
    exact .inl there

/-- In every run, whatever jobs and callbacks wait: an item that was in a playlist is there later
exactly when its removal has not run. When no jobs wait, the removed items are those that the
deleted rows showed, and a widget that has handled the callbacks shows the others. -/
theorem deletes_what_was_seen {uninitialised : PlaylistManagement.Uninitialised}
    {minWaitNextSong : Int}
    {before after : List (Action display)}
    (reached : LabelledRuns.run step (start display uninitialised minWaitNextSong) before =
      some earlier)
    (ran : LabelledRuns.run step earlier after = some later) {playlistId id : Int}
    {list remaining : Playlist} (found : earlier.core.playlistList.lookup playlistId = some list)
    (there : id ∈ list.itemIds)
    (foundLater : later.core.playlistList.lookup playlistId = some remaining) :
    (id ∈ remaining.itemIds ↔ (playlistId, id) ∉ later.removed) ∧
      (later.jobs = [] → later.removed = later.condemned) ∧
      (later.handled = later.core.events.length →
        ∃ view, later.widget.playlistViews.lookup playlistId = some view ∧
          view.itemIds.Perm remaining.itemIds) := by
  have invariantThen : Invariant earlier :=
    LabelledRuns.run_preserves (fun _ _ _ => step_invariant)
      (start_invariant display uninitialised minWaitNextSong) reached
  have invariant : Invariant later :=
    LabelledRuns.run_preserves (fun _ _ _ => step_invariant) invariantThen ran
  have tracked : Tracked playlistId id later :=
    LabelledRuns.run_preserves (fun _ _ _ => step_tracked) (invariantThen.tracked found there) ran
  refine ⟨⟨fun member removed => ?_, fun kept => ?_⟩, fun idle => ?_, fun handled => ?_⟩
  · exact invariant.gone _ removed remaining foundLater member
  · exact (tracked.found remaining foundLater).resolve_right kept
  · rw [invariant.condemned, idle]
    exact (List.append_nil _).symm
  · obtain ⟨shown, received, _, same⟩ := invariant.holds
    have widget := invariant.widget
    rw [handled, List.take_length] at widget
    obtain rfl := Option.some.inj (widget.symm.trans received)
    exact same.view foundLater

end Runs

/-- Three items are shown, and then the first of them is moved. -/
def moved : List (Action plainDisplay) :=
  threeItems.map Action.post ++ [.runJob, .runJob, .receive, .receive, .receive,
    .post (titled (.movePlaylistItem 0 0 2) (Or.inr rfl)), .runJob]

/-- A view that has yet to learn of a move deletes its first row. What goes is the item that was
moved, and not the one that is first by then. -/
theorem deletes_what_was_seen_moved : ∃ earlier later list remaining,
    LabelledRuns.run step (start plainDisplay ⟨.stop, -1, -1⟩ 10000) moved = some earlier ∧
      LabelledRuns.run step earlier [.deleteSelectedItems 0 [0], .runJob, .receive, .receive] =
        some later ∧
      earlier.core.playlistList.lookup 0 = some list ∧ list.itemIds = [1, 0, 2] ∧
      later.core.playlistList.lookup 0 = some remaining ∧ later.removed = [(0, 0)] ∧
      1 ∈ remaining.itemIds ∧
      ∃ view, later.widget.playlistViews.lookup 0 = some view ∧
        view.itemIds.Perm remaining.itemIds := by
  have run : ∃ earlier later list remaining,
      LabelledRuns.run step (start plainDisplay ⟨.stop, -1, -1⟩ 10000) moved = some earlier ∧
        LabelledRuns.run step earlier [.deleteSelectedItems 0 [0], .runJob, .receive, .receive] =
          some later ∧
        earlier.core.playlistList.lookup 0 = some list ∧ list.itemIds = [1, 0, 2] ∧
        later.core.playlistList.lookup 0 = some remaining ∧ later.removed = [(0, 0)] ∧
        later.handled = later.core.events.length := ⟨_, _, _, _, rfl, rfl, rfl, rfl, rfl, rfl, rfl⟩
  obtain ⟨earlier, later, list, remaining, reached, ran, found, ids, foundLater, removed, handled⟩ :=
    run
  have there : 1 ∈ list.itemIds := by rw [ids]; decide
  obtain ⟨kept, _, shown⟩ := deletes_what_was_seen reached ran found there foundLater
  refine ⟨earlier, later, list, remaining, reached, ran, found, ids, foundLater, removed,
    kept.mpr ?_, shown handled⟩
  rw [removed]
  decide

end PlaylistDeletion

end Mprt
