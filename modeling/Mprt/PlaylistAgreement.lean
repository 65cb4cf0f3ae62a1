import Mprt.JobEffects
import Mprt.LabelledRuns
import Mprt.PlaylistOrder
import Mprt.PlaylistRows

/-!
# Whether a view shows its playlist in order

The plugin and a view change the same list of item ids, the one in the order of
its jobs, the other in the order of the callbacks they call. Removing agrees. A
moved item goes before its target in the playlist, while the view inserts it in
the row that the target had before the item was taken out: the two agree unless
the item moves down. A target that is missing leads to the end of the playlist,
but not in the view. Added items agree unless their anchor is the id that one of
them but the last is going to get.
-/

namespace Mprt.PlaylistAgreement

open PlaylistManagement

/-- The order of a playlist of the plugin. -/
def coreIds (state : PlaylistManagement) (playlistId : Int) : Option (List Int) :=
  (state.playlistList.lookup playlistId).map Playlist.itemIds

/-- The row order of a view. -/
def viewIds (widget : PlaylistTabwidget) (playlistId : Int) : Option (List Int) :=
  (widget.playlistViews.lookup playlistId).map PlaylistView.itemIds

/-- Every playlist has a view that shows its items in their order. -/
def Shows (widget : PlaylistTabwidget) (state : PlaylistManagement) : Prop :=
  ∀ playlistId ids, coreIds state playlistId = some ids → viewIds widget playlistId = some ids

/-- The widget shows the playlists when it has handled the callbacks so far. -/
def Agrees (display : Display) (widget : PlaylistTabwidget) (state : PlaylistManagement) : Prop :=
  ∃ shown, widget.receiveAll display state.events = some shown ∧ Shows shown state

/-- A move of an item that is there stays in place or goes up, before a target
that is there, or it takes the last item to the end. -/
def MoveAligned (ids : List Int) (fromId toId : Int) : Prop :=
  fromId ∈ ids → if toId ∈ ids then ids.idxOf toId ≤ ids.idxOf fromId
    else ids.idxOf fromId + 1 = ids.length

instance (ids : List Int) (fromId toId : Int) : Decidable (MoveAligned ids fromId toId) :=
  inferInstanceAs (Decidable (_ → _))

/-- The anchor of added items is not one of their ids, or is the last of them. -/
def AddAligned (files : FileSystem) (list : Playlist) (fromId : Int) (urls : List String) : Prop :=
  ¬ (list.playlistIdCounter ≤ fromId ∧
    fromId + 1 < list.playlistIdCounter +
      Playlist.acceptedCount files list.basePath (localUrls files urls))

instance (files : FileSystem) (list : Playlist) (fromId : Int) (urls : List String) :
    Decidable (AddAligned files list fromId urls) :=
  inferInstanceAs (Decidable (¬ _))

/-- The condition on a job that changes the order of a playlist. -/
def Aligned (state : PlaylistManagement) : Job → Prop
  | .addPlaylistItems files playlistId fromId (some urls) =>
      OnPlaylist state playlistId (fun list => AddAligned files list fromId urls)
  | .addPlaylistDirectory files playlistId fromId dirname =>
      OnPlaylist state playlistId (fun list =>
        AddAligned files list fromId (addPlaylistDirectoryBuilder files dirname))
  | .movePlaylistItem playlistId fromId toId =>
      OnPlaylist state playlistId (fun list => MoveAligned list.itemIds fromId toId)
  | _ => True

instance (state : PlaylistManagement) : (job : Job) → Decidable (Aligned state job)
  | .addPlaylistItems files playlistId fromId (some urls) =>
      inferInstanceAs (Decidable (OnPlaylist state playlistId (fun list =>
        AddAligned files list fromId urls)))
  | .addPlaylistDirectory files playlistId fromId dirname =>
      inferInstanceAs (Decidable (OnPlaylist state playlistId (fun list =>
        AddAligned files list fromId (addPlaylistDirectoryBuilder files dirname))))
  | .movePlaylistItem playlistId fromId toId =>
      inferInstanceAs (Decidable (OnPlaylist state playlistId (fun list =>
        MoveAligned list.itemIds fromId toId)))
  | .addPlaylistItems _ _ _ none | .startPlay _ _ | .stop | .pause | .cont | .quit
  | .seekDuration _ _ _ | .progress _ _ | .addPlaylist _ _ _ | .removePlaylistItem _ _
  | .savePlaylist _ _ _ | .renamePlaylist _ _ | .removePlaylist _ | .inputOpened _ _
  | .decoderOpened _ _ | .soundOpened _ | .seekFinished => inferInstanceAs (Decidable True)

/-- The file system of a job that asks one. -/
def jobFiles : Job → Option FileSystem
  | .addPlaylist files _ _ | .addPlaylistItems files _ _ _ | .addPlaylistDirectory files _ _ _ =>
      some files
  | _ => none

/-- A job whose urls yield displayable tags, when they are accepted at all. -/
structure DisplayedJob (display : Display) where
  job : Job
  displayed : ∀ files, jobFiles job = some files → ∀ file metadata,
    files.readMetadata file = some metadata → Displayable display metadata.tags

def stepDisplayed (display : Display) (state : PlaylistManagement) (job : DisplayedJob display) :
    Option PlaylistManagement :=
  state.step job.job

/-! ## Steps that do not concern the order -/

/-- An event that the widget does not handle, or that does not concern the rows. -/
def Silent (event : Event) : Prop :=
  ∀ (display : Display) (widget : PlaylistTabwidget), widget.receive display event = some widget

/-- The callbacks that make the widget add, move or remove rows or a view. -/
def changesRows : Event → Bool
  | .addPlaylistCb _ _ _ | .addPlaylistItemCb _ _ _ | .movePlaylistItemCb _ _ _
  | .removePlaylistItemCb _ _ | .removePlaylistCb _ => true
  | _ => false

/-- An event that changes no rows is handled by the widget without a change. -/
theorem silent_of_kept {event : Event} (kept : changesRows event = false) : Silent event := by
  intro display widget
  cases event with
  | addPlaylistCb | addPlaylistItemCb | movePlaylistItemCb | removePlaylistItemCb
  | removePlaylistCb => cases kept
  | _ => rfl

/-- The orders and the counter are kept, and the new events are silent. -/
def Quiet (before after : PlaylistManagement) : Prop :=
  coreIds after = coreIds before ∧ after.playlistIdCounter = before.playlistIdCounter ∧
    ∃ new, after.events = before.events ++ new ∧ ∀ event ∈ new, Silent event

namespace Quiet

variable {before middle after : PlaylistManagement}

/-- A step that does nothing is quiet. -/
theorem refl (state : PlaylistManagement) : Quiet state state :=
  ⟨rfl, rfl, [], (List.append_nil _).symm, fun _ member => by cases member⟩

/-- Two quiet steps are one: the orders stay, and all that was told is handled in silence. -/
theorem trans (first : Quiet before middle) (second : Quiet middle after) :
    Quiet before after := by
  obtain ⟨idsFirst, counterFirst, newFirst, eventsFirst, silentFirst⟩ := first
  obtain ⟨idsSecond, counterSecond, newSecond, eventsSecond, silentSecond⟩ := second
  refine ⟨idsSecond.trans idsFirst, counterSecond.trans counterFirst, newFirst ++ newSecond,
    ?_, ?_⟩
  · rw [eventsSecond, eventsFirst, List.append_assoc]
  · intro event member
    rcases List.mem_append.mp member with early | late
    · exact silentFirst event early
    · exact silentSecond event late

end Quiet

/-- Events that change no rows are handled in silence. -/
theorem told_quiet {before after : PlaylistManagement} {more : List Event}
    (told : Told before after more) (kept : more.any changesRows = false) :
    Quiet before after := by
  refine ⟨?_, told.counter, more, told.events, fun event member =>
    silent_of_kept (Bool.eq_false_iff.mpr (List.any_eq_false.mp kept event member))⟩
  funext playlistId
  rw [coreIds, told.lists, coreIds]

/-- To tell of something else than rows is quiet. -/
theorem emit_quiet (state : PlaylistManagement) (events : List Event)
    (kept : events.any changesRows = false) : Quiet state (state.emit events) :=
  told_quiet ⟨rfl, rfl, rfl⟩ kept

/-- A playlist that is stored has the order that it comes with, and the other playlists keep
theirs. -/
theorem setPlaylist_ids (state : PlaylistManagement) (playlistId : Int) (list : Playlist)
    (other : Int) : coreIds (state.setPlaylist playlistId list) other =
      if other = playlistId then some list.itemIds else coreIds state other := by
  unfold coreIds setPlaylist
  by_cases same : other = playlistId
  · rw [if_pos same, same, AList.lookup_insert]
    rfl
  · rw [if_neg same, AList.lookup_insert_ne same]

/-- A playlist may change in everything but its order. -/
theorem setPlaylist_quiet {state : PlaylistManagement} {playlistId : Int} {list changed : Playlist}
    (found : state.playlistList.lookup playlistId = some list)
    (ids : changed.itemIds = list.itemIds) : Quiet state (state.setPlaylist playlistId changed) := by
  refine ⟨?_, rfl, [], (List.append_nil _).symm, fun _ member => by cases member⟩
  funext other
  rw [setPlaylist_ids]
  by_cases same : other = playlistId
  · rw [if_pos same, ids, same, coreIds, found]
    rfl
  · rw [if_neg same]

/-- Playing an item changes its url id, and tells that it starts, which no row shows. -/
theorem playItem_quiet {state : PlaylistManagement} {list : Playlist}
    (found : state.playlistList.lookup state.currentPlayingListId = some list)
    (playlistItemId : Int) (item : PlaylistItem) :
    Quiet state (state.playItem list playlistItemId item) := by
  have added : Quiet state (state.addInputItem (list.basePath ++ item.url)) :=
    told_quiet ⟨rfl, rfl, rfl⟩ rfl
  have ids := Playlist.updateUrlId_ids list playlistItemId (state.inputUrlId + 1)
  have foundThen : (state.addInputItem (list.basePath ++ item.url)).playlistList.lookup
      state.currentPlayingListId = some list := found
  exact (added.trans (setPlaylist_quiet foundThen ids)).trans (emit_quiet _ _ rfl)

/-- Telling the progress and playing an item concern no order. -/
theorem playing_quiet {before after : PlaylistManagement} (path : Playing before after) :
    Quiet before after := by
  induction path with
  | tells told _ progress =>
    refine told_quiet told (List.any_eq_false.mpr (fun event member => ?_))
    rcases progress event member with rfl | ⟨_, _, _, rfl⟩ <;> exact Bool.false_ne_true
  | plays found _ => exact playItem_quiet found _ _
  | trans _ _ first second => exact first.trans second

/-! ## Steps and callbacks -/

/-- Callbacks can be handled in parts, where the widget fails for all if it fails for one. -/
theorem receiveAll_append (display : Display) (widget : PlaylistTabwidget)
    (first second : List Event) :
    widget.receiveAll display (first ++ second) =
      (widget.receiveAll display first).bind (fun next => next.receiveAll display second) := by
  induction first generalizing widget with
  | nil => rfl
  | cons event rest inductionHypothesis =>
    simp only [List.cons_append, PlaylistTabwidget.receiveAll]
    cases widget.receive display event with
    | none => rfl
    | some next => exact inductionHypothesis next

/-- Any number of silent callbacks leaves the widget as it is, by induction on them. -/
theorem receiveAll_silent (display : Display) (widget : PlaylistTabwidget) {events : List Event}
    (silent : ∀ event ∈ events, Silent event) :
    widget.receiveAll display events = some widget := by
  induction events with
  | nil => rfl
  | cons event rest inductionHypothesis =>
    rw [PlaylistTabwidget.receiveAll, silent event List.mem_cons_self display widget]
    exact inductionHypothesis (fun other member => silent other (List.mem_cons_of_mem event member))

def AllIndexed (widget : PlaylistTabwidget) : Prop :=
  ∀ playlistId view, widget.playlistViews.lookup playlistId = some view → view.Indexed

/-- The widget handles the callbacks so far, with the views in order, and shows
the playlists exactly under a condition. -/
def ShowsWhen (display : Display) (widget : PlaylistTabwidget) (state : PlaylistManagement)
    (condition : Prop) : Prop :=
  ∃ shown, widget.receiveAll display state.events = some shown ∧ AllIndexed shown ∧
    (Shows shown state ↔ condition)

variable {display : Display} {widget shown : PlaylistTabwidget}
variable {before after : PlaylistManagement}

/-- A view in order may take the place of another in a widget in order. -/
theorem AllIndexed.setView (indexed : AllIndexed shown) {view : PlaylistView}
    (indexedView : view.Indexed) (playlistId : Int) :
    AllIndexed (shown.setView playlistId view) := by
  intro other otherView found
  rcases PlaylistTabwidget.setView_lookup found with ⟨_, rfl⟩ | before
  · exact indexedView
  · exact indexed other otherView before

/-- With a view less the others are still in order. -/
theorem AllIndexed.erase (indexed : AllIndexed shown) (playlistId : Int) :
    AllIndexed ⟨shown.playlistViews.erase playlistId⟩ :=
  fun other view found => indexed other view (PlaylistTabwidget.erase_lookup found)

/-- A job that calls back once is handled by handling this callback. -/
theorem receiveAll_single {event : Event} {next : PlaylistTabwidget}
    (received : shown.receive display event = some next) :
    shown.receiveAll display [event] = some next := by
  rw [PlaylistTabwidget.receiveAll, received]
  rfl

/-- The widget that has handled all callbacks agrees with the plugin exactly under the condition,
as there is only one such widget. -/
theorem ShowsWhen.agrees_iff {condition : Prop}
    (when : ShowsWhen display widget after condition) :
    Agrees display widget after ↔ condition := by
  obtain ⟨reached, handled, _, exact⟩ := when
  constructor
  · rintro ⟨other, same, shows⟩
    rw [handled] at same
    obtain rfl := Option.some.inj same
    exact exact.mp shows
  · intro holds
    exact ⟨reached, handled, exact.mpr holds⟩

/-- The condition may be put in other words. -/
theorem ShowsWhen.congr {first second : Prop} (same : first ↔ second)
    (when : ShowsWhen display widget after first) : ShowsWhen display widget after second := by
  obtain ⟨reached, handled, indexed, exact⟩ := when
  exact ⟨reached, handled, indexed, exact.trans same⟩

/-- A quiet step keeps the agreement: neither side changes an order. -/
theorem Quiet.showsWhen (quiet : Quiet before after)
    (holds : ShowsWhen display widget before True) : ShowsWhen display widget after True := by
  obtain ⟨ids, _, new, events, silent⟩ := quiet
  obtain ⟨shown, handled, indexed, shows⟩ := holds
  refine ⟨shown, ?_, indexed, ?_⟩
  · rw [events, receiveAll_append, handled]
    exact receiveAll_silent display shown silent
  · rw [← shows, Shows, Shows, ids]

/-- One playlist and its view change. The others agree as before, so all depends
on the two new orders. -/
theorem changed_showsWhen {playlistId : Int} {ids : List Int} {view : PlaylistView}
    {new : List Event}
    (handled : widget.receiveAll display before.events = some shown) (indexed : AllIndexed shown)
    (shows : Shows shown before)
    (lists : ∀ other, coreIds after other =
      if other = playlistId then some ids else coreIds before other)
    (events : after.events = before.events ++ new)
    (received : shown.receiveAll display new = some (shown.setView playlistId view))
    (indexedView : view.Indexed) :
    ShowsWhen display widget after (view.itemIds = ids) := by
  refine ⟨shown.setView playlistId view, ?_, indexed.setView indexedView playlistId, ?_⟩
  · rw [events, receiveAll_append, handled]
    exact received
  · have own : viewIds (shown.setView playlistId view) playlistId = some view.itemIds := by
      unfold viewIds PlaylistTabwidget.setView
      rw [AList.lookup_insert]
      rfl
    constructor
    · intro showsAfter
      have changed := showsAfter playlistId ids (by rw [lists, if_pos rfl])
      exact Option.some.inj (own.symm.trans changed)
    · intro agree other otherIds found
      rw [lists] at found
      by_cases same : other = playlistId
      · rw [if_pos same] at found
        obtain rfl := Option.some.inj found
        rw [same, own, agree]
      · rw [if_neg same] at found
        have kept : viewIds (shown.setView playlistId view) other = viewIds shown other := by
          unfold viewIds PlaylistTabwidget.setView
          rw [AList.lookup_insert_ne same]
        exact kept.trans (shows other otherIds found)

/-- The case of a job that changes a playlist and calls back once. -/
theorem setPlaylist_showsWhen {playlistId : Int} {list : Playlist} {view : PlaylistView}
    {event : Event} (handled : widget.receiveAll display before.events = some shown)
    (indexed : AllIndexed shown) (shows : Shows shown before)
    (received : shown.receive display event = some (shown.setView playlistId view))
    (indexedView : view.Indexed) :
    ShowsWhen display widget ((before.setPlaylist playlistId list).emit [event])
      (view.itemIds = list.itemIds) := by
  have lists : ∀ other, coreIds ((before.setPlaylist playlistId list).emit [event]) other =
      if other = playlistId then some list.itemIds else coreIds before other :=
    setPlaylist_ids before playlistId list
  have events : ((before.setPlaylist playlistId list).emit [event]).events =
      before.events ++ [event] := rfl
  exact changed_showsWhen handled indexed shows lists events (receiveAll_single received)
    indexedView

/-- The view of a playlist that is shown. -/
theorem Shows.view (shows : Shows shown before) {playlistId : Int} {list : Playlist}
    (found : before.playlistList.lookup playlistId = some list) :
    ∃ view, shown.playlistViews.lookup playlistId = some view ∧ view.itemIds = list.itemIds := by
  have ids : coreIds before playlistId = some list.itemIds := by
    rw [coreIds, found]
    rfl
  exact Option.map_eq_some_iff.mp (shows playlistId list.itemIds ids)

/-! ## Moves and removals -/

/-- The two ways to move an item agree exactly when the move is aligned. -/
theorem moveIds_eq_iff {ids : List Int} (distinct : ids.Nodup) {fromId : Int}
    (there : fromId ∈ ids) (toId : Int) :
    PlaylistView.moveIds ids fromId toId = KeyedSequence.moveRow ids (ids.idxOf fromId)
        (KeyedSequence.landing (ids.idxOf fromId) (ids.idxOf toId)) ↔
      MoveAligned ids fromId toId := by
  have source := List.idxOf_lt_length_of_mem there
  unfold PlaylistView.moveIds MoveAligned
  by_cases target : toId ∈ ids
  · have targetInside := List.idxOf_lt_length_of_mem target
    have landed : KeyedSequence.landing (ids.idxOf fromId) (ids.idxOf toId) < ids.length := by
      rw [KeyedSequence.landing]
      split <;> omega
    rw [if_pos ⟨there, target⟩, KeyedSequence.moveRow_inj distinct source targetInside landed,
      if_pos target]
    rw [KeyedSequence.landing]
    constructor
    · intro same _
      split at same <;> omega
    · intro aligned
      have upwards := aligned there
      rw [if_neg (by omega)]
  · have absent : ¬ (fromId ∈ ids ∧ toId ∈ ids) := fun both => target both.2
    have atEnd : ids.idxOf toId = ids.length := List.idxOf_eq_length target
    have landed : KeyedSequence.landing (ids.idxOf fromId) (ids.idxOf toId) = ids.length - 1 := by
      rw [KeyedSequence.landing, atEnd, if_pos source]
    rw [if_neg absent, landed, if_neg target]
    have stays := KeyedSequence.moveRow_self ids (ids.idxOf fromId)
    have exact := KeyedSequence.moveRow_inj distinct source source
      (show ids.length - 1 < ids.length by omega)
    rw [stays] at exact
    rw [exact]
    constructor
    · intro same _
      omega
    · intro last
      have last := last there
      omega

/-- A move is shown as it was done exactly when it is aligned: the view takes the row of the
target with the moved item still in its place, and the plugin puts the item before the target. -/
theorem movePlaylistItem_showsWhen (holds : ShowsWhen display widget before True)
    (playlistId fromId toId : Int) :
    ShowsWhen display widget (before.movePlaylistItem playlistId fromId toId)
      (OnPlaylist before playlistId (fun list => MoveAligned list.itemIds fromId toId)) := by
  rw [movePlaylistItem]
  split
  · rename_i missing
    refine holds.congr ?_
    simp only [onPlaylist_none missing]
  · rename_i list found
    rw [onPlaylist_some found]
    obtain ⟨moved, ids⟩ := list.moveItem_ids fromId toId
    simp only [moved]
    by_cases there : fromId ∈ list.itemIds
    · simp only [decide_eq_true there, if_true]
      obtain ⟨shown, handled, indexed, shows⟩ := holds
      obtain ⟨view, viewFound, same⟩ := (shows.mpr trivial).view found
      obtain ⟨indexedMoved, idsMoved⟩ :=
        (indexed playlistId view viewFound).movePlaylistItem fromId toId
      have received : shown.receive display (.movePlaylistItemCb playlistId fromId toId) =
          some (shown.setView playlistId (view.movePlaylistItem fromId toId)) := by
        simp only [PlaylistTabwidget.receive, viewFound]
      refine (setPlaylist_showsWhen handled indexed (shows.mpr trivial) received
        indexedMoved).congr ?_
      rw [idsMoved, ids, same]
      exact moveIds_eq_iff list.itemIds_nodup there toId
    · simp only [decide_eq_false there, Bool.false_eq_true, if_false]
      refine holds.congr ?_
      constructor
      · intro _ present
        exact absurd present there
      · intro _
        trivial

/-- A removal is always shown as it was done: both sides take out the row with the id, or find
none. -/
theorem removePlaylistItem_showsWhen (holds : ShowsWhen display widget before True)
    (playlistId playlistItemId : Int) :
    ShowsWhen display widget (before.removePlaylistItem playlistId playlistItemId) True := by
  rw [removePlaylistItem]
  split
  · exact holds
  · rename_i list found
    obtain ⟨removed, ids⟩ := list.removeItem_ids playlistItemId
    simp only [removed]
    by_cases there : playlistItemId ∈ list.itemIds
    · simp only [decide_eq_true there, if_true]
      obtain ⟨shown, handled, indexed, shows⟩ := holds
      obtain ⟨view, viewFound, same⟩ := (shows.mpr trivial).view found
      obtain ⟨indexedRemoved, idsRemoved⟩ :=
        (indexed playlistId view viewFound).removePlaylistItem playlistItemId
      have received : shown.receive display (.removePlaylistItemCb playlistId playlistItemId) =
          some (shown.setView playlistId (view.removePlaylistItem playlistItemId)) := by
        simp only [PlaylistTabwidget.receive, viewFound]
      refine (setPlaylist_showsWhen handled indexed (shows.mpr trivial) received
        indexedRemoved).congr ?_
      rw [idsRemoved, ids, same]
      simp only
    · simp only [decide_eq_false there, Bool.false_eq_true, if_false]
      exact holds

/-- A removed playlist has no order any more, and the others keep theirs. -/
theorem removePlaylist_ids (state : PlaylistManagement) (playlistId other : Int) :
    coreIds (state.removePlaylist playlistId) other =
      if other = playlistId then none else coreIds state other := by
  unfold coreIds removePlaylist emit
  split
  · rename_i same
    rw [same, AList.lookup_erase]
    rfl
  · rename_i differs
    exact congrArg (Option.map Playlist.itemIds) (AList.lookup_erase_ne differs)

/-- The widget drops the view of the removed playlist when it handles the callback, or has none to
drop. -/
theorem removePlaylist_handled (handled : widget.receiveAll display before.events = some shown)
    (playlistId : Int) :
    widget.receiveAll display (before.removePlaylist playlistId).events =
      some ⟨shown.playlistViews.erase playlistId⟩ := by
  have events : (before.removePlaylist playlistId).events =
      before.events ++ [.removePlaylistCb playlistId] := rfl
  rw [events, receiveAll_append, handled]
  rfl

/-- Removing a playlist removes its view. -/
theorem removePlaylist_showsWhen (holds : ShowsWhen display widget before True)
    (playlistId : Int) : ShowsWhen display widget (before.removePlaylist playlistId) True := by
  obtain ⟨shown, handled, indexed, shows⟩ := holds
  refine ⟨⟨shown.playlistViews.erase playlistId⟩, removePlaylist_handled handled playlistId,
    indexed.erase playlistId, fun _ => trivial, fun _ other ids found => ?_⟩
  rw [removePlaylist_ids] at found
  split at found
  · cases found
  · rename_i differs
    rw [← (shows.mpr trivial) other ids found]
    exact congrArg (Option.map PlaylistView.itemIds) (AList.lookup_erase_ne differs)

/-! ## Additions -/

/-- Accepted items have displayable tags when the parser reads no others. -/
theorem displayed_of_readFrom {files : FileSystem} {items : List PlaylistItem}
    (displayed : ∀ file metadata, files.readMetadata file = some metadata →
      Displayable display metadata.tags)
    (read : Playlist.ReadFrom files items) : PlaylistView.Displayed display items := by
  intro item member
  obtain ⟨file, metadata, parsed, tags⟩ := read item member
  exact ⟨metadata, tags, displayed file metadata parsed⟩

/-- The condition says that the anchor is not an id of a new item but the last. -/
theorem addAligned_iff (files : FileSystem) (list : Playlist) (fromId : Int)
    (urls : List String) : AddAligned files list fromId urls ↔
      fromId ∉ (idsFrom list.playlistIdCounter
        (Playlist.acceptedCount files list.basePath (localUrls files urls))).dropLast := by
  rw [idsFrom_dropLast, mem_idsFrom, AddAligned]
  omega

/-- The anchor that the callback names. Without one it names the last new id, which
the view does not know either. -/
theorem anchor_row {view : PlaylistView} {list after : Playlist} {files : FileSystem}
    {fromId : Int} {urls : List String} {new : List PlaylistItem} (several : 0 < new.length)
    (same : view.itemIds = list.itemIds)
    (ids : new.map PlaylistItem.playlistItemId =
      idsFrom list.playlistIdCounter (Playlist.acceptedCount files list.basePath urls))
    (order : after.itemIds = KeyedSequence.insertEach fromId list.itemIds
      (new.map PlaylistItem.playlistItemId)) :
    view.itemIds.idxOf (if fromId = invalidPlaylistItemId then after.getLastItemId else fromId) =
      view.itemIds.idxOf fromId := by
  have fresh := list.fresh_ids (Playlist.acceptedCount files list.basePath urls)
  rw [← ids] at fresh
  by_cases invalid : fromId = invalidPlaylistItemId
  · have unknown : fromId ∉ list.itemIds := by
      rw [invalid]
      exact list.invalid_notMem
    have notNew : fromId ∉ new.map PlaylistItem.playlistItemId := by
      rw [ids, mem_idsFrom, invalid, invalidPlaylistItemId]
      have counted := list.counted
      omega
    have atEnd : KeyedSequence.insertEach fromId (list.itemIds ++ [])
        (new.map PlaylistItem.playlistItemId) =
          list.itemIds ++ (new.map PlaylistItem.playlistItemId ++ []) :=
      KeyedSequence.insertEach_parts unknown rfl notNew
    rw [List.append_nil, List.append_nil] at atEnd
    have last : after.getLastItemId ∈ new.map PlaylistItem.playlistItemId :=
      Playlist.getLastItemId_mem several (order.trans atEnd)
    have lastUnknown : after.getLastItemId ∉ list.itemIds := by
      intro there
      exact (List.nodup_append.mp fresh).2.2 _ there _ last rfl
    rw [if_pos invalid, same, List.idxOf_eq_length lastUnknown, List.idxOf_eq_length unknown]
  · rw [if_neg invalid]

/-- Urls are added to a playlist that the view shows in some order: without an accepted url only
the counter may change, and else the callback puts rows for the new items into the view. -/
theorem addPlaylistItems_effect {files : FileSystem}
    (displayed : ∀ file metadata, files.readMetadata file = some metadata →
      Displayable display metadata.tags) (indexed : AllIndexed shown) {playlistId : Int}
    {list : Playlist} {view : PlaylistView}
    (found : before.playlistList.lookup playlistId = some list)
    (viewFound : shown.playlistViews.lookup playlistId = some view)
    (permuted : view.itemIds.Perm list.itemIds) (fromId : Int) (urls : List String) :
    ∃ (new : List PlaylistItem) (after : Playlist),
      new.map PlaylistItem.playlistItemId = idsFrom list.playlistIdCounter
        (Playlist.acceptedCount files list.basePath (localUrls files urls)) ∧
      after.itemIds = KeyedSequence.insertEach fromId list.itemIds
        (new.map PlaylistItem.playlistItemId) ∧
      (new = [] ∧ before.addPlaylistItemsInternal files playlistId fromId (some urls) =
          before.setPlaylist playlistId after ∨
        0 < new.length ∧ ∃ event nextView,
          before.addPlaylistItemsInternal files playlistId fromId (some urls) =
            (before.setPlaylist playlistId after).emit [event] ∧
          shown.receive display event = some (shown.setView playlistId nextView) ∧
          nextView.Indexed ∧ nextView.itemIds = KeyedSequence.insertRows view.itemIds
            (view.itemIds.idxOf
              (if fromId = invalidPlaylistItemId then after.getLastItemId else fromId))
            (new.map PlaylistItem.playlistItemId)) := by
  obtain ⟨new, after, folded, ids, order, read⟩ :=
    Playlist.addUrls_effect files fromId (localUrls files urls) [] list
  rw [List.nil_append] at folded
  refine ⟨new, after, ids, order, ?_⟩
  simp only [addPlaylistItemsInternal, found, folded]
  by_cases several : 0 < new.length
  · have fresh := list.fresh_ids
      (Playlist.acceptedCount files list.basePath (localUrls files urls))
    rw [← ids] at fresh
    obtain ⟨nextView, added, indexedNext, idsNext⟩ := PlaylistView.addItems_rows
      (indexed playlistId view viewFound) (displayed_of_readFrom displayed read)
      (if fromId = invalidPlaylistItemId then after.getLastItemId else fromId)
      (((permuted.append_right _).nodup_iff).mpr fresh)
    refine .inr ⟨several, _, nextView, if_pos several, ?_, indexedNext, idsNext⟩
    simp only [PlaylistTabwidget.receive, viewFound, added]
    rfl
  · exact .inl ⟨List.length_eq_zero_iff.mp (Nat.eq_zero_of_not_pos several), if_neg several⟩

/-- Added items are shown in the places where they were put exactly when the anchor is aligned.
Without accepted urls there is no callback and no change. -/
theorem addPlaylistItems_showsWhen (holds : ShowsWhen display widget before True)
    {files : FileSystem} (displayed : ∀ file metadata, files.readMetadata file = some metadata →
      Displayable display metadata.tags) (playlistId fromId : Int) (urls : List String) :
    ShowsWhen display widget
      (before.addPlaylistItemsInternal files playlistId fromId (some urls))
      (OnPlaylist before playlistId (fun list => AddAligned files list fromId urls)) := by
  cases found : before.playlistList.lookup playlistId with
  | none =>
    have kept : before.addPlaylistItemsInternal files playlistId fromId (some urls) = before := by
      simp only [addPlaylistItemsInternal, found]
    rw [kept]
    refine holds.congr ?_
    simp only [onPlaylist_none found]
  | some list =>
    obtain ⟨shown, handled, indexed, shows⟩ := holds
    have showsBefore := shows.mpr trivial
    obtain ⟨view, viewFound, same⟩ := showsBefore.view found
    obtain ⟨new, after, ids, order, effect⟩ := addPlaylistItems_effect displayed indexed found
      viewFound (List.Perm.of_eq same) fromId urls
    rw [onPlaylist_some found, addAligned_iff, ← ids]
    rcases effect with ⟨none, kept⟩ | ⟨several, event, nextView, changed, received, indexedNext,
      idsNext⟩
    · have sameIds : after.itemIds = list.itemIds := by
        rw [order, none]
        rfl
      rw [kept]
      refine ((setPlaylist_quiet found sameIds).showsWhen ⟨shown, handled, indexed, shows⟩).congr ?_
      rw [none]
      simp only [List.map_nil, List.dropLast_nil, List.not_mem_nil, not_false_iff]
    · have fresh := list.fresh_ids
        (Playlist.acceptedCount files list.basePath (localUrls files urls))
      have anchor := anchor_row several same ids order
      rw [← ids, ← same] at fresh
      rw [← same] at order
      rw [changed]
      refine (setPlaylist_showsWhen handled indexed showsBefore received indexedNext).congr ?_
      rw [idsNext, anchor, order, eq_comm]
      exact KeyedSequence.insertEach_eq_insertRows_iff fresh

/-- The new view of a loaded playlist shows what was loaded. -/
theorem loaded_view {files : FileSystem}
    (displayed : ∀ file metadata, files.readMetadata file = some metadata →
      Displayable display metadata.tags) (playlistId : Int) (filename : String) :
    ∃ view, PlaylistView.new.addPlaylist display playlistId
        (some (Playlist.new.loadPlaylist files filename false).1) = some view ∧ view.Indexed ∧
      view.itemIds = (Playlist.new.loadPlaylist files filename false).2.itemIds := by
  obtain ⟨ids, read⟩ := Playlist.new.loadPlaylist_effect files filename
  have new : Playlist.new.itemIds = [] := rfl
  rw [new, List.nil_append] at ids
  have fresh : ((PlaylistView.itemIds { PlaylistView.new with playlistId := playlistId }) ++
      (Playlist.new.loadPlaylist files filename false).1.map
        PlaylistItem.playlistItemId).Nodup := by
    rw [← ids]
    exact Playlist.itemIds_nodup _
  obtain ⟨view, added, indexedView, shownIds⟩ := PlaylistView.addItems_rows
    (PlaylistView.new_indexed.named playlistId) (displayed_of_readFrom displayed read)
    invalidPlaylistItemId fresh
  refine ⟨view, added, indexedView, ?_⟩
  rw [shownIds, ids]
  have placed := KeyedSequence.insertRows_append [] []
    ((Playlist.new.loadPlaylist files filename false).1.map PlaylistItem.playlistItemId)
  simp only [List.nil_append, List.append_nil, List.length_nil] at placed
  exact placed

/-- A playlist with the next id gets a new view with what was loaded. -/
theorem addPlaylist_effect {files : FileSystem}
    (displayed : ∀ file metadata, files.readMetadata file = some metadata →
      Displayable display metadata.tags) (shown : PlaylistTabwidget)
    (before : PlaylistManagement) (filename : String) (urls : Option (List String)) :
    ∃ (list : Playlist) (items : Option (List PlaylistItem)) (view : PlaylistView),
      view.Indexed ∧ view.itemIds = list.itemIds ∧
      (∀ other, coreIds (before.addPlaylist files filename urls) other =
        if other = before.playlistIdCounter + 1 then some list.itemIds
        else coreIds before other) ∧
      (before.addPlaylist files filename urls).events = before.events ++
        [.addPlaylistCb list.playlistName (before.playlistIdCounter + 1) items,
          .postAddPlaylistItems (before.playlistIdCounter + 1) invalidPlaylistItemId urls] ∧
      shown.receiveAll display
        [.addPlaylistCb list.playlistName (before.playlistIdCounter + 1) items,
          .postAddPlaylistItems (before.playlistIdCounter + 1) invalidPlaylistItemId urls] =
        some (shown.setView (before.playlistIdCounter + 1) view) := by
  have received {playlistName : String} {items : Option (List PlaylistItem)} {view : PlaylistView}
      (added : PlaylistView.new.addPlaylist display (before.playlistIdCounter + 1) items =
        some view) :
      shown.receiveAll display
        [.addPlaylistCb playlistName (before.playlistIdCounter + 1) items,
          .postAddPlaylistItems (before.playlistIdCounter + 1) invalidPlaylistItemId urls] =
        some (shown.setView (before.playlistIdCounter + 1) view) := by
    simp only [PlaylistTabwidget.receiveAll, PlaylistTabwidget.receive, added]
    rfl
  have ids {list : Playlist} {after : PlaylistManagement}
      (lists : after.playlistList =
        before.playlistList.insert (before.playlistIdCounter + 1) list) :
      ∀ other, coreIds after other =
        if other = before.playlistIdCounter + 1 then some list.itemIds
        else coreIds before other := by
    intro other
    rw [← setPlaylist_ids, coreIds, lists]
    rfl
  by_cases named : filename ≠ ""
  · obtain ⟨view, added, indexedView, rows⟩ :=
      loaded_view displayed (before.playlistIdCounter + 1) filename
    refine ⟨_, _, view, indexedView, rows, ids ?_, ?_, received added⟩
    · simp only [addPlaylist, if_pos named]
      rfl
    · simp only [addPlaylist, if_pos named]
      rfl
  · have empty : PlaylistView.new.addPlaylist display (before.playlistIdCounter + 1) none =
        some { PlaylistView.new with playlistId := before.playlistIdCounter + 1 } := rfl
    have rows : PlaylistView.itemIds { PlaylistView.new with
        playlistId := before.playlistIdCounter + 1 } =
          (Playlist.new.setPlaylistName
            ("unnamed_" ++ toString (before.playlistIdCounter + 1))).itemIds := rfl
    refine ⟨_, _, _, PlaylistView.new_indexed.named _, rows, ids ?_, ?_, received empty⟩
    · simp only [addPlaylist, if_neg named]
      rfl
    · simp only [addPlaylist, if_neg named]
      rfl

/-- A new playlist is shown by its view. -/
theorem addPlaylist_showsWhen (holds : ShowsWhen display widget before True)
    {files : FileSystem} (displayed : ∀ file metadata, files.readMetadata file = some metadata →
      Displayable display metadata.tags) (filename : String) (urls : Option (List String)) :
    ShowsWhen display widget (before.addPlaylist files filename urls) True := by
  obtain ⟨shown, handled, indexed, shows⟩ := holds
  obtain ⟨list, items, view, indexedView, rows, ids, events, received⟩ :=
    addPlaylist_effect displayed shown before filename urls
  refine (changed_showsWhen handled indexed (shows.mpr trivial) ids events received
    indexedView).congr ?_
  simp only [rows]

/-! ## Runs -/

/-- The jobs that add, move or remove an item or a playlist. -/
def changesOrder : Job → Bool
  | .addPlaylist _ _ _ | .addPlaylistItems _ _ _ _ | .addPlaylistDirectory _ _ _ _
  | .movePlaylistItem _ _ _ | .removePlaylistItem _ _ | .removePlaylist _ => true
  | _ => false

/-- Calls of other plugins are no callbacks that change rows. -/
theorem changesRows_of_isCall {event : Event} (call : isCall event = true) :
    changesRows event = false := by
  cases event with
  | input | decoders | outputs | addInputUrlJob | addSoundDetails | progressPlaylistItemCb
  | writeFile => rfl
  | _ => cases call

/-- Every other job keeps the orders and changes no rows: by its effect it calls other plugins and
plays, or it renames a playlist. -/
theorem others_quiet {job : Job} (stepped : before.step job = some after)
    (kept : changesOrder job = false) : Quiet before after := by
  cases step_effect stepped with
  | plays _ told calls path =>
    refine (told_quiet told (List.any_eq_false.mpr (fun event member => ?_))).trans
      (playing_quiet path)
    exact Bool.eq_false_iff.mp (changesRows_of_isCall (calls event member))
  | asksSeek | answersSeek => exact emit_quiet _ _ rfl
  | @renames playlistId playlistName list found =>
    have renamed : Quiet before
        (before.setPlaylist playlistId (list.setPlaylistName playlistName)) :=
      setPlaylist_quiet found rfl
    exact renamed.trans (emit_quiet _ _ rfl)
  | addsItems adding _ =>
    cases job with
    | addPlaylistItems | addPlaylistDirectory => cases kept
    | _ => cases adding
  | movesItem | removesItem | missesItem | addsPlaylist | removesPlaylist => cases kept

/-- After one job the widget shows the playlists exactly when the job was aligned. -/
theorem step_showsWhen {job : DisplayedJob display}
    (holds : ShowsWhen display widget before True)
    (stepped : stepDisplayed display before job = some after) :
    ShowsWhen display widget after (Aligned before job.job) := by
  obtain ⟨job, displayed⟩ := job
  rw [stepDisplayed] at stepped
  cases job with
  | addPlaylist files filename urls =>
    obtain rfl := Option.some.inj stepped
    exact addPlaylist_showsWhen holds (displayed files rfl) filename urls
  | addPlaylistItems files playlistId fromId urls =>
    obtain rfl := Option.some.inj stepped
    cases urls with
    | none => exact holds
    | some urls => exact addPlaylistItems_showsWhen holds (displayed files rfl) playlistId fromId urls
  | addPlaylistDirectory files playlistId fromId dirname =>
    obtain rfl := Option.some.inj stepped
    exact addPlaylistItems_showsWhen holds (displayed files rfl) playlistId fromId
      (addPlaylistDirectoryBuilder files dirname)
  | movePlaylistItem playlistId fromId toId =>
    obtain rfl := Option.some.inj stepped
    exact movePlaylistItem_showsWhen holds playlistId fromId toId
  | removePlaylistItem playlistId playlistItemId =>
    obtain rfl := Option.some.inj stepped
    exact removePlaylistItem_showsWhen holds playlistId playlistItemId
  | removePlaylist playlistId =>
    obtain rfl := Option.some.inj stepped
    exact removePlaylist_showsWhen holds playlistId
  | _ => exact (others_quiet stepped rfl).showsWhen holds

/-- From playlists that are shown, in every run of jobs whose urls yield displayable
tags, the views show the playlists in order after each job exactly when each job
is aligned. -/
theorem views_agree {start state : PlaylistManagement} {jobs : List (DisplayedJob display)}
    (quiet : start.events = []) (indexed : AllIndexed widget) (shows : Shows widget start)
    (ran : LabelledRuns.run (stepDisplayed display) start jobs = some state) :
    LabelledRuns.Along (stepDisplayed display) (fun _ _ after => Agrees display widget after)
        start jobs ↔
      LabelledRuns.Meets (stepDisplayed display) (fun before job => Aligned before job.job)
        start jobs := by
  have holds : ShowsWhen display widget start True :=
    ⟨widget, by rw [quiet]; rfl, indexed, iff_of_true shows trivial⟩
  have exact : ∀ before job after, ShowsWhen display widget before True →
      stepDisplayed display before job = some after →
        (Agrees display widget after ↔ Aligned before job.job) := by
    intro before job after showing stepped
    exact (step_showsWhen showing stepped).agrees_iff
  have carried : ∀ before job after, ShowsWhen display widget before True →
      stepDisplayed display before job = some after → Agrees display widget after →
        ShowsWhen display widget after True := by
    intro before job after showing stepped agrees
    have when := step_showsWhen showing stepped
    exact when.congr (iff_true_intro (when.agrees_iff.mp agrees))
  exact LabelledRuns.along_iff_meets exact carried holds ran

/-- Every file has a title. -/
def titledFiles : FileSystem where
  isDirectory := fun _ => false
  canonical := fun name => name
  recursiveDirectory := fun _ => []
  pathExists := fun _ => false
  readFile := fun _ => none
  parentPath := fun _ => ""
  stem := fun name => name
  readMetadata := fun file => some ⟨[("Title", file)], [], by
    intro text found
    cases found⟩

def plainDisplay : Display := ⟨fun name => name, fun _ => none⟩

/-- A job whose urls are titled files. -/
def titled (job : Job) (asked : jobFiles job = some titledFiles ∨ jobFiles job = none) :
    DisplayedJob plainDisplay where
  job := job
  displayed := by
    intro files known file metadata read
    rcases asked with own | none
    · rw [own] at known
      obtain rfl := Option.some.inj known
      obtain rfl := Option.some.inj read
      have named : "Title" ≠ "" ∧ plainDisplay.caption "Title" ≠ "Album Art" := by decide
      exact ⟨("Title", file), List.mem_cons_self, named⟩
    · rw [none] at known
      cases known

/-- An empty playlist is made and gets three items. -/
def threeItems : List (DisplayedJob plainDisplay) :=
  [titled (.addPlaylist titledFiles "" none) (Or.inl rfl),
    titled (.addPlaylistItems titledFiles 0 (-1) (some ["a", "b", "c"])) (Or.inl rfl)]

def newManagement : PlaylistManagement := .new ⟨.stop, -1, -1⟩ 10000

/-- A widget without views shows a plugin without playlists. -/
theorem shows_none (state : PlaylistManagement) (empty : state.playlistList = ∅) :
    Shows ⟨∅⟩ state := by
  intro playlistId ids found
  rw [coreIds, empty, AList.lookup_empty] at found
  cases found

/-- In a widget without views all are in order. -/
theorem none_indexed : AllIndexed ⟨∅⟩ := by
  intro playlistId view found
  rw [AList.lookup_empty] at found
  cases found

/-- The last item moved before the first one is shown before it. -/
theorem views_agree_upwards : ∃ state,
    LabelledRuns.run (stepDisplayed plainDisplay) newManagement
        (threeItems ++ [titled (.movePlaylistItem 0 2 0) (Or.inr rfl)]) = some state ∧
      coreIds state 0 = some [2, 0, 1] ∧
      LabelledRuns.Along (stepDisplayed plainDisplay)
        (fun _ _ after => Agrees plainDisplay ⟨∅⟩ after) newManagement
        (threeItems ++ [titled (.movePlaylistItem 0 2 0) (Or.inr rfl)]) := by
  refine ⟨_, rfl, rfl, ?_⟩
  refine (views_agree rfl none_indexed (shows_none newManagement rfl) rfl).mpr ?_
  decide

/-- The first item moved before the last one is shown after it. -/
theorem downward_move_disagrees : ∃ state shown,
    LabelledRuns.run (stepDisplayed plainDisplay) newManagement
        (threeItems ++ [titled (.movePlaylistItem 0 0 2) (Or.inr rfl)]) = some state ∧
      coreIds state 0 = some [1, 0, 2] ∧
      PlaylistTabwidget.receiveAll plainDisplay ⟨∅⟩ state.events = some shown ∧
      viewIds shown 0 = some [1, 2, 0] ∧ ¬ Agrees plainDisplay ⟨∅⟩ state := by
  have run : ∃ state shown,
      LabelledRuns.run (stepDisplayed plainDisplay) newManagement
          (threeItems ++ [titled (.movePlaylistItem 0 0 2) (Or.inr rfl)]) = some state ∧
        coreIds state 0 = some [1, 0, 2] ∧
        PlaylistTabwidget.receiveAll plainDisplay ⟨∅⟩ state.events = some shown ∧
        viewIds shown 0 = some [1, 2, 0] := ⟨_, _, rfl, rfl, rfl, rfl⟩
  obtain ⟨state, shown, ran, core, handled, rows⟩ := run
  refine ⟨state, shown, ran, core, handled, rows, ?_⟩
  rintro ⟨other, same, shows⟩
  rw [handled] at same
  obtain rfl := Option.some.inj same
  have agree := shows 0 [1, 0, 2] core
  rw [rows] at agree
  exact absurd agree (by decide)

end Mprt.PlaylistAgreement
