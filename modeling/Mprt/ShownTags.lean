import Mprt.PlaylistDeletion
import Mprt.ViewCells

/-!
# The tags that the views show

The tags of an item are read once, when its file is added. The plugin brings the item to the
views with the callback for it, and what becomes of playlists and rows later changes neither the
tags nor what the columns of a row say. A row shows the tags of the item with its id in the
playlist therefore, at any time, whatever jobs and callbacks are still under way.
-/

namespace Mprt.ShownTags

open PlaylistManagement

/-- What stays with an item. -/
def record (item : PlaylistItem) : Int × Option Metadata := (item.playlistItemId, item.metadata)

/-- Items come with ids from the counter on, and the others are those from before. -/
structure Grown (new : List PlaylistItem) (before after : Playlist) : Prop where
  counter : before.playlistIdCounter ≤ after.playlistIdCounter
  items : ∀ item ∈ after.playlist.items, ∃ old ∈ before.playlist.items ++ new,
    record old = record item
  ids : (new.map PlaylistItem.playlistItemId).Nodup
  fresh : ∀ item ∈ new, before.playlistIdCounter ≤ item.playlistItemId ∧
    item.playlistItemId < after.playlistIdCounter

/-- No items come, and none is announced. -/
structure Still (before after : PlaylistManagement) : Prop where
  counter : after.playlistIdCounter = before.playlistIdCounter
  events : ∃ more, after.events = before.events ++ more ∧
    ∀ playlistId, more.flatMap (announced playlistId) = []
  lists : ∀ playlistId list, after.playlistList.lookup playlistId = some list →
    ∃ earlier, before.playlistList.lookup playlistId = some earlier ∧ Grown [] earlier list

/-- Items come to a playlist, which may be a new one, and they are announced. -/
structure Brings (playlistId : Int) (new : List PlaylistItem) (before after : PlaylistManagement) :
    Prop where
  counter : before.playlistIdCounter ≤ after.playlistIdCounter
  events : ∃ more, after.events = before.events ++ more ∧
    ∀ other, more.flatMap (announced other) = if other = playlistId then new else []
  lists : ∀ other list, after.playlistList.lookup other = some list →
    (∃ earlier, before.playlistList.lookup other = some earlier ∧
      Grown (if other = playlistId then new else []) earlier list) ∨
    (other = playlistId ∧ before.playlistIdCounter < playlistId ∧
      playlistId ≤ after.playlistIdCounter ∧ Grown new Playlist.new list)
  there : new = [] ∨ ∃ list, after.playlistList.lookup playlistId = some list

section Lists

variable {first second new : List PlaylistItem} {before middle after : Playlist}

/-- A playlist to which no items come: every item that it has afterwards has the id and the tags
of one that it had. -/
theorem Grown.of_items (counter : before.playlistIdCounter ≤ after.playlistIdCounter)
    (items : ∀ item ∈ after.playlist.items, ∃ old ∈ before.playlist.items,
      record old = record item) : Grown [] before after := by
  refine ⟨counter, fun item member => ?_, List.nodup_nil, nofun⟩
  rw [List.append_nil]
  exact items item member

/-- A playlist that stays as it is has grown by nothing, the case of every request that is
refused. -/
theorem Grown.refl (list : Playlist) : Grown [] list list :=
  .of_items (Int.le_refl _) (fun item member => ⟨item, member, rfl⟩)

/-- Items that come later are added behind. Their ids are new still, since the counter has only
gone up between. -/
theorem Grown.trans (early : Grown first before middle) (late : Grown second middle after) :
    Grown (first ++ second) before after := by
  refine ⟨early.counter.trans late.counter, fun item member => ?_, ?_, fun item member => ?_⟩
  · obtain ⟨old, there, same⟩ := late.items item member
    rcases List.mem_append.mp there with inMiddle | brought
    · obtain ⟨older, thereFirst, sameFirst⟩ := early.items old inMiddle
      refine ⟨older, ?_, sameFirst.trans same⟩
      rw [← List.append_assoc]
      exact List.mem_append_left _ thereFirst
    · exact ⟨old, List.mem_append_right _ (List.mem_append_right _ brought), same⟩
  · rw [List.map_append]
    refine List.nodup_append.mpr ⟨early.ids, late.ids, ?_⟩
    intro id inFirst other inSecond same
    obtain ⟨item, member, rfl⟩ := List.mem_map.mp inFirst
    obtain ⟨next, nextMember, rfl⟩ := List.mem_map.mp inSecond
    have below := (early.fresh item member).2
    have above := (late.fresh next nextMember).1
    omega
  · rcases List.mem_append.mp member with inFirst | inSecond
    · have bounds := early.fresh item inFirst
      have more := late.counter
      omega
    · have bounds := late.fresh item inSecond
      have more := early.counter
      omega

/-- One url that is added gives one item with the id of the counter, or none when the tags of the
file cannot be read. -/
theorem addItemAt_grown (list : Playlist) (files : FileSystem) (iter : Nat) (url : String) :
    Grown (list.addItemAt files iter url).1.toList list (list.addItemAt files iter url).2 := by
  cases read : files.readMetadata (list.basePath ++ url) with
  | none =>
    rw [Playlist.addItemAt_refused read]
    exact .refl list
  | some metadata =>
    obtain ⟨next, accepted, items, counter, _⟩ := Playlist.addItemAt_accepted read iter
    rw [accepted]
    refine ⟨by simp only [counter]; omega, fun item member => ?_, List.nodup_singleton _,
      fun item member => ?_⟩
    · rw [items] at member
      refine ⟨item, ?_, rfl⟩
      rcases List.eq_or_mem_of_mem_insertIdx member with rfl | earlier
      · exact List.mem_append_right _ (List.mem_singleton_self _)
      · exact List.mem_append_left _ earlier
    · obtain rfl := List.mem_singleton.mp member
      simp only [counter, Playlist.addedItem]
      omega

/-- A loop that collects the items that come, with the playlist that they come to. -/
theorem foldl_grown {α : Type} {body : List PlaylistItem × Playlist → α →
      List PlaylistItem × Playlist}
    (once : ∀ added list line, ∃ new, (body (added, list) line).1 = added ++ new ∧
      Grown new list (body (added, list) line).2)
    (lines : List α) (added : List PlaylistItem) (list : Playlist) :
    ∃ new, (lines.foldl body (added, list)).1 = added ++ new ∧
      Grown new list (lines.foldl body (added, list)).2 := by
  induction lines generalizing added list with
  | nil => exact ⟨[], (List.append_nil _).symm, .refl list⟩
  | cons line rest inductionHypothesis =>
    obtain ⟨first, collected, grown⟩ := once added list line
    obtain ⟨later, collectedLater, grownLater⟩ :=
      inductionHypothesis (body (added, list) line).1 (body (added, list) line).2
    refine ⟨first ++ later, ?_, grown.trans grownLater⟩
    rw [List.foldl_cons, collectedLater, collected, List.append_assoc]

/-- A turn of such a loop: the item that was added, if there is one, is put behind the items
collected so far. -/
theorem collected_grown (added : List PlaylistItem) {list : Playlist}
    {tried : Option PlaylistItem × Playlist} (grown : Grown tried.1.toList list tried.2) :
    ∃ new, (match tried.1 with
        | none => (added, tried.2)
        | some item => (added ++ [item], tried.2)).1 = added ++ new ∧
      Grown new list (match tried.1 with
        | none => (added, tried.2)
        | some item => (added ++ [item], tried.2)).2 := by
  cases accepted : tried.1 with
  | none =>
    rw [accepted] at grown
    exact ⟨[], (List.append_nil _).symm, grown⟩
  | some item =>
    rw [accepted] at grown
    exact ⟨[item], rfl, grown⟩

/-- The loop over the urls to add collects exactly the items that come to the playlist, wherever
in its order they are put. -/
theorem addUrls_grown (files : FileSystem) (fromId : Int) (urls : List String) (list : Playlist) :
    Grown (urls.foldl (addUrl files fromId) ([], list)).1 list
      (urls.foldl (addUrl files fromId) ([], list)).2 := by
  have once (added : List PlaylistItem) (list : Playlist) (url : String) :
      ∃ new, (addUrl files fromId (added, list) url).1 = added ++ new ∧
        Grown new list (addUrl files fromId (added, list) url).2 := by
    simp only [addUrl, Playlist.addItem, Playlist.addItemBefore]
    refine collected_grown added ?_
    split <;> exact addItemAt_grown _ _ _ _
  obtain ⟨new, collected, grown⟩ := foldl_grown once urls [] list
  rw [collected]
  exact grown

/-- So does the loop over the lines of a playlist file. The name, the path and the file of the
playlist are set before, which brings no item. -/
theorem loadPlaylist_grown (files : FileSystem) (filename : String) (list : Playlist) :
    Grown (list.loadPlaylist files filename false).1 list
      (list.loadPlaylist files filename false).2 := by
  have once (added : List PlaylistItem) (list : Playlist) (line : List Char) :
      ∃ new, (Playlist.loadLine files false (added, list) line).1 = added ++ new ∧
        Grown new list (Playlist.loadLine files false (added, list) line).2 := by
    rw [Playlist.loadLine]
    simp only
    split
    · exact ⟨[], (List.append_nil _).symm, .refl list⟩
    · simp only [Bool.false_eq_true, if_false, Playlist.addItem]
      exact collected_grown added (addItemAt_grown _ _ _ _)
  have renamed {changed : Playlist} (items : changed.playlist = list.playlist)
      (counter : changed.playlistIdCounter = list.playlistIdCounter) : Grown [] list changed :=
    .of_items counter.ge (fun item member => ⟨item, items ▸ member, rfl⟩)
  rw [Playlist.loadPlaylist]
  simp only
  split
  · split
    · exact renamed rfl rfl
    · obtain ⟨new, collected, grown⟩ := foldl_grown once _ [] _
      rw [collected]
      refine Grown.trans ?_ grown
      exact renamed rfl rfl
  · exact .refl list

/-- Moving an item brings none, and keeps the tags of all: only their order is another. -/
theorem moveItem_grown (list : Playlist) (fromId toId : Int) :
    Grown [] list (list.moveItem fromId toId).2 := by
  rw [Playlist.moveItem]
  split
  · exact .refl list
  · exact .of_items (Int.le_refl _) (fun item member =>
      ⟨item, KeyedSequence.mem_of_mem_moveRow member, rfl⟩)

/-- Removing an item brings none. What is left was there, and the counter does not go back. -/
theorem removeItem_grown (list : Playlist) (playlistItemId : Int) :
    Grown [] list (list.removeItem playlistItemId).2 := by
  rw [Playlist.removeItem]
  split
  · exact .refl list
  · exact .of_items (Int.le_refl _) (fun item member => ⟨item, List.mem_of_mem_eraseIdx member, rfl⟩)

/-- Another url id is no matter of the record. -/
theorem updateUrlId_grown (list : Playlist) (playlistItemId urlId : Int) :
    Grown [] list (list.updateUrlId playlistItemId urlId) := by
  refine .of_items (Int.le_refl _) (fun item member => ?_)
  obtain ⟨row, there⟩ := List.mem_iff_getElem?.mp member
  have modified : (list.playlist.items.modify (list.playlist.row playlistItemId)
      (fun item => { item with urlId := urlId }))[row]? = some item := there
  rw [List.getElem?_modify] at modified
  obtain ⟨old, found, rfl⟩ := Option.map_eq_some_iff.mp modified
  refine ⟨old, List.mem_of_getElem? found, ?_⟩
  split <;> rfl

end Lists

section Jobs

variable {before middle after : PlaylistManagement} {list changed : Playlist} {playlistId : Int}
  {new : List PlaylistItem}

/-- No playlist has changed, and the callbacks announce no items, whatever else they tell. -/
theorem Still.of_emit {more : List Event} (lists : after.playlistList = before.playlistList)
    (counter : after.playlistIdCounter = before.playlistIdCounter)
    (events : after.events = before.events ++ more)
    (silent : ∀ playlistId, more.flatMap (announced playlistId) = []) : Still before after := by
  refine ⟨counter, ⟨more, events, silent⟩, fun playlistId list found => ?_⟩
  rw [lists] at found
  exact ⟨list, found, .refl list⟩

/-- A job that does nothing brings no items and announces none. -/
theorem Still.refl (before : PlaylistManagement) : Still before before :=
  .of_emit rfl rfl (List.append_nil _).symm (fun _ => rfl)

/-- Two parts of a job that bring no items bring none together. -/
theorem Still.trans (first : Still before middle) (second : Still middle after) :
    Still before after := by
  obtain ⟨early, eventsEarly, silentEarly⟩ := first.events
  obtain ⟨late, eventsLate, silentLate⟩ := second.events
  refine ⟨second.counter.trans first.counter, ⟨early ++ late, ?_, fun playlistId => ?_⟩,
    fun playlistId list found => ?_⟩
  · rw [eventsLate, eventsEarly, List.append_assoc]
  · rw [List.flatMap_append, silentEarly, silentLate]
    rfl
  · obtain ⟨between, foundBetween, grownLate⟩ := second.lists playlistId list found
    obtain ⟨earlier, foundEarlier, grownEarly⟩ := first.lists playlistId between foundBetween
    exact ⟨earlier, foundEarlier, grownEarly.trans grownLate⟩

/-- A playlist that is stored is found under its id, and all other ids find what they found
before. -/
theorem lookup_setPlaylist (state : PlaylistManagement) (playlistId other : Int)
    (list : Playlist) : (state.setPlaylist playlistId list).playlistList.lookup other =
      if other = playlistId then some list else state.playlistList.lookup other := by
  rw [setPlaylist]
  split
  · rename_i same
    rw [same, AList.lookup_insert]
  · rename_i differs
    exact AList.lookup_insert_ne differs

/-- A playlist changes, and items come to it that are announced. -/
theorem setPlaylist_brings {more : List Event}
    (found : before.playlistList.lookup playlistId = some list) (grown : Grown new list changed)
    (events : ∀ other, more.flatMap (announced other) = if other = playlistId then new else []) :
    Brings playlistId new before ((before.setPlaylist playlistId changed).emit more) := by
  refine ⟨Int.le_refl _, ⟨more, rfl, events⟩, fun other after foundAfter => Or.inl ?_,
    Or.inr ⟨changed, AList.lookup_insert _⟩⟩
  have foundAfter : (before.setPlaylist playlistId changed).playlistList.lookup other =
      some after := foundAfter
  rw [lookup_setPlaylist] at foundAfter
  by_cases same : other = playlistId
  · rw [if_pos same] at foundAfter
    obtain rfl := Option.some.inj foundAfter
    rw [if_pos same, same]
    exact ⟨list, found, grown⟩
  · rw [if_neg same] at foundAfter
    rw [if_neg same]
    exact ⟨after, foundAfter, .refl after⟩

/-- A playlist changes, but no items come to it: an item was moved, removed or played, or the
playlist was renamed. -/
theorem setPlaylist_still (found : before.playlistList.lookup playlistId = some list)
    (grown : Grown [] list changed) : Still before (before.setPlaylist playlistId changed) := by
  refine ⟨rfl, ⟨[], (List.append_nil _).symm, fun _ => rfl⟩, fun other after foundAfter => ?_⟩
  rw [lookup_setPlaylist] at foundAfter
  by_cases same : other = playlistId
  · rw [if_pos same] at foundAfter
    obtain rfl := Option.some.inj foundAfter
    exact ⟨list, same ▸ found, grown⟩
  · rw [if_neg same] at foundAfter
    exact ⟨after, foundAfter, .refl after⟩

/-- Further callbacks may follow, as long as they announce no items. -/
theorem Still.emit (still : Still before after) {more : List Event}
    (silent : ∀ playlistId, more.flatMap (announced playlistId) = []) :
    Still before (after.emit more) :=
  still.trans (.of_emit rfl rfl rfl silent)

/-- A job that brings no items brings the empty list, to any playlist, which is how it is counted
among the others. -/
theorem Still.brings (still : Still before after) (playlistId : Int) :
    Brings playlistId [] before after := by
  obtain ⟨more, events, silent⟩ := still.events
  refine ⟨still.counter.ge, ⟨more, events, fun other => ?_⟩, fun other list found => Or.inl ?_,
    Or.inl rfl⟩
  · rw [silent, ite_self]
  · rw [ite_self]
    exact still.lists other list found

/-- Items are announced by callbacks alone, and so not by calls of other plugins. -/
theorem announced_of_isCall {event : Event} (call : isCall event = true) (playlistId : Int) :
    announced playlistId event = [] := by
  cases event <;> first | rfl | cases call

/-- A part of a job that only calls other plugins leaves the playlists and announces no items. -/
theorem told_still {more : List Event} (told : Told before after more)
    (calls : ∀ event ∈ more, isCall event = true) : Still before after :=
  .of_emit told.lists told.counter told.events (fun playlistId =>
    List.flatMap_eq_nil_iff.mpr (fun event member =>
      announced_of_isCall (calls event member) playlistId))

/-- Playing an item gives it a new url id in its playlist, which is no part of what stays with it. -/
theorem playing_still (path : Playing before after) : Still before after := by
  induction path with
  | tells told _ progress =>
    exact told_still told (fun event member => isCall_of_progress (progress event member))
  | @plays state list playlistItemId item found _ =>
    have added : Still state (state.addInputItem (list.basePath ++ item.url)) :=
      .of_emit rfl rfl rfl (fun _ => rfl)
    have foundThen : (state.addInputItem (list.basePath ++ item.url)).playlistList.lookup
        state.currentPlayingListId = some list := found
    exact (added.trans (setPlaylist_still foundThen (updateUrlId_grown list _ _))).emit
      (fun _ => rfl)
  | trans _ _ first second => exact first.trans second

/-- The items that the loop over the urls collects are announced together. -/
theorem collected_brings (files : FileSystem) (fromId : Int) (urls : List String)
    (found : before.playlistList.lookup playlistId = some list) :
    ∃ new, Brings playlistId new before
      ((before.setPlaylist playlistId (collected files fromId urls list).2).emit
        (called playlistId fromId (collected files fromId urls list))) := by
  refine ⟨_, setPlaylist_brings found (addUrls_grown files fromId (localUrls files urls) list)
    (fun other => ?_)⟩
  rw [called]
  split
  · rw [List.flatMap_singleton, announced]
    simp only [eq_comm, collected]
  · rename_i none
    rw [collected] at none
    rw [List.eq_nil_of_length_eq_zero (Nat.eq_zero_of_not_pos none), ite_self]
    rfl

/-- A new playlist is stored under the next id, and called back for with the items that were
loaded into it. -/
theorem newPlaylist_brings (state : PlaylistManagement) {items : Option (List PlaylistItem)}
    (grown : Grown (items.getD []) Playlist.new list) (playlistName : String)
    (urls : Option (List String)) :
    Brings (state.playlistIdCounter + 1) (items.getD []) state
      (({ state with playlistIdCounter := state.playlistIdCounter + 1 }.emit
        [.addPlaylistCb playlistName (state.playlistIdCounter + 1) items,
          .postAddPlaylistItems (state.playlistIdCounter + 1) invalidPlaylistItemId
            urls]).setPlaylist (state.playlistIdCounter + 1) list) := by
  refine ⟨Int.le_of_lt (Int.lt_succ _), ⟨_, rfl, fun other => ?_⟩, fun other after found => ?_,
    Or.inr ⟨list, AList.lookup_insert _⟩⟩
  · rw [List.flatMap_cons, List.flatMap_singleton, announced, announced, List.append_nil]
    · simp only [eq_comm]
    · intro _ _ _ same
      cases same
    · intro _ _ _ same
      cases same
  · rw [lookup_setPlaylist] at found
    by_cases same : other = state.playlistIdCounter + 1
    · rw [if_pos same] at found
      obtain rfl := Option.some.inj found
      exact Or.inr ⟨same, Int.lt_succ _, Int.le_refl _, grown⟩
    · rw [if_neg same] at found
      rw [if_neg same]
      exact Or.inl ⟨after, found, .refl after⟩

/-- A playlist is loaded from its file, or filled from the given urls, or new and empty: the items
that came are announced with it. -/
theorem addPlaylist_brings (state : PlaylistManagement) (files : FileSystem) (filename : String)
    (urls : Option (List String)) :
    ∃ new, Brings (state.playlistIdCounter + 1) new state
      (state.addPlaylist files filename urls) := by
  have grown : Grown
      ((if filename ≠ "" then some (Playlist.new.loadPlaylist files filename false).1
        else none).getD []) Playlist.new
      (if filename ≠ "" then (Playlist.new.loadPlaylist files filename false).2
        else Playlist.new.setPlaylistName
          ("unnamed_" ++ toString (state.playlistIdCounter + 1))) := by
    split
    · exact loadPlaylist_grown files filename Playlist.new
    · exact .of_items (Int.le_refl _) (fun item member => ⟨item, member, rfl⟩)
  rw [addPlaylist]
  exact ⟨_, newPlaylist_brings state grown _ urls⟩

/-- What a removed playlist had is forgotten. No items come, and the other playlists are as
before. -/
theorem removePlaylist_still (state : PlaylistManagement) (playlistId : Int) :
    Still state (state.removePlaylist playlistId) := by
  refine ⟨rfl, ⟨[.removePlaylistCb playlistId], rfl, fun _ => rfl⟩, fun other list found => ?_⟩
  have found : (state.playlistList.erase playlistId).lookup other = some list := found
  by_cases same : other = playlistId
  · rw [same, AList.lookup_erase] at found
    cases found
  · rw [AList.lookup_erase_ne same] at found
    exact ⟨list, found, .refl list⟩

/-- What a job brings to a playlist. -/
theorem step_brings {job : Job} (stepped : before.step job = some after) :
    ∃ playlistId new, Brings playlistId new before after := by
  have nothing {next : PlaylistManagement} (still : Still before next) :
      ∃ playlistId new, Brings playlistId new before next := ⟨0, [], still.brings 0⟩
  cases step_effect stepped with
  | plays _ told calls path => exact nothing ((told_still told calls).trans (playing_still path))
  | asksSeek | answersSeek => exact nothing ((Still.refl before).emit (fun _ => rfl))
  | addsItems _ found => exact ⟨_, collected_brings _ _ _ found⟩
  | movesItem found =>
    exact nothing ((setPlaylist_still found (moveItem_grown _ _ _)).emit (fun _ => rfl))
  | removesItem found =>
    exact nothing ((setPlaylist_still found (removeItem_grown _ _)).emit (fun _ => rfl))
  | missesItem => exact nothing (.refl before)
  | renames found =>
    have renamed (list : Playlist) (playlistName : String) :
        Grown [] list (list.setPlaylistName playlistName) :=
      .of_items (Int.le_refl _) (fun item member => ⟨item, member, rfl⟩)
    exact nothing ((setPlaylist_still found (renamed _ _)).emit (fun _ => rfl))
  | addsPlaylist => exact ⟨_, addPlaylist_brings _ _ _ _⟩
  | removesPlaylist => exact nothing (removePlaylist_still _ _)

end Jobs

/-! ## Runs -/

/-- What holds of the announced items and of the playlists, whatever jobs have run. -/
structure Recorded (state : PlaylistManagement) : Prop where
  named : ∀ playlistId list, state.playlistList.lookup playlistId = some list →
    playlistId ≤ state.playlistIdCounter
  told : ∀ playlistId, ∀ item ∈ state.events.flatMap (announced playlistId),
    playlistId ≤ state.playlistIdCounter
  below : ∀ playlistId list, state.playlistList.lookup playlistId = some list →
    ∀ item ∈ state.events.flatMap (announced playlistId),
      item.playlistItemId < list.playlistIdCounter
  -- ids are given out once
  apart : ∀ playlistId,
    ((state.events.flatMap (announced playlistId)).map PlaylistItem.playlistItemId).Nodup
  listed : ∀ playlistId list, state.playlistList.lookup playlistId = some list →
    ∀ item ∈ list.playlist.items, ∃ old ∈ state.events.flatMap (announced playlistId),
      record old = record item

section Runs

variable {before after : PlaylistManagement} {playlistId : Int} {new : List PlaylistItem}

/-- Nothing is announced by a new plugin, which has no playlists. -/
theorem new_recorded (uninitialised : PlaylistManagement.Uninitialised) (minWaitNextSong : Int) :
    Recorded (PlaylistManagement.new uninitialised minWaitNextSong) := by
  have none (playlistId : Int) (list : Playlist) :
      (PlaylistManagement.new uninitialised minWaitNextSong).playlistList.lookup playlistId ≠
        some list := by
    intro found
    have found : (∅ : AList fun _ : Int => Playlist).lookup playlistId = some list := found
    rw [AList.lookup_empty] at found
    cases found
  exact ⟨fun _ _ found => absurd found (none _ _),
    fun _ _ member => absurd member List.not_mem_nil,
    fun _ _ found => absurd found (none _ _), fun _ => List.nodup_nil,
    fun _ _ found => absurd found (none _ _)⟩

/-- What a job brings to a playlist is added to what was announced for that playlist, and to
nothing else. -/
theorem Brings.announced_eq (brings : Brings playlistId new before after) (other : Int) :
    after.events.flatMap (announced other) =
      before.events.flatMap (announced other) ++ if other = playlistId then new else [] := by
  obtain ⟨more, events, told⟩ := brings.events
  rw [events, List.flatMap_append, told]

/-- No playlist has an id beyond the counter, neither one that was there nor the one that a job
may have added. -/
theorem Recorded.named_after (recorded : Recorded before)
    (brings : Brings playlistId new before after) {other : Int} {list : Playlist}
    (found : after.playlistList.lookup other = some list) : other ≤ after.playlistIdCounter := by
  rcases brings.lists other list found with ⟨earlier, foundEarlier, _⟩ | ⟨rfl, _, named, _⟩
  · exact (recorded.named other earlier foundEarlier).trans brings.counter
  · exact named

/-- What was announced for a playlist is from before what comes to it. -/
theorem Recorded.fresh (recorded : Recorded before)
    (brings : Brings playlistId new before after) {old item : PlaylistItem}
    (told : old ∈ before.events.flatMap (announced playlistId)) (comes : item ∈ new) :
    old.playlistItemId < item.playlistItemId := by
  obtain ⟨list, found⟩ := brings.there.resolve_left (List.ne_nil_of_mem comes)
  rcases brings.lists playlistId list found with ⟨earlier, foundEarlier, grown⟩ | ⟨_, above, _, _⟩
  · rw [if_pos rfl] at grown
    have known := recorded.below playlistId earlier foundEarlier old told
    have given := (grown.fresh item comes).1
    omega
  · have named := recorded.told playlistId old told
    omega

/-- The items that a job brings have different ids, since each takes the next of the counter. -/
theorem Brings.ids (brings : Brings playlistId new before after) :
    (new.map PlaylistItem.playlistItemId).Nodup := by
  rcases brings.there with rfl | ⟨list, found⟩
  · exact List.nodup_nil
  · rcases brings.lists playlistId list found with ⟨earlier, _, grown⟩ | ⟨_, _, _, grown⟩
    · rw [if_pos rfl] at grown
      exact grown.ids
    · exact grown.ids

/-- A job keeps what the callbacks record: the ids that were announced are different, and the
items that are there were announced with the tags that they have. -/
theorem Recorded.brings (recorded : Recorded before)
    (brings : Brings playlistId new before after) : Recorded after where
  named := fun _ _ found => recorded.named_after brings found
  told := by
    intro other item member
    rw [brings.announced_eq, List.mem_append] at member
    rcases member with old | comes
    · exact (recorded.told other item old).trans brings.counter
    · split at comes
      · rename_i same
        obtain ⟨list, found⟩ := brings.there.resolve_left (List.ne_nil_of_mem comes)
        rw [same]
        exact recorded.named_after brings found
      · cases comes
  below := by
    intro other list found item member
    rw [brings.announced_eq, List.mem_append] at member
    rcases brings.lists other list found with
      ⟨earlier, foundEarlier, grown⟩ | ⟨rfl, above, _, grown⟩
    · rcases member with old | comes
      · exact (recorded.below other earlier foundEarlier item old).trans_le grown.counter
      · exact (grown.fresh item comes).2
    · rcases member with old | comes
      · have told := recorded.told other item old
        omega
      · rw [if_pos rfl] at comes
        exact (grown.fresh item comes).2
  apart := by
    intro other
    rw [brings.announced_eq]
    split
    · rename_i same
      rw [List.map_append]
      refine List.nodup_append.mpr ⟨recorded.apart other, brings.ids, ?_⟩
      intro id inOld next inNew same
      obtain ⟨old, told, rfl⟩ := List.mem_map.mp inOld
      obtain ⟨item, comes, rfl⟩ := List.mem_map.mp inNew
      exact absurd same (recorded.fresh brings (‹other = playlistId› ▸ told) comes).ne
    · rw [List.append_nil]
      exact recorded.apart other
  listed := by
    intro other list found item member
    rw [brings.announced_eq]
    rcases brings.lists other list found with
      ⟨earlier, foundEarlier, grown⟩ | ⟨rfl, _, _, grown⟩
    · obtain ⟨old, there, same⟩ := grown.items item member
      rcases List.mem_append.mp there with inEarlier | comes
      · obtain ⟨older, told, sameFirst⟩ := recorded.listed other earlier foundEarlier old inEarlier
        exact ⟨older, List.mem_append_left _ told, sameFirst.trans same⟩
      · exact ⟨old, List.mem_append_right _ comes, same⟩
    · obtain ⟨old, comes, same⟩ := grown.items item member
      rw [if_pos rfl]
      exact ⟨old, List.mem_append_right _ comes, same⟩

variable {display : Display} {window next : PlaylistDeletion.PlaylistWindow display}

/-- Among the steps of the window only the jobs that run change what is recorded. -/
theorem step_recorded {action : PlaylistDeletion.Action display}
    (recorded : Recorded window.core)
    (stepped : PlaylistDeletion.step window action = some next) : Recorded next.core := by
  rcases PlaylistDeletion.step_core stepped with same | ⟨job, ran⟩
  · rw [same]
    exact recorded
  · obtain ⟨playlistId, new, brings⟩ := step_brings ran
    exact recorded.brings brings

/-- Of a widget without views there is nothing to show. -/
theorem start_celled (display : Display) :
    PlaylistTabwidget.AllCelled display ⟨∅⟩ [] := by
  intro playlistId view found
  rw [AList.lookup_empty] at found
  cases found

section Rows

variable {state : PlaylistManagement} {handled : Nat} {view : PlaylistView} {list : Playlist}
  {row : ViewRow} {item : PlaylistItem}

/-- A row shows the item with its id, whatever part of the callbacks has been handled. -/
theorem Recorded.shows (recorded : Recorded state)
    (celled : view.Celled display ((state.events.take handled).flatMap (announced playlistId)))
    (found : state.playlistList.lookup playlistId = some list) (inView : row ∈ view.rows)
    (inList : item ∈ list.playlist.items) (same : row.playlistItemId = item.playlistItemId) :
    PlaylistView.ShowsTags display view.tableHeaders item row := by
  obtain ⟨brought, told, shows⟩ := celled.rows row inView
  obtain ⟨old, toldOld, sameRecord⟩ := recorded.listed playlistId list found item inList
  have toldBrought : brought ∈ state.events.flatMap (announced playlistId) := by
    obtain ⟨event, among, brings⟩ := List.mem_flatMap.mp told
    exact List.mem_flatMap.mpr ⟨event, List.mem_of_mem_take among, brings⟩
  have sameId : brought.playlistItemId = old.playlistItemId := by
    rw [← shows.named, same]
    exact (congrArg Prod.fst sameRecord).symm
  obtain rfl := List.inj_on_of_nodup_map (recorded.apart playlistId) toldBrought toldOld sameId
  have kept : brought.metadata = item.metadata := congrArg Prod.snd sameRecord
  refine ⟨same, shows.inside, ?_⟩
  rw [← kept]
  exact shows.read

end Rows

section Windows

variable {uninitialised : PlaylistManagement.Uninitialised} {minWaitNextSong : Int}
  {actions : List (PlaylistDeletion.Action display)}

/-- The record holds in every state of every run, by induction on its steps. -/
theorem run_recorded (reached : LabelledRuns.run PlaylistDeletion.step
      (PlaylistDeletion.start display uninitialised minWaitNextSong) actions = some window) :
    Recorded window.core := by
  have preserved (window : PlaylistDeletion.PlaylistWindow display) (action) (next)
      (recorded : Recorded window.core)
      (stepped : PlaylistDeletion.step window action = some next) : Recorded next.core :=
    step_recorded recorded stepped
  exact LabelledRuns.run_preserves preserved (new_recorded uninitialised minWaitNextSong) reached

/-- The rows show the tags that were announced in the callbacks handled so far, by the same
induction. -/
theorem run_celled (reached : LabelledRuns.run PlaylistDeletion.step
      (PlaylistDeletion.start display uninitialised minWaitNextSong) actions = some window) :
    window.widget.AllCelled display (window.core.events.take window.handled) := by
  have invariant : PlaylistDeletion.Invariant window :=
    LabelledRuns.run_preserves (fun _ _ _ => PlaylistDeletion.step_invariant)
      (PlaylistDeletion.start_invariant display uninitialised minWaitNextSong) reached
  exact PlaylistTabwidget.receiveAll_celled invariant.widget (start_celled display)

/-- In every run, whatever jobs and callbacks wait: a row shows the tags of the item that its
playlist has with the row's id, each tag in the column of its caption. -/
theorem cells_show_tags (reached : LabelledRuns.run PlaylistDeletion.step
      (PlaylistDeletion.start display uninitialised minWaitNextSong) actions = some window)
    {view : PlaylistView} {list : Playlist} {row : ViewRow} {item : PlaylistItem}
    (shown : window.widget.playlistViews.lookup playlistId = some view)
    (found : window.core.playlistList.lookup playlistId = some list)
    (inView : row ∈ view.rows) (inList : item ∈ list.playlist.items)
    (same : row.playlistItemId = item.playlistItemId) :
    ∃ metadata, item.metadata = some metadata ∧
      ∀ caption, caption ≠ "Album Art" → caption ≠ "playlist_item_id" →
        RowBuild.cellText view.tableHeaders row.texts caption =
          tagText display metadata.tags caption :=
  ((run_recorded reached).shows (run_celled reached playlistId view shown) found inView inList
    same).read

end Windows

end Runs

/-- The plugin has moved the first of three items, and the view has yet to learn of it: the first
row still shows the title of the item that comes second by then. -/
theorem cells_show_tags_moved : ∃ window view list row item,
    LabelledRuns.run PlaylistDeletion.step
        (PlaylistDeletion.start PlaylistAgreement.plainDisplay ⟨.stop, -1, -1⟩ 10000)
        PlaylistDeletion.moved = some window ∧
      window.widget.playlistViews.lookup 0 = some view ∧
      window.core.playlistList.lookup 0 = some list ∧
      view.rows[0]? = some row ∧ list.playlist.items[1]? = some item ∧ item.url = "a" ∧
      ∃ metadata, item.metadata = some metadata ∧
        RowBuild.cellText view.tableHeaders row.texts "Title" =
          tagText PlaylistAgreement.plainDisplay metadata.tags "Title" := by
  have run : ∃ window view list row item,
      LabelledRuns.run PlaylistDeletion.step
          (PlaylistDeletion.start PlaylistAgreement.plainDisplay ⟨.stop, -1, -1⟩ 10000)
          PlaylistDeletion.moved = some window ∧
        window.widget.playlistViews.lookup 0 = some view ∧
        window.core.playlistList.lookup 0 = some list ∧
        view.rows[0]? = some row ∧ list.playlist.items[1]? = some item ∧ item.url = "a" ∧
        row.playlistItemId = item.playlistItemId :=
    ⟨_, _, _, _, _, rfl, rfl, rfl, rfl, rfl, rfl, rfl⟩
  obtain ⟨window, view, list, row, item, reached, shown, found, first, second, url, same⟩ := run
  obtain ⟨metadata, read, cells⟩ := cells_show_tags reached shown found
    (List.mem_of_getElem? first) (List.mem_of_getElem? second) same
  exact ⟨window, view, list, row, item, reached, shown, found, first, second, url, metadata, read,
    cells "Title" (by decide) (by decide)⟩

end Mprt.ShownTags
