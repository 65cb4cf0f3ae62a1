import Mathlib.Data.List.Induction
import Mprt.JobEffects
import Mprt.PlaylistOrder

/-!
# The names of the playlists

A playlist has a name from the time it is added on. Three jobs change what the names are: a
playlist is added, renamed or removed, and each calls back with what it did. The names can be
read off the callbacks therefore, those of any earlier time too.
-/

namespace Mprt

namespace PlaylistManagement

def nameOf (state : PlaylistManagement) (playlistId : Int) : Option String :=
  (state.playlistList.lookup playlistId).map Playlist.playlistName

end PlaylistManagement

namespace PlaylistNames

open PlaylistManagement

/-- What a callback says of the name of a playlist. -/
def renamed (playlistId : Int) (name : Option String) : Event → Option String
  | .addPlaylistCb playlistName added _ => if added = playlistId then some playlistName else name
  | .renamePlaylistItemCb changed playlistName =>
      if changed = playlistId then name.map (fun _ => playlistName) else name
  | .removePlaylistCb removed => if removed = playlistId then none else name
  | _ => name

/-- The name of a playlist after some callbacks. -/
def nameAfter (playlistId : Int) (events : List Event) : Option String :=
  events.foldl (renamed playlistId) none

def concernsNames : Event → Bool
  | .addPlaylistCb _ _ _ | .renamePlaylistItemCb _ _ | .removePlaylistCb _ => true
  | _ => false

def addedPlaylist : Event → Option Int
  | .addPlaylistCb _ playlistId _ => some playlistId
  | _ => none

/-- At most one callback of a job concerns the names, and it comes first. -/
structure NamedBy (change : Option Event) (before after : PlaylistManagement) : Prop where
  names : ∀ playlistId,
    after.nameOf playlistId = change.toList.foldl (renamed playlistId) (before.nameOf playlistId)
  events : ∃ rest, after.events = before.events ++ (change.toList ++ rest) ∧
    ∀ event ∈ rest, concernsNames event = false
  counter : before.playlistIdCounter ≤ after.playlistIdCounter
  added : ∀ playlistId, change.bind addedPlaylist = some playlistId →
    before.playlistIdCounter < playlistId ∧ playlistId ≤ after.playlistIdCounter

section Names

variable {change : Option Event} {before middle after : PlaylistManagement} {playlistId : Int}
  {list changed : Playlist}

/-- A callback that does not concern the names, such as one for an item or for the progress,
leaves the name that was read off so far. -/
theorem renamed_other {event : Event} (other : concernsNames event = false)
    (playlistId : Int) (name : Option String) : renamed playlistId name event = name := by
  cases event with
  | addPlaylistCb | renamePlaylistItemCb | removePlaylistCb => cases other
  | _ => rfl

/-- Such a callback adds no playlist either, so that the ids of the added playlists are those of
the callbacks for new playlists alone. -/
theorem addedPlaylist_other {event : Event} (other : concernsNames event = false) :
    addedPlaylist event = none := by
  cases event with
  | addPlaylistCb => cases other
  | _ => rfl

/-- Callbacks that come behind the one that concerns the names can be skipped: what they leave is
the name that they found. -/
theorem foldl_renamed_others {events : List Event}
    (others : ∀ event ∈ events, concernsNames event = false) (playlistId : Int)
    (name : Option String) : events.foldl (renamed playlistId) name = name := by
  induction events with
  | nil => rfl
  | cons event rest inductionHypothesis =>
    rw [List.foldl_cons, renamed_other (others event List.mem_cons_self)]
    exact inductionHypothesis (fun later member => others later (List.mem_cons_of_mem event member))

/-- The name can be read off in parts: what further callbacks say of it is applied to the name
after the earlier ones. -/
theorem nameAfter_append (playlistId : Int) (first second : List Event) :
    nameAfter playlistId (first ++ second) =
      second.foldl (renamed playlistId) (nameAfter playlistId first) := by
  rw [nameAfter, List.foldl_append, nameAfter]

/-- A playlist that has a name after some callbacks was added by one of them, since a rename gives
no name to a playlist without one. -/
theorem nameAfter_added {events : List Event} {name : String}
    (named : nameAfter playlistId events = some name) :
    playlistId ∈ events.filterMap addedPlaylist := by
  induction events using List.reverseRecOn generalizing name with
  | nil => cases named
  | append_singleton earlier event inductionHypothesis =>
    rw [nameAfter_append, List.foldl_cons, List.foldl_nil] at named
    rw [List.filterMap_append, List.mem_append]
    have before : ∀ other, nameAfter playlistId earlier = some other →
        playlistId ∈ earlier.filterMap addedPlaylist ∨
          playlistId ∈ [event].filterMap addedPlaylist :=
      fun other found => Or.inl (inductionHypothesis found)
    cases event with
    | addPlaylistCb playlistName added items =>
      rw [renamed] at named
      split at named
      · rename_i same
        exact Or.inr (by simp [addedPlaylist, same])
      · exact before _ named
    | renamePlaylistItemCb changed playlistName =>
      rw [renamed] at named
      split at named
      · obtain ⟨other, found, _⟩ := Option.map_eq_some_iff.mp named
        exact before other found
      · exact before _ named
    | removePlaylistCb removed =>
      rw [renamed] at named
      split at named
      · cases named
      · exact before _ named
    | _ => exact before _ named

/-- The playlists stay, and the callbacks do not concern their names: the job changes no name, and
says of none that it does. -/
theorem NamedBy.of_emit {new : List Event} (lists : after.playlistList = before.playlistList)
    (counter : after.playlistIdCounter = before.playlistIdCounter)
    (events : after.events = before.events ++ new) (others : new.any concernsNames = false) :
    NamedBy none before after := by
  have silent : ∀ event ∈ new, concernsNames event = false := fun event member =>
    Bool.eq_false_iff.mpr (List.any_eq_false.mp others event member)
  refine ⟨fun playlistId => ?_, ⟨new, events, silent⟩, Int.le_of_eq counter.symm, nofun⟩
  rw [nameOf, lists]
  rfl

/-- The same of a job that calls nobody back, for which there is nothing to be read off. -/
theorem NamedBy.of_lists (lists : after.playlistList = before.playlistList)
    (counter : after.playlistIdCounter = before.playlistIdCounter)
    (events : after.events = before.events) : NamedBy none before after :=
  .of_emit lists counter (events.trans (List.append_nil _).symm) rfl

/-- What a job does after the callback that concerns the names changes none of them, so the parts
of a job can be put together from the left. -/
theorem NamedBy.trans (first : NamedBy change before middle) (second : NamedBy none middle after) :
    NamedBy change before after := by
  obtain ⟨early, eventsEarly, others⟩ := first.events
  obtain ⟨late, eventsLate, further⟩ := second.events
  refine ⟨fun playlistId => (second.names playlistId).trans (first.names playlistId),
    ⟨early ++ late, ?_, ?_⟩, first.counter.trans second.counter, fun playlistId added => ?_⟩
  · rw [eventsLate, eventsEarly, Option.toList_none, List.nil_append]
    simp only [List.append_assoc]
  · intro event member
    rcases List.mem_append.mp member with inEarly | inLate
    · exact others event inEarly
    · exact further event inLate
  · obtain ⟨above, below⟩ := first.added playlistId added
    exact ⟨above, below.trans second.counter⟩

/-- Further callbacks at the end of a job may follow, as long as they concern the items only. -/
theorem NamedBy.emit (named : NamedBy change before after) {events : List Event}
    (others : events.any concernsNames = false) : NamedBy change before (after.emit events) :=
  named.trans (.of_emit rfl rfl rfl others)

/-- Storing a playlist under its id gives that id the stored name and leaves the names of all
other ids as they were. -/
theorem nameOf_setPlaylist (state : PlaylistManagement) (playlistId : Int) (list : Playlist)
    (other : Int) : (state.setPlaylist playlistId list).nameOf other =
      if other = playlistId then some list.playlistName else state.nameOf other := by
  unfold nameOf setPlaylist
  by_cases same : other = playlistId
  · rw [if_pos same, same, AList.lookup_insert]
    rfl
  · rw [if_neg same, AList.lookup_insert_ne same]

/-- A playlist changes and keeps its name, as it does when items come, go or move: then no name
has changed. -/
theorem setPlaylist_named (found : before.playlistList.lookup playlistId = some list)
    (name : changed.playlistName = list.playlistName) :
    NamedBy none before (before.setPlaylist playlistId changed) := by
  refine ⟨fun other => ?_, ⟨[], (List.append_nil _).symm, nofun⟩, Int.le_refl _, nofun⟩
  rw [nameOf_setPlaylist, name]
  split
  · rename_i same
    rw [same, nameOf, found]
    rfl
  · rfl

/-! ## Jobs that leave the names -/

/-- Inserting an item keeps the name. The insertion may fail, and is then no playlist at all, so
the name is that of the result if there is one. -/
theorem withItem_name {iter : Nat} {item : PlaylistItem}
    {below : 0 ≤ item.playlistItemId ∧ item.playlistItemId < list.playlistIdCounter}
    (inserted : list.withItem iter item below = some changed) :
    changed.playlistName = list.playlistName := by
  rw [Playlist.withItem] at inserted
  split at inserted
  · cases inserted
  · obtain rfl := Option.some.inj inserted
    rfl

/-- Adding one url keeps the name of the playlist, whether the url gives an item or is left out. -/
theorem addItemAt_name (list : Playlist) (files : FileSystem) (iter : Nat) (url : String) :
    (list.addItemAt files iter url).2.playlistName = list.playlistName := by
  have constructed : (list.constructPlaylistItem files url).2.playlistName =
      list.playlistName := by
    rw [Playlist.constructPlaylistItem]
    split <;> rfl
  rw [Playlist.addItemAt]
  split
  · simp only
    split
    · exact constructed
    · rename_i inserted
      exact (withItem_name inserted).trans constructed
  · exact constructed

/-- So does the loop over all urls, by induction on them from any playlist that it has come to. -/
theorem addUrls_name (files : FileSystem) (fromId : Int) (urls : List String)
    (added : List PlaylistItem) (list : Playlist) :
    (urls.foldl (addUrl files fromId) (added, list)).2.playlistName = list.playlistName := by
  induction urls generalizing added list with
  | nil => rfl
  | cons url rest inductionHypothesis =>
    have once : (addUrl files fromId (added, list) url).2.playlistName = list.playlistName := by
      simp only [addUrl, Playlist.addItem, Playlist.addItemBefore]
      split <;> split <;> exact addItemAt_name _ _ _ _
    rw [List.foldl_cons]
    exact (inductionHypothesis _ _).trans once

/-- Playing an item gives the item a new url id in its playlist, and calls back for the item,
which leaves the names. -/
theorem playItem_named
    (found : before.playlistList.lookup before.currentPlayingListId = some list)
    (playlistItemId : Int) (item : PlaylistItem) :
    NamedBy none before (before.playItem list playlistItemId item) := by
  have added : NamedBy none before (before.addInputItem (list.basePath ++ item.url)) :=
    .of_emit rfl rfl rfl rfl
  have foundThen : (before.addInputItem (list.basePath ++ item.url)).playlistList.lookup
      before.currentPlayingListId = some list := found
  have updated : (list.updateUrlId playlistItemId (before.inputUrlId + 1)).playlistName =
      list.playlistName := rfl
  exact (added.trans (setPlaylist_named foundThen updated)).emit rfl

/-- Calls of other plugins are not callbacks to the widget that show a name. -/
theorem concernsNames_of_isCall {event : Event} (call : isCall event = true) :
    concernsNames event = false := by
  cases event <;> first | rfl | cases call

/-- A part of a job that only calls other plugins changes no name, since it changes no playlist. -/
theorem told_named {more : List Event} (told : Told before after more)
    (calls : ∀ event ∈ more, isCall event = true) : NamedBy none before after := by
  refine .of_emit told.lists told.counter told.events (List.any_eq_false.mpr ?_)
  intro event member concerns
  rw [concernsNames_of_isCall (calls event member)] at concerns
  cases concerns

/-- Nor does the part that plays an item, however the calls and the played item follow each other. -/
theorem playing_named (path : Playing before after) : NamedBy none before after := by
  induction path with
  | tells told _ progress =>
    exact told_named told (fun event member => isCall_of_progress (progress event member))
  | plays found _ => exact playItem_named found _ _
  | trans _ _ first second => exact first.trans second

/-- An item is taken out of the rows, or is not found in them: the name stays either way. -/
theorem removeItem_name (list : Playlist) (playlistItemId : Int) :
    (list.removeItem playlistItemId).2.playlistName = list.playlistName := by
  rw [Playlist.removeItem]
  split <;> rfl

/-- Moving an item changes the order of the items and keeps the name, and so does a move that is
refused. -/
theorem moveItem_name (list : Playlist) (fromId toId : Int) :
    (list.moveItem fromId toId).2.playlistName = list.playlistName := by
  rw [Playlist.moveItem]
  split <;> rfl

/-! ## Jobs that change the names -/

/-- A new playlist gets the next id, which no playlist has had, and the callback tells its id
together with its name. -/
theorem addPlaylist_named (state : PlaylistManagement) (files : FileSystem) (filename : String)
    (urls : Option (List String)) :
    ∃ change, NamedBy (some change) state (state.addPlaylist files filename urls) := by
  rw [addPlaylist]
  generalize (if filename ≠ "" then (Playlist.new.loadPlaylist files filename false).2
    else Playlist.new.setPlaylistName ("unnamed_" ++ toString (state.playlistIdCounter + 1))) = list
  generalize (if filename ≠ "" then some (Playlist.new.loadPlaylist files filename false).1
    else none) = items
  refine ⟨.addPlaylistCb list.playlistName (state.playlistIdCounter + 1) items, fun playlistId => ?_,
    ⟨[.postAddPlaylistItems (state.playlistIdCounter + 1) invalidPlaylistItemId urls], rfl, ?_⟩,
    ?_, fun playlistId added => ?_⟩
  · rw [nameOf_setPlaylist, Option.toList_some, List.foldl_cons, List.foldl_nil, renamed]
    simp only [eq_comm (a := playlistId)]
    rfl
  · intro event member
    obtain rfl := List.mem_singleton.mp member
    rfl
  · exact Int.le_of_lt (Int.lt_add_one_of_le (Int.le_refl _))
  · obtain rfl : state.playlistIdCounter + 1 = playlistId := Option.some.inj added
    exact ⟨Int.lt_add_one_of_le (Int.le_refl _), Int.le_refl _⟩

/-- The callback for a rename comes when the playlist has the new name already, and other
playlists keep theirs. -/
theorem renamePlaylist_named (found : before.playlistList.lookup playlistId = some list)
    (playlistName : String) :
    NamedBy (some (.renamePlaylistItemCb playlistId playlistName)) before
      ((before.setPlaylist playlistId (list.setPlaylistName playlistName)).emit
        [.renamePlaylistItemCb playlistId playlistName]) := by
  refine ⟨fun other => ?_, ⟨[], rfl, nofun⟩, Int.le_refl _, nofun⟩
  have names := nameOf_setPlaylist before playlistId (list.setPlaylistName playlistName) other
  refine names.trans ?_
  rw [Option.toList_some, List.foldl_cons, List.foldl_nil, renamed]
  by_cases same : other = playlistId
  · rw [if_pos same, if_pos same.symm, same, nameOf, found]
    rfl
  · rw [if_neg same, if_neg (Ne.symm same)]

/-- A removed playlist has no name from the callback on. The callback comes for an unknown
playlist too, which had none. -/
theorem removePlaylist_named (state : PlaylistManagement) (playlistId : Int) :
    NamedBy (some (.removePlaylistCb playlistId)) state (state.removePlaylist playlistId) := by
  refine ⟨fun other => ?_, ⟨[], rfl, nofun⟩, Int.le_refl _, nofun⟩
  have erased : (state.removePlaylist playlistId).nameOf other =
      ((state.playlistList.erase playlistId).lookup other).map Playlist.playlistName := rfl
  rw [erased, Option.toList_some, List.foldl_cons, List.foldl_nil, renamed]
  by_cases same : other = playlistId
  · rw [if_pos same.symm, same, AList.lookup_erase]
    rfl
  · rw [if_neg (Ne.symm same), AList.lookup_erase_ne same]
    rfl

/-- The callbacks of a job say what it does to the names, by the cases of its effect on the
playlists. -/
theorem step_named {job : Job} (stepped : before.step job = some after) :
    ∃ change, NamedBy change before after := by
  cases step_effect stepped with
  | plays _ told calls path => exact ⟨none, (told_named told calls).trans (playing_named path)⟩
  | asksSeek | answersSeek => exact ⟨none, .of_emit rfl rfl rfl rfl⟩
  | @addsItems _ files playlistId fromId urls list _ found =>
    refine ⟨none, (setPlaylist_named found ?_).emit ?_⟩
    · exact addUrls_name files fromId (localUrls files urls) [] list
    · rw [called]
      split <;> rfl
  | movesItem found => exact ⟨none, (setPlaylist_named found (moveItem_name _ _ _)).emit rfl⟩
  | removesItem found => exact ⟨none, (setPlaylist_named found (removeItem_name _ _)).emit rfl⟩
  | missesItem => exact ⟨none, .of_lists rfl rfl rfl⟩
  | renames found => exact ⟨_, renamePlaylist_named found _⟩
  | @addsPlaylist files filename urls =>
    obtain ⟨change, named⟩ := addPlaylist_named before files filename urls
    exact ⟨some change, named⟩
  | removesPlaylist => exact ⟨_, removePlaylist_named _ _⟩

end Names

end PlaylistNames

end Mprt
