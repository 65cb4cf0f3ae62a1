import Mprt.PlaylistManagement
import Mprt.PlaylistOrder

/-!
# What is handed to the input plugin

Playing an item hands its file to the input plugin and calls back with its id.
These two events are recorded for exactly one item of the current playlist, and
for none when the playlist or the item is missing. The next item of an item is
the one that follows it in the order of the ids.
-/

namespace Mprt

/-- The id after an id in a list. -/
def following (ids : List Int) (id : Int) : Option Int := ids[ids.idxOf id + 1]?

/-- What follows an id in a list is in the list itself, whether or not the id is. -/
theorem following_mem {ids : List Int} {id next : Int} (follows : following ids id = some next) :
    next ∈ ids :=
  List.mem_of_getElem? follows

/-- Among different ids none follows itself, so an item is never handed over as its own successor. -/
theorem following_ne {ids : List Int} (distinct : ids.Nodup) {id next : Int} (there : id ∈ ids)
    (follows : following ids id = some next) : next ≠ id := by
  obtain ⟨inside, found⟩ := List.getElem?_eq_some_iff.mp follows
  intro same
  have own := List.getElem_idxOf (List.idxOf_lt_length_of_mem there)
  have equal := (distinct.getElem_inj_iff).mp ((found.trans same).trans own.symm)
  omega

namespace Playlist

/-- The loop that looks for the next id finds what follows in the order of the playlist, and the
invalid id after the last item. -/
theorem getNextItemId_eq (list : Playlist) (playlistItemId : Int) :
    list.getNextItemId playlistItemId =
      (following list.itemIds playlistItemId).getD invalidPlaylistItemId := by
  have item : following list.itemIds playlistItemId =
      (list.playlist.items[list.playlist.row playlistItemId + 1]?).map
        PlaylistItem.playlistItemId := List.getElem?_map
  rw [getNextItemId, item]
  by_cases there : list.playlist.row playlistItemId ≠ list.playlist.endRow
  · rw [if_pos there]
    cases list.playlist.items[list.playlist.row playlistItemId + 1]? with
    | none => rfl
    | some next => rfl
  · have atEnd : list.playlist.row playlistItemId = list.playlist.items.length :=
      Classical.not_not.mp there
    have outside : list.playlist.items[list.playlist.row playlistItemId + 1]? = none :=
      List.getElem?_eq_none (by omega)
    rw [if_neg there, outside]
    rfl

/-- An id of the list has an item. It is the item with this id, since the lookup goes by the id. -/
theorem item_of_mem {list : Playlist} {id : Int} (there : id ∈ list.itemIds) :
    ∃ item, list.getPlaylistItemWithItemId id = some item ∧ item.playlistItemId = id := by
  have present := KeyedSequence.find_isSome_iff.mpr there
  obtain ⟨item, found⟩ := Option.isSome_iff_exists.mp present
  exact ⟨item, found, KeyedSequence.find_key found⟩

/-- The invalid id is the id of no item: ids are not negative. -/
theorem item_invalid (list : Playlist) :
    list.getPlaylistItemWithItemId invalidPlaylistItemId = none := by
  cases found : list.getPlaylistItemWithItemId invalidPlaylistItemId with
  | none => rfl
  | some item =>
    have present : (list.playlist.find invalidPlaylistItemId).isSome = true := by
      rw [getPlaylistItemWithItemId] at found
      rw [found]
      rfl
    exact absurd (KeyedSequence.find_isSome_iff.mp present) list.invalid_notMem

/-- The item after an item. -/
def successor (list : Playlist) (id : Int) : Option PlaylistItem :=
  (following list.itemIds id).bind list.getPlaylistItemWithItemId

/-- An item has no successor exactly when nothing follows its id, that is, when it is the last one
or is not in the list. -/
theorem successor_none_iff {list : Playlist} {id : Int} :
    list.successor id = none ↔ following list.itemIds id = none := by
  rw [successor]
  cases follows : following list.itemIds id with
  | none => simp only [Option.bind_none]
  | some next =>
    obtain ⟨item, found, _⟩ := item_of_mem (following_mem follows)
    simp only [Option.bind_some, found, reduceCtorEq]

/-- Looking for the next id finds the successor, and nothing after the last item, whose next id is
the invalid one. -/
theorem find_next (list : Playlist) (id : Int) :
    list.getPlaylistItemWithItemId (list.getNextItemId id) = list.successor id := by
  rw [getNextItemId_eq, successor]
  cases following list.itemIds id with
  | none => exact list.item_invalid
  | some next => rfl

end Playlist

namespace PlaylistManagement

/-- The events of playing an item of the current playlist. -/
def handOver (state : PlaylistManagement) (list : Playlist) (item : PlaylistItem) : List Event :=
  [.addInputItem (list.basePath ++ item.url) (state.inputUrlId + 1),
    .startPlaylistItemCb state.currentPlayingListId item.playlistItemId
      ((item.metadata.map Metadata.durationMs).getD 0)]

def isHandOver : Event → Bool
  | .addInputItem _ _ | .startPlaylistItemCb _ _ _ => true
  | _ => false

/-- The hand-overs among events. -/
def handOvers (events : List Event) : List Event := events.filter isHandOver

/-- The tracks that are handed over can be counted part by part along the events. -/
theorem handOvers_append (first second : List Event) :
    handOvers (first ++ second) = handOvers first ++ handOvers second :=
  List.filter_append _ _

/-- Everything that handing over one item does is a hand-over itself. -/
theorem handOvers_handOver (state : PlaylistManagement) (list : Playlist) (item : PlaylistItem) :
    handOvers (state.handOver list item) = state.handOver list item := rfl

/-- The events of playing the item that an option gives. -/
def handOverOf (state : PlaylistManagement) (list : Playlist) :
    Option PlaylistItem → List Event
  | none => []
  | some item => state.handOver list item

/-- And so it is for an item that may be missing, where nothing is done. -/
theorem handOvers_handOverOf (state : PlaylistManagement) (list : Playlist)
    (item : Option PlaylistItem) :
    handOvers (state.handOverOf list item) = state.handOverOf list item := by
  cases item with
  | none => rfl
  | some item => exact handOvers_handOver state list item

/-- What playing does to the fields that decide what is played: the item is handed over if it is
there, and the current playlist stays. -/
theorem contPlayInternal_effect {state : PlaylistManagement} {list : Playlist}
    (found : state.playlistList.lookup state.currentPlayingListId = some list) (id : Int) :
    (state.contPlayInternal id).events =
        state.events ++ state.handOverOf list (list.getPlaylistItemWithItemId id) ∧
      (state.contPlayInternal id).currentPlayingListId = state.currentPlayingListId ∧
      (state.contPlayInternal id).currentPlayingItemId = state.currentPlayingItemId ∧
      (state.contPlayInternal id).addedNextSong = state.addedNextSong := by
  cases present : list.getPlaylistItemWithItemId id with
  | none =>
    have kept : state.contPlayInternal id = state := by
      simp only [contPlayInternal, found, present]
    rw [kept]
    exact ⟨(List.append_nil _).symm, rfl, rfl, rfl⟩
  | some item =>
    have key : item.playlistItemId = id := KeyedSequence.find_key present
    have played : state.contPlayInternal id = state.playItem list id item := by
      simp only [contPlayInternal, found, present]
    rw [played]
    refine ⟨?_, rfl, rfl, rfl⟩
    simp only [playItem, addInputItem, emit, setPlaylist, handOverOf, handOver, key,
      List.append_assoc, List.singleton_append]

end PlaylistManagement

end Mprt
