import Mprt.KeyedMoves
import Mprt.Playlist

/-!
# Moving several items of a playlist

`move_items` has overloads for a list of ids, for a list of iterators and for a range. The
first two go through their list from its end and splice each item right before the target.
An item that was moved earlier is farther from the target then, so the items end in the
reverse of their order. The overloads for a range make one splice.

An iterator stays at its item when others are moved, and is given by the id of that item.
The iterators of a range are rows, since they are used once.
-/

namespace Mprt

namespace Playlist

/-- `move_items` on ids. -/
def moveItemIds (list : Playlist) (itemIds : List Int) (toId : Int) : Playlist :=
  itemIds.reverse.foldl (fun reached id => (reached.moveItem id toId).2) list

/-- `move_items` on iterators. -/
def moveItemIters (list : Playlist) (items : List Int) (toIter : Int) : Playlist :=
  items.reverse.foldl (fun reached iter =>
    reached.moveItemAt (reached.playlist.row iter) (reached.playlist.row toIter)) list

/-- `move_items` on the range between two iterators. -/
def moveItemsRange (list : Playlist) (fromIter stopIter toIter : Nat) : Playlist :=
  { list with
    playlist := list.playlist.spliceRange fromIter (stopIter - fromIter) toIter
    issued := by
      intro id member
      have permuted := (KeyedSequence.moveRows_perm list.playlist.items fromIter
        (stopIter - fromIter) toIter).map PlaylistItem.playlistItemId
      exact list.issued id (permuted.mem_iff.mp member) }

/-- `move_items` on a number of items from an iterator on. -/
def moveItemsCount (list : Playlist) (fromIter toIter countItems : Nat) : Playlist :=
  list.moveItemsRange fromIter (fromIter + countItems) toIter

end Playlist

namespace PlaylistMoves

/-- The two overloads of `move_items` for several items. -/
inductive Overload where
  | ids
  | iterators
deriving DecidableEq

def moveItems (list : Playlist) (items : List Int) (toItem : Int) : Overload → Playlist
  | .ids => list.moveItemIds items toItem
  | .iterators => list.moveItemIters items toItem

/-- The items stand right before the target in their order, as all others do in theirs, and
that is what the overloads for a range do when the items are consecutive. -/
structure Moved (list : Playlist) (items : List Int) (toItem : Int) (after : Playlist) : Prop where
  placed : after.playlist.items =
    KeyedSequence.bringBefore PlaylistItem.playlistItemId toItem items list.playlist.items
  range : ∀ fromIter, fromIter + items.length ≤ list.itemIds.length →
    items = (list.itemIds.drop fromIter).take items.length →
    after.playlist.items = (list.moveItemsRange fromIter (fromIter + items.length)
      (list.playlist.row toItem)).playlist.items
  count : ∀ fromIter, fromIter + items.length ≤ list.itemIds.length →
    items = (list.itemIds.drop fromIter).take items.length →
    after.playlist.items = (list.moveItemsCount fromIter (list.playlist.row toItem)
      items.length).playlist.items

/-- The calls of `move_playlist_item` that `dropEvent` of the view makes for the selected
items, the ids of its rows being those of the playlist. -/
def dropEvent (selected : List Int) (toId : Int) : List (Int × Int) :=
  (selected.reverse.map (fun fromId => (fromId, toId))).filter (fun call =>
    invalidPlaylistItemId ≠ call.1 ∧ invalidPlaylistItemId ≠ call.2)

variable {list : Playlist} {items : List Int} {toItem : Int}

/-- Splices by iterators bring each item before the target. -/
theorem moveItemIters_playlist (list : Playlist) (items : List Int) (toItem : Int) :
    (list.moveItemIters items toItem).playlist =
      list.playlist.bringEach toItem items.reverse := by
  rw [Playlist.moveItemIters, KeyedSequence.bringEach]
  induction items.reverse generalizing list with
  | nil => rfl
  | cons item rest inductionHypothesis => exact inductionHypothesis _

/-- A moved item is still in the playlist, and so are the others. -/
theorem mem_moveItemAt {item other : Int} (there : item ∈ list.itemIds)
    (member : other ∈ list.itemIds) :
    other ∈ (list.moveItemAt (list.playlist.row item) (list.playlist.row toItem)).itemIds := by
  have source : list.playlist.row item < list.itemIds.length := List.idxOf_lt_length_of_mem there
  have target : list.playlist.row toItem ≤ list.itemIds.length := List.idxOf_le_length
  have inside : KeyedSequence.landing (list.playlist.row item) (list.playlist.row toItem) <
      list.itemIds.length := by
    rw [KeyedSequence.landing]
    split <;> omega
  rw [Playlist.itemIds, Playlist.moveItemAt, KeyedSequence.keys_splice]
  exact KeyedSequence.mem_moveRow member inside

/-- Items that are in the playlist are moved alike by their ids. -/
theorem foldl_moveItem_eq (members : ∀ item ∈ items, item ∈ list.itemIds) :
    items.foldl (fun reached id => (reached.moveItem id toItem).2) list =
      items.foldl (fun reached iter =>
        reached.moveItemAt (reached.playlist.row iter) (reached.playlist.row toItem)) list := by
  induction items generalizing list with
  | nil => rfl
  | cons item rest inductionHypothesis =>
    have there : item ∈ list.itemIds := members item List.mem_cons_self
    have found : list.playlist.row item ≠ list.playlist.endRow := fun missing =>
      KeyedSequence.row_eq_endRow_iff.mp missing there
    have moved : (list.moveItem item toItem).2 =
        list.moveItemAt (list.playlist.row item) (list.playlist.row toItem) := by
      rw [Playlist.moveItem, if_neg found]
    rw [List.foldl_cons, List.foldl_cons, moved]
    exact inductionHypothesis fun other member =>
      mem_moveItemAt there (members other (List.mem_cons_of_mem item member))

theorem moveItemIds_eq (members : ∀ item ∈ items, item ∈ list.itemIds) :
    list.moveItemIds items toItem = list.moveItemIters items toItem :=
  foldl_moveItem_eq fun item member => members item (List.mem_reverse.mp member)

/-- A range brings its items before the target. -/
theorem moveItemsRange_items (list : Playlist) {fromIter : Nat} (target : toItem ∈ list.itemIds)
    (other : toItem ∉ items) (inside : fromIter + items.length ≤ list.itemIds.length)
    (range : items = (list.itemIds.drop fromIter).take items.length) :
    (list.moveItemsRange fromIter (fromIter + items.length)
      (list.playlist.row toItem)).playlist.items =
      KeyedSequence.bringBefore PlaylistItem.playlistItemId toItem items list.playlist.items := by
  obtain ⟨item, there, rfl⟩ := List.mem_map.mp target
  have ids : list.itemIds.length = list.playlist.items.length := List.length_map _
  have counted : fromIter + items.length - fromIter = items.length := Nat.add_sub_cancel_left ..
  have moved := KeyedSequence.moveRows_eq_bringBefore list.playlist.distinct there
    (ids ▸ inside) (range ▸ other)
  have named : ((list.playlist.items.map PlaylistItem.playlistItemId).drop fromIter).take
      items.length = items := range.symm
  simp only [named] at moved
  simp only [Playlist.moveItemsRange, KeyedSequence.spliceRange, counted]
  exact moved

/-- Several items end before the target in their order exactly when there is at most one of
them, with either overload. -/
theorem moveItems_iff (list : Playlist) (items : List Int) (toItem : Int) (overload : Overload)
    (order : items.Sublist list.itemIds) (target : toItem ∈ list.itemIds)
    (other : toItem ∉ items) :
    Moved list items toItem (moveItems list items toItem overload) ↔ items.length ≤ 1 := by
  have each : (moveItems list items toItem overload).playlist =
      list.playlist.bringEach toItem items.reverse := by
    rw [← moveItemIters_playlist]
    cases overload with
    | ids => rw [moveItems, moveItemIds_eq fun item member => order.subset member]
    | iterators => rfl
  rw [← KeyedSequence.bringEach_reverse_iff list.playlist order target other, ← each]
  constructor
  · exact Moved.placed
  · intro placed
    refine ⟨placed, fun fromIter inside range => ?_, fun fromIter inside range => ?_⟩
    · rw [placed, moveItemsRange_items list target other inside range]
    · rw [placed, Playlist.moveItemsCount, moveItemsRange_items list target other inside range]

/-- The calls of a drop move the items as `move_items` does. -/
theorem dropEvent_eq (list : Playlist) (items : List Int) (toId : Int)
    (members : ∀ item ∈ items, item ∈ list.itemIds) (target : toId ∈ list.itemIds) :
    (dropEvent items toId).foldl (fun reached call => (reached.moveItem call.1 call.2).2) list =
      list.moveItemIds items toId := by
  have valid : ∀ id ∈ list.itemIds, invalidPlaylistItemId ≠ id := by
    rintro id member rfl
    exact absurd (list.issued _ member).1 (by decide)
  have all : dropEvent items toId = items.reverse.map (fun fromId => (fromId, toId)) := by
    refine List.filter_eq_self.mpr fun call member => decide_eq_true ?_
    obtain ⟨fromId, there, rfl⟩ := List.mem_map.mp member
    exact ⟨valid fromId (members fromId (List.mem_reverse.mp there)), valid toId target⟩
  rw [all, List.foldl_map, Playlist.moveItemIds]

/-- A playlist of four items. -/
def fourItems : Playlist where
  playlistName := ""
  playlist := ⟨[0, 1, 2, 3].map (fun id => ⟨id, -1, "", 0, none⟩), by decide⟩
  playlistIdCounter := 4
  basePath := ""
  counted := by decide
  issued := by decide

/-- One item is moved in front of another. -/
theorem one_item_moved :
    Moved fourItems [3] 1 (moveItems fourItems [3] 1 .ids) :=
  (moveItems_iff fourItems [3] 1 .ids (by decide) (by decide) (by decide)).mpr (by decide)

/-- Two items moved to the end stand in the reverse of their order. -/
theorem two_items_reversed :
    (moveItems fourItems [0, 1] 3 .ids).itemIds = [2, 1, 0, 3] ∧
      ¬ Moved fourItems [0, 1] 3 (moveItems fourItems [0, 1] 3 .ids) ∧
      ¬ Moved fourItems [0, 1] 3 (moveItems fourItems [0, 1] 3 .iterators) :=
  ⟨by decide, fun moved => absurd moved.placed (by decide),
    fun moved => absurd moved.placed (by decide)⟩

end PlaylistMoves

end Mprt
