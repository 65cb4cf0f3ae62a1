import Mprt.PlaylistManagement

/-!
# The Qt views of the playlists

A `playlist_view` shows the items of a playlist in the rows of a standard item
model, and finds the row of an item through an index of standard items. It adds,
moves and removes rows when the tab widget gets the callbacks of the playlist
management plugin, which are queued and handled in their order.

The columns are named by the tags. A row is built from its tags first, and the
item of the id is put into its column then. Writing names in camel case and
scaling pictures are left to Qt.
-/

namespace Mprt

def albumArtItemCol : Nat := 0

def playlistItemIdCol : Nat := 1

/-- What Qt makes of a tag name in lower and camel case, and of an album art. -/
structure Display where
  caption : String → String
  albumArtUrl : List (String × List UInt8) → Option String

/-- A row of the item model, with the standard item in its id column. -/
structure ViewRow where
  standardItem : Nat
  playlistItemId : Int
  texts : List (Option String)
deriving DecidableEq

/-- The columns in use and the row that is built from the tags of an item. -/
structure RowBuild where
  tableHeaders : AList (fun _ : String => Nat)
  lastUsedCol : Nat
  rowItems : List (Option String)

namespace RowBuild

def enlargeItemList (rowItems : List (Option String)) (colSize : Nat) : List (Option String) :=
  rowItems ++ List.replicate (colSize - rowItems.length) none

def setItemList (rowItems : List (Option String)) (colToUse : Nat) (tagVal : String) :
    List (Option String) :=
  (enlargeItemList rowItems (colToUse + 1)).set colToUse (some tagVal)

/-- One tag of an item. A tag without a name is passed over. -/
def addTag (display : Display) (build : RowBuild) (tag : String × String) : RowBuild :=
  if tag.1 = "" then build
  else
    let tagName := display.caption tag.1
    match build.tableHeaders.lookup tagName with
    | none =>
        ⟨build.tableHeaders.insert tagName build.lastUsedCol, build.lastUsedCol + 1,
          setItemList build.rowItems build.lastUsedCol tag.2⟩
    | some colToUse => { build with rowItems := setItemList build.rowItems colToUse tag.2 }

end RowBuild

/-- `playlist_view`, with the number of standard items made so far. -/
structure PlaylistView where
  playlistId : Int
  rows : List ViewRow
  tableHeaders : AList (fun _ : String => Nat)
  playlistItemIndex : AList (fun _ : Int => Nat)
  standardItems : Nat

namespace PlaylistView

/-- The constructor. -/
def new : PlaylistView where
  playlistId := invalidPlaylistId
  rows := []
  tableHeaders := ((∅ : AList (fun _ : String => Nat)).insert "playlist_item_id"
    playlistItemIdCol).insert "Album Art" albumArtItemCol
  playlistItemIndex := ∅
  standardItems := 0

def itemIds (view : PlaylistView) : List Int := view.rows.map ViewRow.playlistItemId

/-- `get_item_row`, with no row for `_INVALID_ROW_`. -/
def getItemRow (view : PlaylistView) (playlistItemId : Int) : Option Nat :=
  match view.playlistItemIndex.lookup playlistItemId with
  | none => none
  | some standardItem => (view.rows.map ViewRow.standardItem).idxOf? standardItem

/-- The row items of an item, with its id and its album art put in. There is no
result when the tags leave the row without an id column. -/
def rowItems (display : Display) (item : PlaylistItem) (metadata : Metadata)
    (built : List (Option String)) : Option (List (Option String)) :=
  if playlistItemIdCol < built.length then
    let numbered := built.set playlistItemIdCol (some (toString item.playlistItemId))
    match display.albumArtUrl metadata.albumart with
    | none => some numbered
    | some url => some (numbered.set albumArtItemCol (some url))
  else none

/-- The model with a row inserted for an item, and the item in the index. -/
def insertRow (view : PlaylistView) (row : Nat) (playlistItemId : Int)
    (texts : List (Option String)) : PlaylistView :=
  { view with
    rows := view.rows.insertIdx row ⟨view.standardItems, playlistItemId, texts⟩
    playlistItemIndex := view.playlistItemIndex.insert playlistItemId view.standardItems
    standardItems := view.standardItems + 1 }

/-- The loop of `add_items`. An item without tags is passed over. -/
def addLoop (display : Display) :
    PlaylistView → Nat → Nat → List PlaylistItem → Option PlaylistView
  | view, _, _, [] => some view
  | view, row, lastUsedCol, item :: rest =>
      match item.metadata with
      | none => addLoop display view row lastUsedCol rest
      | some metadata =>
          if metadata.tags = [] then addLoop display view row lastUsedCol rest
          else
            let built := metadata.tags.foldl (RowBuild.addTag display)
              ⟨view.tableHeaders, lastUsedCol, []⟩
            match rowItems display item metadata built.rowItems with
            | none => none
            | some texts =>
                let headed := { view with tableHeaders := built.tableHeaders }
                addLoop display (headed.insertRow row item.playlistItemId texts) (row + 1)
                  built.lastUsedCol rest

def addItems (display : Display) (view : PlaylistView) (fromPlaylistItem : Int)
    (items : Option (List PlaylistItem)) : Option PlaylistView :=
  match items with
  | none => some view
  | some items =>
      if items = [] then some view
      else
        let fromRow := (view.getItemRow fromPlaylistItem).getD view.rows.length
        addLoop display view fromRow view.tableHeaders.entries.length items

def addPlaylist (display : Display) (view : PlaylistView) (playlistId : Int)
    (items : Option (List PlaylistItem)) : Option PlaylistView :=
  addItems display { view with playlistId := playlistId } invalidPlaylistItemId items

/-- `move_playlist_item`: both rows are asked for before the row is taken. -/
def movePlaylistItem (view : PlaylistView) (fromId toId : Int) : PlaylistView :=
  match view.getItemRow fromId, view.getItemRow toId with
  | some takeRow, some toRow =>
      { view with rows := KeyedSequence.moveRow view.rows takeRow toRow }
  | _, _ => view

def removePlaylistItem (view : PlaylistView) (playlistItemId : Int) : PlaylistView :=
  let removed := match view.getItemRow playlistItemId with
    | none => view.rows
    | some row => view.rows.eraseIdx row
  { view with
    rows := removed
    playlistItemIndex := view.playlistItemIndex.erase playlistItemId }

end PlaylistView

/-- The views of a `playlist_tabwidget`, one for each playlist. -/
structure PlaylistTabwidget where
  playlistViews : AList (fun _ : Int => PlaylistView)

namespace PlaylistTabwidget

def setView (widget : PlaylistTabwidget) (playlistId : Int) (view : PlaylistView) :
    PlaylistTabwidget :=
  ⟨widget.playlistViews.insert playlistId view⟩

/-- What the queued part of a callback does. Calls of other plugins do not reach
the widget, and the remaining callbacks do not concern the rows. -/
def receive (display : Display) (widget : PlaylistTabwidget) : Event → Option PlaylistTabwidget
  | .addPlaylistCb _ playlistId items =>
      (PlaylistView.new.addPlaylist display playlistId items).map (widget.setView playlistId)
  | .addPlaylistItemCb playlistId fromId items =>
      match widget.playlistViews.lookup playlistId with
      | none => some widget
      | some view => (view.addItems display fromId (some items)).map (widget.setView playlistId)
  | .movePlaylistItemCb playlistId fromId toId =>
      match widget.playlistViews.lookup playlistId with
      | none => some widget
      | some view => some (widget.setView playlistId (view.movePlaylistItem fromId toId))
  | .removePlaylistItemCb playlistId playlistItemId =>
      match widget.playlistViews.lookup playlistId with
      | none => some widget
      | some view => some (widget.setView playlistId (view.removePlaylistItem playlistItemId))
  | .removePlaylistCb playlistId => some ⟨widget.playlistViews.erase playlistId⟩
  | _ => some widget

/-- The widget after it has handled events in their order. -/
def receiveAll (display : Display) (widget : PlaylistTabwidget) :
    List Event → Option PlaylistTabwidget
  | [] => some widget
  | event :: rest => (widget.receive display event).bind (fun next => next.receiveAll display rest)

section Views

variable {display : Display} {widget next : PlaylistTabwidget} {event : Event}
variable {playlistId other : Int} {view otherView : PlaylistView}

/-- A view is the one that was put there, or was there before. -/
theorem setView_lookup (found : (widget.setView playlistId view).playlistViews.lookup other =
    some otherView) :
    other = playlistId ∧ otherView = view ∨ widget.playlistViews.lookup other = some otherView := by
  rw [setView] at found
  by_cases same : other = playlistId
  · rw [same, AList.lookup_insert] at found
    exact .inl ⟨same, (Option.some.inj found).symm⟩
  · rw [AList.lookup_insert_ne same] at found
    exact .inr found

/-- A view that is left was there before. -/
theorem erase_lookup (found : (widget.playlistViews.erase playlistId).lookup other = some view) :
    widget.playlistViews.lookup other = some view := by
  by_cases removed : other = playlistId
  · rw [removed, AList.lookup_erase] at found
    cases found
  · rwa [AList.lookup_erase_ne removed] at found

/-- What a callback does to the views. -/
inductive Received (display : Display) (widget : PlaylistTabwidget) :
    Event → PlaylistTabwidget → Prop where
  | same (event : Event) : Received display widget event widget
  | addsView {playlistName : String} {playlistId : Int} {items : Option (List PlaylistItem)}
      {view : PlaylistView}
      (added : PlaylistView.new.addPlaylist display playlistId items = some view) :
      Received display widget (.addPlaylistCb playlistName playlistId items)
        (widget.setView playlistId view)
  | addsRows {playlistId fromId : Int} {items : List PlaylistItem} {view changed : PlaylistView}
      (found : widget.playlistViews.lookup playlistId = some view)
      (added : view.addItems display fromId (some items) = some changed) :
      Received display widget (.addPlaylistItemCb playlistId fromId items)
        (widget.setView playlistId changed)
  | movesRow {playlistId : Int} {view : PlaylistView} (fromId toId : Int)
      (found : widget.playlistViews.lookup playlistId = some view) :
      Received display widget (.movePlaylistItemCb playlistId fromId toId)
        (widget.setView playlistId (view.movePlaylistItem fromId toId))
  | removesRow {playlistId : Int} {view : PlaylistView} (playlistItemId : Int)
      (found : widget.playlistViews.lookup playlistId = some view) :
      Received display widget (.removePlaylistItemCb playlistId playlistItemId)
        (widget.setView playlistId (view.removePlaylistItem playlistItemId))
  | removesView (playlistId : Int) :
      Received display widget (.removePlaylistCb playlistId)
        ⟨widget.playlistViews.erase playlistId⟩

theorem receive_received (received : widget.receive display event = some next) :
    Received display widget event next := by
  have kept (same : some widget = some next) : Received display widget event next := by
    obtain rfl := Option.some.inj same
    exact .same event
  cases event with
  | addPlaylistCb playlistName playlistId items =>
    obtain ⟨view, added, rfl⟩ := Option.map_eq_some_iff.mp received
    exact .addsView added
  | addPlaylistItemCb playlistId fromId items =>
    rw [receive] at received
    split at received
    · exact kept received
    · rename_i view found
      obtain ⟨changed, added, rfl⟩ := Option.map_eq_some_iff.mp received
      exact .addsRows found added
  | movePlaylistItemCb playlistId fromId toId =>
    rw [receive] at received
    split at received
    · exact kept received
    · rename_i view found
      obtain rfl := Option.some.inj received
      exact .movesRow fromId toId found
  | removePlaylistItemCb playlistId playlistItemId =>
    rw [receive] at received
    split at received
    · exact kept received
    · rename_i view found
      obtain rfl := Option.some.inj received
      exact .removesRow playlistItemId found
  | removePlaylistCb playlistId =>
    obtain rfl := Option.some.inj received
    exact .removesView playlistId
  | _ => exact kept received

end Views

end PlaylistTabwidget

end Mprt
