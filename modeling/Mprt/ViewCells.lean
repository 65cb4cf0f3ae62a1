import Mprt.PlaylistRows

/-!
# The cells of a view

A view makes a column for each caption that a tag comes with, when it first comes, and puts the
values of the tags of an item into the columns of their captions. Columns are never moved: a row
keeps to show the tags of its item when later items bring new columns, and when rows are inserted,
moved and removed around it. The columns of the id and of the album art are written over.
-/

namespace Mprt

/-- What the tags of an item say under a caption: where several have it, the last one does. -/
def tagText (display : Display) (tags : List (String × String)) (caption : String) :
    Option String :=
  tags.foldl (fun text tag =>
    if tag.1 ≠ "" ∧ display.caption tag.1 = caption then some tag.2 else text) none

namespace RowBuild

/-- The columns of the captions are numbered from zero on. -/
structure Columns (tableHeaders : AList (fun _ : String => Nat)) (lastUsedCol : Nat) : Prop where
  size : lastUsedCol = tableHeaders.entries.length
  below : ∀ caption col, tableHeaders.lookup caption = some col → col < lastUsedCol
  apart : ∀ first second col, tableHeaders.lookup first = some col →
    tableHeaders.lookup second = some col → first = second

/-- What some texts say in the column of a caption. -/
def cellText (tableHeaders : AList (fun _ : String => Nat)) (texts : List (Option String))
    (caption : String) : Option String :=
  (tableHeaders.lookup caption).bind (fun col => (texts[col]?).join)

/-- The texts say what the tags do. -/
structure Built (display : Display) (tags : List (String × String)) (build : RowBuild) : Prop where
  columns : Columns build.tableHeaders build.lastUsedCol
  inside : build.rowItems.length ≤ build.lastUsedCol
  cells : ∀ caption, cellText build.tableHeaders build.rowItems caption =
    tagText display tags caption

/-- Columns are added and none is changed. -/
structure Extends (before after : AList (fun _ : String => Nat)) : Prop where
  kept : ∀ caption col, before.lookup caption = some col → after.lookup caption = some col
  new : ∀ caption col, after.lookup caption = some col → before.lookup caption = none →
    before.entries.length ≤ col
  more : before.entries.length ≤ after.entries.length

section Cells

variable {display : Display} {tags : List (String × String)} {build : RowBuild}
  {before middle after : AList (fun _ : String => Nat)} {lastUsedCol : Nat}

/-- Columns that stay as they are have been extended by none. -/
theorem Extends.refl (tableHeaders : AList (fun _ : String => Nat)) :
    Extends tableHeaders tableHeaders :=
  ⟨fun _ _ => id, fun _ _ found missing => by simp [missing] at found, Nat.le_refl _⟩

/-- Columns are only ever added at the right, so what was found in one is found there at any later
time. -/
theorem Extends.trans (first : Extends before middle) (second : Extends middle after) :
    Extends before after := by
  refine ⟨fun caption col found => second.kept _ _ (first.kept _ _ found), ?_,
    first.more.trans second.more⟩
  intro caption col found missing
  cases known : middle.lookup caption with
  | none => exact first.more.trans (second.new caption col found known)
  | some other =>
    have same := (second.kept caption other known).symm.trans found
    exact Option.some.inj same ▸ first.new caption other known missing

/-- The list of cells is made long enough for the column, which then has the value. The other
cells are as before, or new and empty. -/
theorem getElem?_setItemList (rowItems : List (Option String)) (colToUse col : Nat)
    (tagVal : String) :
    ((setItemList rowItems colToUse tagVal)[col]?).join =
      if colToUse = col then some tagVal else (rowItems[col]?).join := by
  rw [setItemList, List.getElem?_set]
  by_cases same : colToUse = col
  · rw [if_pos same, if_pos same, if_pos]
    · rfl
    · rw [enlargeItemList, List.length_append, List.length_replicate]
      omega
  · rw [if_neg same, if_neg same, enlargeItemList, List.getElem?_append]
    split
    · rfl
    · rename_i outside
      rw [List.getElem?_eq_none (Nat.le_of_not_lt outside), List.getElem?_replicate]
      split <;> rfl

/-- The text of a caption is that of the last tag with this caption. A tag without a name has
none. -/
theorem tagText_snoc (display : Display) (tags : List (String × String))
    (tag : String × String) (caption : String) :
    tagText display (tags ++ [tag]) caption =
      if tag.1 ≠ "" ∧ display.caption tag.1 = caption then some tag.2
      else tagText display tags caption := by
  rw [tagText, List.foldl_append]
  rfl

/-- A caption that is added finds its column, and the other captions find theirs. -/
theorem lookup_insert (tableHeaders : AList (fun _ : String => Nat)) (added caption : String)
    (col : Nat) : (tableHeaders.insert added col).lookup caption =
      if caption = added then some col else tableHeaders.lookup caption := by
  split
  · rename_i same
    rw [same, AList.lookup_insert]
  · rename_i other
    exact AList.lookup_insert_ne other

/-- A new caption gets the next column. -/
theorem Columns.insert (columns : Columns before lastUsedCol) {added : String}
    (unknown : before.lookup added = none) :
    Columns (before.insert added lastUsedCol) (lastUsedCol + 1) ∧
      Extends before (before.insert added lastUsedCol) := by
  have missing : added ∉ before := AList.lookup_eq_none.mp unknown
  have entries : (before.insert added lastUsedCol).entries.length = lastUsedCol + 1 := by
    rw [AList.entries_insert_of_notMem missing, List.length_cons, columns.size]
  refine ⟨⟨entries.symm, ?_, ?_⟩, ?_, ?_, ?_⟩
  · intro caption col found
    rw [lookup_insert] at found
    split at found
    · exact Nat.lt_succ_of_le (Option.some.inj found).ge
    · exact Nat.lt_succ_of_lt (columns.below caption col found)
  · intro first second col foundFirst foundSecond
    rw [lookup_insert] at foundFirst foundSecond
    split at foundFirst <;> split at foundSecond
    · rename_i isFirst isSecond
      rw [isFirst, isSecond]
    · have below := columns.below second col foundSecond
      exact absurd (Option.some.inj foundFirst) below.ne'
    · have below := columns.below first col foundFirst
      exact absurd (Option.some.inj foundSecond) below.ne'
    · exact columns.apart first second col foundFirst foundSecond
  · intro caption col found
    rw [lookup_insert, if_neg]
    · exact found
    · rintro rfl
      rw [unknown] at found
      cases found
  · intro caption col found absent
    rw [lookup_insert] at found
    split at found
    · rw [← Option.some.inj found, columns.size]
    · rw [absent] at found
      cases found
  · rw [entries, columns.size]
    exact Nat.le_succ _

/-- A value in its column: the other columns show what they did. -/
theorem cellText_setItemList (texts : List (Option String)) {caption : String} {colToUse : Nat}
    (apart : before.lookup caption ≠ some colToUse) (tagVal : String) :
    cellText before (setItemList texts colToUse tagVal) caption =
      cellText before texts caption := by
  rw [cellText, cellText]
  cases found : before.lookup caption with
  | none => rfl
  | some col =>
    have differs : colToUse ≠ col := by
      rintro rfl
      exact apart found
    rw [Option.bind_some, Option.bind_some, getElem?_setItemList, if_neg differs]

/-- A value within the columns does not make the row longer than there are columns. -/
theorem length_setItemList_le {texts : List (Option String)} {colToUse size : Nat}
    (short : texts.length ≤ size) (inside : colToUse < size) (tagVal : String) :
    (setItemList texts colToUse tagVal).length ≤ size := by
  rw [setItemList, List.length_set, enlargeItemList, List.length_append, List.length_replicate]
  omega

/-- One more tag: its value goes into the column of its caption, which may be a new one. -/
theorem Built.addTag (built : Built display tags build) (tag : String × String) :
    Built display (tags ++ [tag]) (build.addTag display tag) ∧
      Extends build.tableHeaders (build.addTag display tag).tableHeaders := by
  rw [RowBuild.addTag]
  by_cases unnamed : tag.1 = ""
  · rw [if_pos unnamed]
    refine ⟨⟨built.columns, built.inside, fun caption => ?_⟩, .refl _⟩
    rw [tagText_snoc, if_neg (fun both => both.1 unnamed)]
    exact built.cells caption
  · rw [if_neg unnamed]
    cases known : build.tableHeaders.lookup (display.caption tag.1) with
    | none =>
      simp only [known]
      obtain ⟨columns, extended⟩ := built.columns.insert known
      refine ⟨⟨columns, ?_, fun caption => ?_⟩, extended⟩
      · exact length_setItemList_le (built.inside.trans (Nat.le_succ _)) (Nat.lt_succ_self _) _
      · rw [tagText_snoc]
        by_cases same : display.caption tag.1 = caption
        · rw [if_pos ⟨unnamed, same⟩, cellText, lookup_insert, if_pos same.symm,
            Option.bind_some, getElem?_setItemList, if_pos rfl]
        · have unused : build.tableHeaders.lookup caption ≠ some build.lastUsedCol :=
            fun found => absurd (built.columns.below _ _ found) (Nat.lt_irrefl _)
          have shown := cellText_setItemList build.rowItems unused tag.2
          rw [if_neg (fun both => same both.2), ← built.cells caption, ← shown, cellText,
            lookup_insert, if_neg (Ne.symm same), cellText]
    | some colToUse =>
      simp only [known]
      refine ⟨⟨built.columns, ?_, fun caption => ?_⟩, .refl _⟩
      · exact length_setItemList_le built.inside (built.columns.below _ colToUse known) _
      · rw [tagText_snoc]
        by_cases same : display.caption tag.1 = caption
        · rw [if_pos ⟨unnamed, same⟩, cellText, ← same, known, Option.bind_some,
            getElem?_setItemList, if_pos rfl]
        · have apart : build.tableHeaders.lookup caption ≠ some colToUse :=
            fun found => same (built.columns.apart _ _ colToUse known found)
          rw [if_neg (fun both => same both.2), ← built.cells caption]
          exact cellText_setItemList build.rowItems apart tag.2

/-- All tags, one after another. -/
theorem Built.addTags (built : Built display tags build) (more : List (String × String)) :
    Built display (tags ++ more) (more.foldl (RowBuild.addTag display) build) ∧
      Extends build.tableHeaders (more.foldl (RowBuild.addTag display) build).tableHeaders := by
  induction more generalizing tags build with
  | nil =>
    rw [List.append_nil]
    exact ⟨built, .refl _⟩
  | cons tag rest inductionHypothesis =>
    obtain ⟨first, extended⟩ := built.addTag tag
    obtain ⟨later, further⟩ := inductionHypothesis first
    rw [List.append_assoc, List.singleton_append] at later
    exact ⟨later, extended.trans further⟩

/-- A row that is built from the tags of an item. -/
theorem built_row (display : Display) (columns : Columns before lastUsedCol)
    (tags : List (String × String)) :
    Built display tags (tags.foldl (RowBuild.addTag display) ⟨before, lastUsedCol, []⟩) ∧
      Extends before (tags.foldl (RowBuild.addTag display) ⟨before, lastUsedCol, []⟩).tableHeaders := by
  have empty : Built display [] ⟨before, lastUsedCol, []⟩ := by
    refine ⟨columns, Nat.zero_le _, fun caption => ?_⟩
    rw [cellText]
    cases before.lookup caption <;> rfl
  exact empty.addTags tags

/-- A short row says the same under more columns. -/
theorem Extends.cellText_eq (extended : Extends before after) {texts : List (Option String)}
    (inside : texts.length ≤ before.entries.length) (caption : String) :
    cellText after texts caption = cellText before texts caption := by
  rw [cellText, cellText]
  cases known : before.lookup caption with
  | some col => rw [extended.kept caption col known]
  | none =>
    cases found : after.lookup caption with
    | none => rfl
    | some col =>
      have outside := inside.trans (extended.new caption col found known)
      rw [Option.bind_some, List.getElem?_eq_none outside]
      rfl

/-- A cell that is overwritten changes what is said under its own caption only. -/
theorem cellText_set (texts : List (Option String)) {caption : String} {col : Nat}
    (apart : before.lookup caption ≠ some col) (text : Option String) :
    cellText before (texts.set col text) caption = cellText before texts caption := by
  rw [cellText, cellText]
  cases found : before.lookup caption with
  | none => rfl
  | some other =>
    have differs : col ≠ other := by
      rintro rfl
      exact apart found
    rw [Option.bind_some, Option.bind_some, List.getElem?_set_ne differs]

end Cells

end RowBuild

namespace PlaylistView

open RowBuild

/-- A row says what the tags of its item do, but for the id and the album art. -/
structure ShowsTags (display : Display) (tableHeaders : AList (fun _ : String => Nat))
    (item : PlaylistItem) (row : ViewRow) : Prop where
  named : row.playlistItemId = item.playlistItemId
  inside : row.texts.length ≤ tableHeaders.entries.length
  read : ∃ metadata, item.metadata = some metadata ∧ ∀ caption, caption ≠ "Album Art" →
    caption ≠ "playlist_item_id" →
      cellText tableHeaders row.texts caption = tagText display metadata.tags caption

/-- Each row of a view shows the tags of one of some items. -/
structure Celled (display : Display) (items : List PlaylistItem) (view : PlaylistView) : Prop where
  columns : Columns view.tableHeaders view.tableHeaders.entries.length
  albumArt : view.tableHeaders.lookup "Album Art" = some albumArtItemCol
  itemId : view.tableHeaders.lookup "playlist_item_id" = some playlistItemIdCol
  rows : ∀ row ∈ view.rows, ∃ item ∈ items, ShowsTags display view.tableHeaders item row

section Rows

variable {display : Display} {items : List PlaylistItem} {view shown : PlaylistView}

/-- A new view has the columns that every view has, and no rows. -/
theorem new_celled (display : Display) : Celled display [] new where
  columns := by
    have lookup (caption : String) : new.tableHeaders.lookup caption =
        if caption = "Album Art" then some albumArtItemCol
        else if caption = "playlist_item_id" then some playlistItemIdCol else none := by
      rw [new, lookup_insert, lookup_insert, AList.lookup_empty]
    refine ⟨rfl, fun caption col found => ?_, fun first second col isFirst isSecond => ?_⟩
    · rw [lookup] at found
      split_ifs at found <;> exact Option.some.inj found ▸ by decide
    · rw [lookup] at isFirst isSecond
      have reserved : albumArtItemCol ≠ playlistItemIdCol := by decide
      split_ifs at isFirst isSecond <;> simp_all
  albumArt := rfl
  itemId := rfl
  rows := fun _ member => absurd member List.not_mem_nil

/-- Which playlist a view is for is no matter of its cells. -/
theorem Celled.named (celled : Celled display items view) (playlistId : Int) :
    Celled display items { view with playlistId := playlistId } :=
  ⟨celled.columns, celled.albumArt, celled.itemId, celled.rows⟩

/-- Rows that show items show them among more items too. -/
theorem Celled.mono (celled : Celled display items view) {more : List PlaylistItem}
    (among : ∀ item ∈ items, item ∈ more) : Celled display more view := by
  refine ⟨celled.columns, celled.albumArt, celled.itemId, fun row member => ?_⟩
  obtain ⟨item, there, shows⟩ := celled.rows row member
  exact ⟨item, among item there, shows⟩

/-- Rows that are among those of a view. -/
theorem Celled.of_rows (celled : Celled display items view)
    (headers : shown.tableHeaders = view.tableHeaders)
    (among : ∀ row ∈ shown.rows, row ∈ view.rows) : Celled display items shown := by
  refine ⟨?_, ?_, ?_, fun row member => ?_⟩
  · rw [headers]
    exact celled.columns
  · rw [headers]
    exact celled.albumArt
  · rw [headers]
    exact celled.itemId
  · rw [headers]
    exact celled.rows row (among row member)

/-- Moving a row takes its cells along. -/
theorem Celled.movePlaylistItem (celled : Celled display items view) (fromId toId : Int) :
    Celled display items (view.movePlaylistItem fromId toId) := by
  rw [PlaylistView.movePlaylistItem]
  split
  · exact celled.of_rows rfl (fun row => KeyedSequence.mem_of_mem_moveRow)
  · exact celled

/-- Removing a row leaves the cells of the others. -/
theorem Celled.removePlaylistItem (celled : Celled display items view) (playlistItemId : Int) :
    Celled display items (view.removePlaylistItem playlistItemId) := by
  refine celled.of_rows rfl (fun row member => ?_)
  rw [PlaylistView.removePlaylistItem] at member
  simp only at member
  split at member
  · exact member
  · exact List.mem_of_mem_eraseIdx member

/-- The id and the album art are put into columns of their own. -/
theorem rowItems_shows {item : PlaylistItem} {metadata : Metadata} {build : RowBuild}
    {texts : List (Option String)} (read : item.metadata = some metadata)
    (built : Built display metadata.tags build)
    (albumArt : build.tableHeaders.lookup "Album Art" = some albumArtItemCol)
    (itemId : build.tableHeaders.lookup "playlist_item_id" = some playlistItemIdCol)
    (put : rowItems display item metadata build.rowItems = some texts) (standardItem : Nat) :
    ShowsTags display build.tableHeaders item ⟨standardItem, item.playlistItemId, texts⟩ := by
  have short : build.rowItems.length ≤ build.tableHeaders.entries.length :=
    built.inside.trans built.columns.size.le
  have numbered (caption : String) (other : caption ≠ "playlist_item_id") :
      build.tableHeaders.lookup caption ≠ some playlistItemIdCol :=
    fun found => other (built.columns.apart _ _ _ found itemId)
  have pictured (caption : String) (other : caption ≠ "Album Art") :
      build.tableHeaders.lookup caption ≠ some albumArtItemCol :=
    fun found => other (built.columns.apart _ _ _ found albumArt)
  rw [rowItems] at put
  split at put
  · split at put
    · obtain rfl := Option.some.inj put
      refine ⟨rfl, by rw [List.length_set]; exact short, metadata, read, ?_⟩
      intro caption _ notId
      rw [cellText_set _ (numbered caption notId)]
      exact built.cells caption
    · obtain rfl := Option.some.inj put
      refine ⟨rfl, by rw [List.length_set, List.length_set]; exact short, metadata, read, ?_⟩
      intro caption notArt notId
      rw [cellText_set _ (pictured caption notArt), cellText_set _ (numbered caption notId)]
      exact built.cells caption
  · cases put

/-- A row says the same under columns that were added after it, in which it has no cells. -/
theorem ShowsTags.extends {before after : AList (fun _ : String => Nat)} {item : PlaylistItem}
    {row : ViewRow} (shows : ShowsTags display before item row) (extended : Extends before after) :
    ShowsTags display after item row := by
  obtain ⟨metadata, read, cells⟩ := shows.read
  refine ⟨shows.named, shows.inside.trans extended.more, metadata, read, ?_⟩
  intro caption notArt notId
  rw [extended.cellText_eq shows.inside]
  exact cells caption notArt notId

/-- The loop adds rows that show the tags of the new items. -/
theorem Celled.addLoop {row lastUsedCol : Nat} (celled : Celled display items view)
    (size : lastUsedCol = view.tableHeaders.entries.length) {new : List PlaylistItem}
    (looped : addLoop display view row lastUsedCol new = some shown) :
    Celled display (items ++ new) shown := by
  induction new generalizing items view row lastUsedCol with
  | nil =>
    obtain rfl := Option.some.inj looped
    rw [List.append_nil]
    exact celled
  | cons item rest inductionHypothesis =>
    have passed (looped : PlaylistView.addLoop display view row lastUsedCol rest = some shown) :
        Celled display (items ++ item :: rest) shown :=
      (inductionHypothesis celled size looped).mono (fun other member => by
        rw [List.mem_append] at member ⊢
        exact member.imp_right (List.mem_cons_of_mem item))
    rw [PlaylistView.addLoop] at looped
    cases read : item.metadata with
    | none =>
      rw [read] at looped
      exact passed looped
    | some metadata =>
      rw [read] at looped
      simp only at looped
      by_cases untagged : metadata.tags = []
      · rw [if_pos untagged] at looped
        exact passed looped
      · rw [if_neg untagged] at looped
        obtain ⟨built, extended⟩ := built_row display (size ▸ celled.columns) metadata.tags
        have albumArt := extended.kept _ _ celled.albumArt
        have itemId := extended.kept _ _ celled.itemId
        split at looped
        · cases looped
        · rename_i texts put
          have inserted : Celled display (items ++ [item])
              ({ view with tableHeaders := (metadata.tags.foldl (RowBuild.addTag display)
                ⟨view.tableHeaders, lastUsedCol, []⟩).tableHeaders }.insertRow row
                  item.playlistItemId texts) := by
            refine ⟨built.columns.size ▸ built.columns, albumArt, itemId, fun other member => ?_⟩
            rcases List.eq_or_mem_of_mem_insertIdx member with rfl | earlier
            · exact ⟨item, List.mem_append_right _ (List.mem_singleton_self item),
                rowItems_shows read built albumArt itemId put _⟩
            · obtain ⟨owner, there, shows⟩ := celled.rows other earlier
              exact ⟨owner, List.mem_append_left _ there, shows.extends extended⟩
          have later := inductionHypothesis inserted built.columns.size looped
          rw [List.append_assoc] at later
          exact later

/-- The items of a callback are added as rows that show their tags, wherever among the others the
rows are inserted. -/
theorem Celled.addItems (celled : Celled display items view) {fromId : Int}
    {new : Option (List PlaylistItem)} (added : view.addItems display fromId new = some shown) :
    Celled display (items ++ new.getD []) shown := by
  cases new with
  | none =>
    obtain rfl := Option.some.inj added
    rw [Option.getD_none, List.append_nil]
    exact celled
  | some new =>
    simp only [PlaylistView.addItems] at added
    split at added
    · rename_i nothing
      obtain rfl := Option.some.inj added
      rw [Option.getD_some, nothing, List.append_nil]
      exact celled
    · exact celled.addLoop rfl added

end Rows

end PlaylistView

/-! ## What the callbacks announce -/

/-- The items of a playlist that a callback brings. -/
def announced (playlistId : Int) : Event → List PlaylistItem
  | .addPlaylistCb _ added items => if added = playlistId then items.getD [] else []
  | .addPlaylistItemCb changed _ items => if changed = playlistId then items else []
  | _ => []

namespace PlaylistTabwidget

/-- Each view shows the tags of items that were announced. -/
def AllCelled (display : Display) (widget : PlaylistTabwidget) (events : List Event) : Prop :=
  ∀ playlistId view, widget.playlistViews.lookup playlistId = some view →
    PlaylistView.Celled display (events.flatMap (announced playlistId)) view

variable {display : Display} {widget shown : PlaylistTabwidget} {events : List Event}

/-- After a further callback the rows of a view are still rows of items that were announced for
its playlist. -/
theorem AllCelled.mono (celled : AllCelled display widget events) (event : Event) :
    AllCelled display widget (events ++ [event]) := by
  intro playlistId view found
  refine (celled playlistId view found).mono (fun item member => ?_)
  rw [List.flatMap_append]
  exact List.mem_append_left _ member

/-- One view is replaced. -/
theorem AllCelled.setView {event : Event} (celled : AllCelled display widget events)
    {playlistId : Int} {view : PlaylistView}
    (replaced : view.Celled display ((events ++ [event]).flatMap (announced playlistId))) :
    AllCelled display (widget.setView playlistId view) (events ++ [event]) := by
  intro other otherView found
  rcases setView_lookup found with ⟨rfl, rfl⟩ | before
  · exact replaced
  · exact celled.mono event other otherView before

/-- Each callback leaves the views showing the tags of what they were told, by the cases of the
callbacks. -/
theorem AllCelled.receive {event : Event} (celled : AllCelled display widget events)
    (received : widget.receive display event = some shown) :
    AllCelled display shown (events ++ [event]) := by
  cases receive_received received with
  | same => exact celled.mono event
  | @addsView playlistName playlistId items view added =>
    refine celled.setView ?_
    have rows := ((PlaylistView.new_celled display).named playlistId).addItems added
    refine rows.mono (fun item member => ?_)
    rw [List.flatMap_append, List.flatMap_singleton, announced, if_pos rfl]
    exact List.mem_append_right _ member
  | addsRows found added =>
    refine celled.setView ?_
    rw [List.flatMap_append, List.flatMap_singleton, announced, if_pos rfl]
    exact (celled _ _ found).addItems added
  | movesRow fromId toId found =>
    exact celled.setView ((celled.mono _ _ _ found).movePlaylistItem fromId toId)
  | removesRow playlistItemId found =>
    exact celled.setView ((celled.mono _ _ _ found).removePlaylistItem playlistItemId)
  | removesView playlistId =>
    exact fun other view found => celled.mono _ other view (erase_lookup found)

/-- Whatever callbacks a new widget has handled, its rows show the tags of what they brought. -/
theorem receiveAll_celled
    (received : PlaylistTabwidget.receiveAll display widget events = some shown)
    {earlier : List Event} (celled : AllCelled display widget earlier) :
    AllCelled display shown (earlier ++ events) := by
  induction events generalizing widget earlier with
  | nil =>
    obtain rfl := Option.some.inj received
    rw [List.append_nil]
    exact celled
  | cons event rest inductionHypothesis =>
    obtain ⟨next, first, later⟩ := Option.bind_eq_some_iff.mp received
    have handled := inductionHypothesis later (celled.receive first)
    rw [List.append_assoc] at handled
    exact handled

end PlaylistTabwidget

end Mprt
