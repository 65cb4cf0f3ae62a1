import Mprt.PlaylistView

/-!
# The rows of a view by item id

The index of a view leads from the id of an item to its row as long as it has
exactly the standard items of the rows. Then each operation of a view acts on
the list of the item ids in row order: adding inserts consecutive rows, moving
takes one row and inserts it again, removing erases a row.

A row can be built from tags when one of them is shown right of the album art.
-/

namespace Mprt

/-- The caption of some tag names a column other than the one of album art. -/
def Displayable (display : Display) (tags : List (String × String)) : Prop :=
  ∃ tag ∈ tags, tag.1 ≠ "" ∧ display.caption tag.1 ≠ "Album Art"

instance (display : Display) (tags : List (String × String)) :
    Decidable (Displayable display tags) :=
  inferInstanceAs (Decidable (∃ tag ∈ tags, _))

namespace RowBuild

/-- Only album art is shown in the first column. -/
def Headed (tableHeaders : AList (fun _ : String => Nat)) (lastUsedCol : Nat) : Prop :=
  1 ≤ lastUsedCol ∧ ∀ tagName col, tableHeaders.lookup tagName = some col →
    tagName ≠ "Album Art" → 1 ≤ col

/-- A value makes the list of cells long enough for its column, and never shorter. -/
theorem setItemList_length (rowItems : List (Option String)) (colToUse : Nat) (tagVal : String) :
    rowItems.length ≤ (setItemList rowItems colToUse tagVal).length ∧
      colToUse < (setItemList rowItems colToUse tagVal).length := by
  simp only [setItemList, enlargeItemList, List.length_set, List.length_append,
    List.length_replicate]
  omega

/-- A tag keeps the columns headed and the number of headers, and its row is long
enough when it is shown right of the album art. -/
theorem addTag_effect (display : Display) (build : RowBuild) (tag : String × String)
    (headed : Headed build.tableHeaders build.lastUsedCol) :
    Headed (build.addTag display tag).tableHeaders (build.addTag display tag).lastUsedCol ∧
      build.rowItems.length ≤ (build.addTag display tag).rowItems.length ∧
      build.tableHeaders.entries.length ≤ (build.addTag display tag).tableHeaders.entries.length ∧
      (tag.1 ≠ "" → display.caption tag.1 ≠ "Album Art" →
        1 < (build.addTag display tag).rowItems.length) := by
  rw [addTag]
  split
  · rename_i unnamed
    exact ⟨headed, Nat.le_refl _, Nat.le_refl _, fun named => absurd unnamed named⟩
  · cases known : build.tableHeaders.lookup (display.caption tag.1) with
    | none =>
      have grown := setItemList_length build.rowItems build.lastUsedCol tag.2
      have missing : display.caption tag.1 ∉ build.tableHeaders := AList.lookup_eq_none.mp known
      simp only [known]
      refine ⟨⟨by omega, ?_⟩, grown.1, ?_, ?_⟩
      · intro tagName col found other
        by_cases same : tagName = display.caption tag.1
        · rw [same, AList.lookup_insert] at found
          obtain rfl := Option.some.inj found
          exact headed.1
        · rw [AList.lookup_insert_ne same] at found
          exact headed.2 tagName col found other
      · rw [AList.entries_insert_of_notMem missing, List.length_cons]
        omega
      · intro _ _
        have first := headed.1
        omega
    | some colToUse =>
      have grown := setItemList_length build.rowItems colToUse tag.2
      simp only [known]
      refine ⟨headed, grown.1, Nat.le_refl _, ?_⟩
      intro _ other
      have right := headed.2 _ colToUse known other
      omega

/-- All tags together. -/
theorem addTags_effect (display : Display) (tags : List (String × String)) (build : RowBuild)
    (headed : Headed build.tableHeaders build.lastUsedCol) :
    Headed (tags.foldl (addTag display) build).tableHeaders
        (tags.foldl (addTag display) build).lastUsedCol ∧
      build.rowItems.length ≤ (tags.foldl (addTag display) build).rowItems.length ∧
      build.tableHeaders.entries.length ≤
        (tags.foldl (addTag display) build).tableHeaders.entries.length ∧
      (Displayable display tags → 1 < (tags.foldl (addTag display) build).rowItems.length) := by
  induction tags generalizing build with
  | nil =>
    refine ⟨headed, Nat.le_refl _, Nat.le_refl _, ?_⟩
    rintro ⟨tag, member, _⟩
    cases member
  | cons tag rest inductionHypothesis =>
    obtain ⟨headedFirst, longerFirst, moreFirst, shownFirst⟩ :=
      addTag_effect display build tag headed
    obtain ⟨headedRest, longerRest, moreRest, shownRest⟩ :=
      inductionHypothesis (build.addTag display tag) headedFirst
    refine ⟨headedRest, longerFirst.trans longerRest, moreFirst.trans moreRest, ?_⟩
    rintro ⟨shown, member, named, other⟩
    cases member with
    | head => exact Nat.lt_of_lt_of_le (shownFirst named other) longerRest
    | tail _ later => exact shownRest ⟨shown, later, named, other⟩

end RowBuild

namespace PlaylistView

/-- The index has exactly the standard items of the rows, which differ, as do the
ids. The columns of tags lie right of the album art. -/
structure Indexed (view : PlaylistView) : Prop where
  distinct : view.itemIds.Nodup
  items : (view.rows.map ViewRow.standardItem).Nodup
  listed : ∀ row ∈ view.rows, view.playlistItemIndex.lookup row.playlistItemId =
    some row.standardItem
  shown : ∀ id, view.playlistItemIndex.lookup id ≠ none → id ∈ view.itemIds
  made : ∀ row ∈ view.rows, row.standardItem < view.standardItems
  headers : 1 ≤ view.tableHeaders.entries.length
  headed : ∀ tagName col, view.tableHeaders.lookup tagName = some col →
    tagName ≠ "Album Art" → 1 ≤ col

/-- A view without rows is in order. -/
theorem new_indexed : Indexed new where
  distinct := List.nodup_nil
  items := List.nodup_nil
  listed := by
    intro row member
    cases member
  shown := by
    intro id present
    exact absurd (AList.lookup_empty id) present
  made := by
    intro row member
    cases member
  headers := by decide
  headed := by
    intro tagName col found other
    by_cases idColumn : tagName = "playlist_item_id"
    · rw [idColumn] at found
      have column : some playlistItemIdCol = some col := found
      obtain rfl := Option.some.inj column
      exact Nat.le_refl 1
    · rw [new] at found
      rw [AList.lookup_insert_ne other, AList.lookup_insert_ne idColumn, AList.lookup_empty]
        at found
      cases found

/-- For which playlist a view is does not matter to its order. -/
theorem Indexed.named {view : PlaylistView} (indexed : Indexed view) (playlistId : Int) :
    Indexed { view with playlistId := playlistId } :=
  ⟨indexed.distinct, indexed.items, indexed.listed, indexed.shown, indexed.made, indexed.headers,
    indexed.headed⟩

/-- A standard item and an id that name the same rows have the same first row. -/
theorem idxOf_same (rows : List ViewRow) (standardItem : Nat) (id : Int)
    (same : ∀ row ∈ rows, row.standardItem = standardItem ↔ row.playlistItemId = id) :
    (rows.map ViewRow.standardItem).idxOf? standardItem =
      (rows.map ViewRow.playlistItemId).idxOf? id := by
  induction rows with
  | nil => rfl
  | cons row rest inductionHypothesis =>
    have first := same row List.mem_cons_self
    have later := inductionHypothesis (fun other member =>
      same other (List.mem_cons_of_mem row member))
    simp only [List.map_cons, List.idxOf?_cons, beq_iff_eq, first, later]

/-- The row of an id is where it stands in the row order. -/
theorem Indexed.getItemRow_eq {view : PlaylistView} (indexed : Indexed view) (id : Int) :
    view.getItemRow id = view.itemIds.idxOf? id := by
  rw [getItemRow]
  cases found : view.playlistItemIndex.lookup id with
  | none =>
    symm
    rw [List.idxOf?_eq_none_iff]
    intro member
    obtain ⟨row, there, rfl⟩ := List.mem_map.mp member
    rw [indexed.listed row there] at found
    cases found
  | some standardItem =>
    have member := indexed.shown id (by rw [found]; exact Option.some_ne_none _)
    obtain ⟨row, there, named⟩ := List.mem_map.mp member
    have owner := indexed.listed row there
    rw [named, found] at owner
    apply idxOf_same
    intro other otherThere
    have listed := indexed.listed other otherThere
    constructor
    · intro sameItem
      have sameRow : other = row := List.inj_on_of_nodup_map indexed.items otherThere there
        (sameItem.trans (Option.some.inj owner))
      rw [sameRow, named]
    · intro sameId
      rw [sameId, found] at listed
      exact (Option.some.inj listed).symm

/-- The index and the headers after a row with a new id is inserted. -/
theorem Indexed.insertRow {view : PlaylistView} (indexed : Indexed view) {row : Nat}
    (inside : row ≤ view.rows.length) {id : Int} (fresh : id ∉ view.itemIds)
    (texts : List (Option String)) (tableHeaders : AList (fun _ : String => Nat))
    (headers : 1 ≤ tableHeaders.entries.length)
    (headed : ∀ tagName col, tableHeaders.lookup tagName = some col →
      tagName ≠ "Album Art" → 1 ≤ col) :
    Indexed ({ view with tableHeaders := tableHeaders }.insertRow row id texts) ∧
      ({ view with tableHeaders := tableHeaders }.insertRow row id texts).itemIds =
        view.itemIds.insertIdx row id := by
  have ids : ({ view with tableHeaders := tableHeaders }.insertRow row id texts).itemIds =
      view.itemIds.insertIdx row id := List.map_insertIdx _ _ _ _
  have unmade : view.standardItems ∉ view.rows.map ViewRow.standardItem := by
    intro member
    obtain ⟨other, there, same⟩ := List.mem_map.mp member
    have made := indexed.made other there
    omega
  refine ⟨⟨?_, ?_, ?_, ?_, ?_, headers, headed⟩, ids⟩
  · rw [ids]
    exact KeyedSequence.nodup_insertIdx fresh indexed.distinct
  · rw [PlaylistView.insertRow, List.map_insertIdx]
    exact KeyedSequence.nodup_insertIdx unmade indexed.items
  · intro other member
    rcases List.eq_or_mem_of_mem_insertIdx member with rfl | earlier
    · exact AList.lookup_insert _
    · have differs : other.playlistItemId ≠ id := by
        intro same
        exact fresh (same ▸ List.mem_map_of_mem earlier)
      exact (AList.lookup_insert_ne differs).trans (indexed.listed other earlier)
  · intro other present
    rw [ids, List.mem_insertIdx (by rw [PlaylistView.itemIds, List.length_map]; exact inside)]
    by_cases same : other = id
    · exact Or.inl same
    · exact Or.inr (indexed.shown other ((AList.lookup_insert_ne same) ▸ present))
  · intro other member
    rcases List.eq_or_mem_of_mem_insertIdx member with rfl | earlier
    · exact Nat.lt_succ_self _
    · exact Nat.lt_succ_of_lt (indexed.made other earlier)

/-- Every tag list of the items is displayable. -/
def Displayed (display : Display) (items : List PlaylistItem) : Prop :=
  ∀ item ∈ items, ∃ metadata, item.metadata = some metadata ∧ Displayable display metadata.tags

/-- With room for the two columns that every view has, the cells of a row can be filled in. -/
theorem rowItems_some (display : Display) (item : PlaylistItem) (metadata : Metadata)
    {built : List (Option String)} (room : 1 < built.length) :
    ∃ texts, rowItems display item metadata built = some texts := by
  have column : playlistItemIdCol < built.length := room
  rw [rowItems, if_pos column]
  cases display.albumArtUrl metadata.albumart with
  | none => exact ⟨_, rfl⟩
  | some url => exact ⟨_, rfl⟩

/-- The loop fills consecutive rows with the ids of the items, which are new. -/
theorem addLoop_rows {display : Display} {view : PlaylistView} (indexed : Indexed view)
    {items : List PlaylistItem} (displayed : Displayed display items) {row lastUsedCol : Nat}
    (inside : row ≤ view.rows.length) (positive : 1 ≤ lastUsedCol)
    (fresh : (view.itemIds ++ items.map PlaylistItem.playlistItemId).Nodup) :
    ∃ shown, addLoop display view row lastUsedCol items = some shown ∧ Indexed shown ∧
      shown.itemIds =
        KeyedSequence.insertRows view.itemIds row (items.map PlaylistItem.playlistItemId) := by
  induction items generalizing view row lastUsedCol with
  | nil => exact ⟨view, rfl, indexed, rfl⟩
  | cons item rest inductionHypothesis =>
    obtain ⟨metadata, read, displayable⟩ := displayed item List.mem_cons_self
    have tagged : metadata.tags ≠ [] := by
      obtain ⟨tag, member, _⟩ := displayable
      exact List.ne_nil_of_mem member
    obtain ⟨headed, _, more, wide⟩ := RowBuild.addTags_effect display metadata.tags
      ⟨view.tableHeaders, lastUsedCol, []⟩ ⟨positive, indexed.headed⟩
    have room := wide displayable
    obtain ⟨texts, built⟩ := rowItems_some display item metadata room
    have idFresh : item.playlistItemId ∉ view.itemIds := by
      intro there
      exact (List.nodup_append.mp fresh).2.2 _ there _ List.mem_cons_self rfl
    obtain ⟨indexedNext, idsNext⟩ := indexed.insertRow inside idFresh texts _
      (indexed.headers.trans more) headed.2
    have inView : row ≤ view.itemIds.length := by
      rw [PlaylistView.itemIds, List.length_map]
      exact inside
    have freshNext : (view.itemIds.insertIdx row item.playlistItemId ++
        rest.map PlaylistItem.playlistItemId).Nodup := by
      have moved := (List.perm_insertIdx item.playlistItemId view.itemIds inView).append_right
        (rest.map PlaylistItem.playlistItemId)
      refine moved.nodup_iff.mpr ?_
      rw [List.map_cons] at fresh
      exact List.nodup_middle.mp fresh
    rw [← idsNext] at freshNext
    have longer := congrArg List.length idsNext
    rw [List.length_insertIdx_of_le_length inView, PlaylistView.itemIds, List.length_map,
      PlaylistView.itemIds, List.length_map] at longer
    have insideNext := Nat.succ_le_succ inside
    rw [Nat.succ_eq_add_one, Nat.succ_eq_add_one, ← longer] at insideNext
    obtain ⟨shown, looped, indexedShown, ids⟩ := inductionHypothesis indexedNext
      (fun other member => displayed other (List.mem_cons_of_mem item member)) insideNext
      headed.1 freshNext
    refine ⟨shown, ?_, indexedShown, ?_⟩
    · rw [addLoop, read]
      simp only [if_neg tagged, built]
      exact looped
    · rw [ids, idsNext, List.map_cons, KeyedSequence.insertRows]

/-- New items fill the rows from the one of an anchor on, or the rows at the end. -/
theorem addItems_rows {display : Display} {view : PlaylistView} (indexed : Indexed view)
    {items : List PlaylistItem} (displayed : Displayed display items) (fromId : Int)
    (fresh : (view.itemIds ++ items.map PlaylistItem.playlistItemId).Nodup) :
    ∃ shown, view.addItems display fromId (some items) = some shown ∧ Indexed shown ∧
      shown.itemIds = KeyedSequence.insertRows view.itemIds (view.itemIds.idxOf fromId)
        (items.map PlaylistItem.playlistItemId) := by
  have length : view.itemIds.length = view.rows.length := List.length_map _
  have row : (view.getItemRow fromId).getD view.rows.length = view.itemIds.idxOf fromId := by
    rw [indexed.getItemRow_eq, ← length]
    by_cases there : fromId ∈ view.itemIds
    · rw [KeyedSequence.idxOf?_of_mem there]
      rfl
    · rw [List.idxOf?_eq_none_iff.mpr there, List.idxOf_eq_length there]
      rfl
  rw [addItems]
  by_cases none : items = []
  · refine ⟨view, by simp only [if_pos none], indexed, ?_⟩
    rw [none]
    rfl
  · simp only [if_neg none, row]
    have inside : view.itemIds.idxOf fromId ≤ view.rows.length := by
      rw [← length]
      exact List.idxOf_le_length
    exact addLoop_rows indexed displayed inside indexed.headers fresh

/-- A move in the view, by ids. -/
def moveIds (ids : List Int) (fromId toId : Int) : List Int :=
  if fromId ∈ ids ∧ toId ∈ ids then
    KeyedSequence.moveRow ids (ids.idxOf fromId) (ids.idxOf toId)
  else ids

/-- A view in order stays so when a row is moved, and its ids move as the view moves them. -/
theorem Indexed.movePlaylistItem {view : PlaylistView} (indexed : Indexed view)
    (fromId toId : Int) : Indexed (view.movePlaylistItem fromId toId) ∧
      (view.movePlaylistItem fromId toId).itemIds = moveIds view.itemIds fromId toId := by
  unfold PlaylistView.movePlaylistItem moveIds
  rw [indexed.getItemRow_eq, indexed.getItemRow_eq]
  by_cases both : fromId ∈ view.itemIds ∧ toId ∈ view.itemIds
  · rw [KeyedSequence.idxOf?_of_mem both.1, KeyedSequence.idxOf?_of_mem both.2, if_pos both]
    have ids : (KeyedSequence.moveRow view.rows (view.itemIds.idxOf fromId)
        (view.itemIds.idxOf toId)).map ViewRow.playlistItemId =
          KeyedSequence.moveRow view.itemIds (view.itemIds.idxOf fromId)
            (view.itemIds.idxOf toId) := KeyedSequence.map_moveRow _ _ _ _
    refine ⟨⟨?_, ?_, ?_, ?_, ?_, indexed.headers, indexed.headed⟩, ids⟩
    · rw [PlaylistView.itemIds, ids]
      exact KeyedSequence.nodup_moveRow indexed.distinct _ _
    · rw [KeyedSequence.map_moveRow]
      exact KeyedSequence.nodup_moveRow indexed.items _ _
    · intro row member
      exact indexed.listed row (KeyedSequence.mem_of_mem_moveRow member)
    · intro id present
      rw [PlaylistView.itemIds, ids]
      exact KeyedSequence.mem_moveRow (indexed.shown id present)
        (List.idxOf_lt_length_of_mem both.2)
    · intro row member
      exact indexed.made row (KeyedSequence.mem_of_mem_moveRow member)
  · rw [if_neg both]
    have missing : fromId ∉ view.itemIds ∨ toId ∉ view.itemIds := by
      by_cases first : fromId ∈ view.itemIds
      · exact Or.inr (fun second => both ⟨first, second⟩)
      · exact Or.inl first
    rcases missing with first | second
    · rw [List.idxOf?_eq_none_iff.mpr first]
      exact ⟨indexed, rfl⟩
    · rw [List.idxOf?_eq_none_iff.mpr second]
      cases view.itemIds.idxOf? fromId with
      | none => exact ⟨indexed, rfl⟩
      | some row => exact ⟨indexed, rfl⟩

/-- A view in order stays so when a row is removed, which takes the id of this row out. -/
theorem Indexed.removePlaylistItem {view : PlaylistView} (indexed : Indexed view) (id : Int) :
    Indexed (view.removePlaylistItem id) ∧
      (view.removePlaylistItem id).itemIds = view.itemIds.eraseIdx (view.itemIds.idxOf id) := by
  have removed : (view.removePlaylistItem id).rows =
      view.rows.eraseIdx (view.itemIds.idxOf id) := by
    rw [PlaylistView.removePlaylistItem, indexed.getItemRow_eq]
    by_cases there : id ∈ view.itemIds
    · rw [KeyedSequence.idxOf?_of_mem there]
    · have length : view.itemIds.length = view.rows.length := List.length_map _
      rw [List.idxOf?_eq_none_iff.mpr there, List.idxOf_eq_length there, length,
        List.eraseIdx_of_length_le (Nat.le_refl _)]
  have ids : (view.removePlaylistItem id).itemIds =
      view.itemIds.eraseIdx (view.itemIds.idxOf id) := by
    rw [PlaylistView.itemIds, removed, ← List.eraseIdx_map]
    rfl
  -- no remaining row has the id, so erasing it from the index is no loss to them
  have others : ∀ row ∈ (view.removePlaylistItem id).rows, row.playlistItemId ≠ id := by
    intro row member same
    have remaining : row.playlistItemId ∈ (view.removePlaylistItem id).itemIds :=
      List.mem_map_of_mem member
    rw [same, ids] at remaining
    have there : id ∈ view.itemIds := List.mem_of_mem_eraseIdx remaining
    have found : view.itemIds[view.itemIds.idxOf id]? = some id := by
      rw [List.getElem?_eq_getElem (List.idxOf_lt_length_of_mem there), List.getElem_idxOf]
    exact KeyedSequence.notMem_eraseIdx indexed.distinct found remaining
  have earlier : ∀ row ∈ (view.removePlaylistItem id).rows, row ∈ view.rows := by
    intro row member
    rw [removed] at member
    exact List.mem_of_mem_eraseIdx member
  refine ⟨⟨?_, ?_, ?_, ?_, ?_, indexed.headers, indexed.headed⟩, ids⟩
  · rw [ids]
    exact indexed.distinct.sublist (List.eraseIdx_sublist _ _)
  · rw [removed, ← List.eraseIdx_map]
    exact indexed.items.sublist (List.eraseIdx_sublist _ _)
  · intro row member
    exact (AList.lookup_erase_ne (others row member)).trans
      (indexed.listed row (earlier row member))
  · intro other present
    have differs : other ≠ id := by
      intro same
      rw [same] at present
      exact present (AList.lookup_erase _ _)
    have shown : other ∈ view.itemIds := by
      apply indexed.shown
      intro missing
      exact present ((AList.lookup_erase_ne differs).trans missing)
    rw [ids, List.mem_eraseIdx_iff_getElem]
    obtain ⟨row, bound, there⟩ := List.mem_iff_getElem.mp shown
    refine ⟨row, bound, ?_, there⟩
    intro sameRow
    subst sameRow
    exact differs (there.symm.trans (List.getElem_idxOf _))
  · intro row member
    exact indexed.made row (earlier row member)

end PlaylistView

end Mprt
