import Mprt.PlaylistManagement

/-!
# The order of a playlist by item id

Every operation of a playlist acts on the list of its item ids: an accepted url
inserts the value of the counter, moving splices, removing erases, and the
remaining operations keep the list. The ids of items added together are
consecutive.
-/

namespace Mprt

/-- Consecutive ids. -/
def idsFrom : Int → Nat → List Int
  | _, 0 => []
  | first, count + 1 => first :: idsFrom (first + 1) count

/-- The ids that are given out next are those from the counter on, as many as there are items. -/
theorem mem_idsFrom {id first : Int} {count : Nat} :
    id ∈ idsFrom first count ↔ first ≤ id ∧ id < first + count := by
  induction count generalizing first with
  | zero =>
    simp only [idsFrom, List.not_mem_nil, false_iff]
    omega
  | succ count inductionHypothesis =>
    simp only [idsFrom, List.mem_cons, inductionHypothesis]
    omega

/-- Consecutive ids are different, so the items of one call can be told apart. -/
theorem nodup_idsFrom (first : Int) (count : Nat) : (idsFrom first count).Nodup := by
  induction count generalizing first with
  | zero => exact List.nodup_nil
  | succ count inductionHypothesis =>
    refine List.nodup_cons.mpr ⟨?_, inductionHypothesis (first + 1)⟩
    rw [mem_idsFrom]
    omega

/-- Without the last one they are the ids of one item less. -/
theorem idsFrom_dropLast (first : Int) (count : Nat) :
    (idsFrom first count).dropLast = idsFrom first (count - 1) := by
  induction count generalizing first with
  | zero => rfl
  | succ count inductionHypothesis =>
    cases count with
    | zero => rfl
    | succ fewer =>
      have later := inductionHypothesis (first + 1)
      simp only [idsFrom, Nat.add_sub_cancel, List.dropLast_cons_cons] at later ⊢
      rw [later]

namespace Playlist

/-- A playlist has as many ids as rows. -/
theorem length_itemIds (list : Playlist) : list.itemIds.length = list.playlist.endRow :=
  list.playlist.length_keys

/-- No two items of a playlist have the same id, which the sequence carries with it. -/
theorem itemIds_nodup (list : Playlist) : list.itemIds.Nodup := list.playlist.distinct

/-- The invalid id is below zero, and ids are given out from zero on. -/
theorem invalid_notMem (list : Playlist) : invalidPlaylistItemId ∉ list.itemIds := by
  intro member
  have issued := list.issued _ member
  exact absurd issued.1 (by decide)

/-- New ids are not in use. -/
theorem fresh_ids (list : Playlist) (count : Nat) :
    (list.itemIds ++ idsFrom list.playlistIdCounter count).Nodup := by
  refine List.nodup_append.mpr ⟨list.itemIds_nodup, nodup_idsFrom _ _, ?_⟩
  intro id member other new same
  have issued := list.issued id member
  have range := mem_idsFrom.mp new
  omega

/-- A url that the tag parser does not accept changes nothing. -/
theorem addItemAt_refused {list : Playlist} {files : FileSystem} {url : String}
    (refused : files.readMetadata (list.basePath ++ url) = none) (iter : Nat) :
    list.addItemAt files iter url = (none, list) := by
  have constructed : list.constructPlaylistItem files url = (.unread, list) := by
    simp only [constructPlaylistItem, refused]
  rw [addItemAt]
  rw [dif_neg (by rw [constructed]; exact fun differs => differs rfl), constructed]

/-- The item that an accepted url gets. -/
def addedItem (list : Playlist) (url : String) (metadata : Metadata) : PlaylistItem :=
  ⟨list.playlistIdCounter, invalidUrlId, url, 1000 * metadata.durationMs, some metadata⟩

/-- An item with a new id is inserted in its row, as far as there is one, and everything else
about the playlist stays. -/
theorem withItem_effect {list : Playlist} (iter : Nat) {item : PlaylistItem}
    (below : 0 ≤ item.playlistItemId ∧ item.playlistItemId < list.playlistIdCounter)
    (fresh : item.playlistItemId ∉ list.itemIds) :
    ∃ after, list.withItem iter item below = some after ∧
      after.playlist.items = list.playlist.items.insertIdx iter item ∧
      after.playlistIdCounter = list.playlistIdCounter ∧ after.basePath = list.basePath := by
  rw [withItem]
  split
  · rename_i refused
    obtain ⟨inserted, accepted⟩ := KeyedSequence.insert_isSome fresh iter
    rw [refused] at accepted
    cases accepted
  · rename_i inserted accepted
    exact ⟨_, rfl, KeyedSequence.items_insert accepted, rfl, rfl⟩

/-- An accepted url gets the next id. -/
theorem addItemAt_accepted {list : Playlist} {files : FileSystem} {url : String}
    {metadata : Metadata} (read : files.readMetadata (list.basePath ++ url) = some metadata)
    (iter : Nat) :
    ∃ after, list.addItemAt files iter url = (some (list.addedItem url metadata), after) ∧
      after.playlist.items = list.playlist.items.insertIdx iter (list.addedItem url metadata) ∧
      after.playlistIdCounter = list.playlistIdCounter + 1 ∧ after.basePath = list.basePath := by
  have constructed : list.constructPlaylistItem files url =
      (list.addedItem url metadata, list.advance) := by
    simp only [constructPlaylistItem, read, addedItem]
  have counted := list.counted
  have accepted : (list.constructPlaylistItem files url).1.playlistItemId ≠
      invalidPlaylistItemId := by
    simp only [constructed, addedItem, invalidPlaylistItemId]
    omega
  have fresh : (list.constructPlaylistItem files url).1.playlistItemId ∉
      (list.constructPlaylistItem files url).2.itemIds := by
    rw [constructed]
    intro member
    have issued := list.issued _ member
    simp only [addedItem] at issued
    omega
  have below := constructPlaylistItem_id list files url accepted
  obtain ⟨after, inserted, items, counter, base⟩ := withItem_effect iter below fresh
  refine ⟨after, ?_, ?_, ?_, ?_⟩
  · rw [addItemAt, dif_pos accepted]
    simp only [inserted]
    rw [constructed]
  · rw [items, constructed]
    rfl
  · rw [counter, constructed]
    rfl
  · rw [base, constructed]
    rfl

/-- How many of the urls get items. -/
def acceptedCount (files : FileSystem) (basePath : String) (urls : List String) : Nat :=
  urls.countP (fun url => (files.readMetadata (basePath ++ url)).isSome)

/-- Every item was read by the tag parser. -/
def ReadFrom (files : FileSystem) (items : List PlaylistItem) : Prop :=
  ∀ item ∈ items, ∃ file metadata, files.readMetadata file = some metadata ∧
    item.metadata = some metadata

/-- The item for a url has the tags that the parser has read from the file of this url. -/
theorem readFrom_addedItem {files : FileSystem} {list : Playlist} {url : String}
    {metadata : Metadata} (read : files.readMetadata (list.basePath ++ url) = some metadata) :
    ReadFrom files [list.addedItem url metadata] := by
  intro item member
  obtain rfl := List.mem_singleton.mp member
  exact ⟨_, metadata, read, rfl⟩

/-- Items that were added one after another have all been read from their files. -/
theorem readFrom_append {files : FileSystem} {first second : List PlaylistItem}
    (readFirst : ReadFrom files first) (readSecond : ReadFrom files second) :
    ReadFrom files (first ++ second) := by
  intro item member
  rcases List.mem_append.mp member with early | late
  · exact readFirst item early
  · exact readSecond item late

/-- An item that is inserted in a row has its id in the same row of the ids. -/
theorem itemIds_insert {list after : Playlist} {iter : Nat} {item : PlaylistItem}
    (items : after.playlist.items = list.playlist.items.insertIdx iter item) :
    after.itemIds = list.itemIds.insertIdx iter item.playlistItemId := by
  unfold itemIds KeyedSequence.keys
  rw [items, List.map_insertIdx]

/-- The urls of one call are added under consecutive ids, each before the anchor as
it stands then. Without an anchor this is the end, where a missing id leads too. -/
theorem addUrls_effect (files : FileSystem) (fromId : Int) (urls : List String)
    (added : List PlaylistItem) (list : Playlist) :
    ∃ new after, urls.foldl (PlaylistManagement.addUrl files fromId) (added, list) =
        (added ++ new, after) ∧
      new.map PlaylistItem.playlistItemId =
        idsFrom list.playlistIdCounter (acceptedCount files list.basePath urls) ∧
      after.itemIds = KeyedSequence.insertEach fromId list.itemIds
        (new.map PlaylistItem.playlistItemId) ∧
      ReadFrom files new := by
  induction urls generalizing added list with
  | nil => exact ⟨[], list, by rw [List.append_nil]; rfl, rfl, rfl, fun _ member => by cases member⟩
  | cons url rest inductionHypothesis =>
    have row : (if fromId = invalidPlaylistItemId then list.playlist.endRow
        else list.playlist.row fromId) = list.itemIds.idxOf fromId := by
      by_cases invalid : fromId = invalidPlaylistItemId
      · rw [if_pos invalid, invalid, List.idxOf_eq_length list.invalid_notMem, length_itemIds]
      · rw [if_neg invalid]
        rfl
    have tried : (if fromId = invalidPlaylistItemId then list.addItem files url
        else list.addItemBefore files fromId url) =
          list.addItemAt files (list.itemIds.idxOf fromId) url := by
      rw [← row]
      by_cases invalid : fromId = invalidPlaylistItemId
      · rw [if_pos invalid, if_pos invalid]
        rfl
      · rw [if_neg invalid, if_neg invalid]
        rfl
    simp only [List.foldl_cons, PlaylistManagement.addUrl, tried]
    cases read : files.readMetadata (list.basePath ++ url) with
    | none =>
      have count : acceptedCount files list.basePath (url :: rest) =
          acceptedCount files list.basePath rest := by
        simp only [acceptedCount]
        exact List.countP_cons_of_neg (by rw [read]; exact Bool.false_ne_true)
      rw [addItemAt_refused read, count]
      exact inductionHypothesis added list
    | some metadata =>
      have count : acceptedCount files list.basePath (url :: rest) =
          acceptedCount files list.basePath rest + 1 := by
        simp only [acceptedCount]
        exact List.countP_cons_of_pos (by rw [read]; rfl)
      obtain ⟨next, accepted, items, counter, base⟩ :=
        addItemAt_accepted read (list.itemIds.idxOf fromId)
      have idsNext := itemIds_insert items
      obtain ⟨new, after, folded, ids, order, readNew⟩ :=
        inductionHypothesis (added ++ [list.addedItem url metadata]) next
      rw [accepted]
      refine ⟨list.addedItem url metadata :: new, after, ?_, ?_, ?_, ?_⟩
      · rw [folded, List.append_assoc, List.singleton_append]
      · rw [List.map_cons, ids, counter, base, count, idsFrom]
        rfl
      · rw [order, idsNext, List.map_cons, KeyedSequence.insertEach]
      · exact readFrom_append (readFrom_addedItem read) readNew

/-- The last id of a list with new items at its end is one of theirs. -/
theorem getLastItemId_mem {list : Playlist} {ids : List Int} {new : List PlaylistItem}
    (several : 0 < new.length)
    (all : list.itemIds = ids ++ new.map PlaylistItem.playlistItemId) :
    list.getLastItemId ∈ new.map PlaylistItem.playlistItemId := by
  have last : list.itemIds.getLast? = (new.map PlaylistItem.playlistItemId).getLast? := by
    rw [all, List.getLast?_append_of_ne_nil]
    exact List.ne_nil_of_length_pos (by rw [List.length_map]; exact several)
  rw [getLastItemId]
  cases found : list.playlist.items.getLast? with
  | none =>
    rw [itemIds, KeyedSequence.keys, List.getLast?_map, found] at last
    have empty := List.getLast?_eq_none_iff.mp last.symm
    rw [List.map_eq_nil_iff] at empty
    rw [empty] at several
    exact absurd several (Nat.lt_irrefl 0)
  | some item =>
    rw [itemIds, KeyedSequence.keys, List.getLast?_map, found] at last
    exact List.mem_of_getLast? last.symm

/-- Moving an item takes its id out of its row and puts it before the row of the anchor. It
succeeds exactly when the item is there. -/
theorem moveItem_ids (list : Playlist) (fromId toId : Int) :
    (list.moveItem fromId toId).1 = decide (fromId ∈ list.itemIds) ∧
      (list.moveItem fromId toId).2.itemIds = KeyedSequence.moveRow list.itemIds
        (list.itemIds.idxOf fromId)
        (KeyedSequence.landing (list.itemIds.idxOf fromId) (list.itemIds.idxOf toId)) := by
  rw [moveItem]
  by_cases missing : list.playlist.row fromId = list.playlist.endRow
  · rw [if_pos missing]
    have absent : fromId ∉ list.itemIds := KeyedSequence.row_eq_endRow_iff.mp missing
    have outside : list.itemIds[list.itemIds.idxOf fromId]? = none := by
      rw [List.idxOf_eq_length absent]
      exact List.getElem?_eq_none (Nat.le_refl _)
    constructor
    · exact (decide_eq_false absent).symm
    · rw [KeyedSequence.moveRow, outside]
  · rw [if_neg missing]
    have there : fromId ∈ list.itemIds := by
      by_contra absent
      exact missing (KeyedSequence.row_eq_endRow_iff.mpr absent)
    constructor
    · exact (decide_eq_true there).symm
    · exact KeyedSequence.keys_splice list.playlist _ _

/-- Removing an item takes its id out of its row, and succeeds exactly when there is such an item. -/
theorem removeItem_ids (list : Playlist) (id : Int) :
    (list.removeItem id).1 = decide (id ∈ list.itemIds) ∧
      (list.removeItem id).2.itemIds = list.itemIds.eraseIdx (list.itemIds.idxOf id) := by
  rw [removeItem]
  by_cases missing : list.playlist.row id = list.playlist.endRow
  · rw [if_pos missing]
    have absent : id ∉ list.itemIds := KeyedSequence.row_eq_endRow_iff.mp missing
    constructor
    · exact (decide_eq_false absent).symm
    · rw [List.idxOf_eq_length absent, List.eraseIdx_of_length_le (Nat.le_refl _)]
  · rw [if_neg missing]
    have there : id ∈ list.itemIds := by
      by_contra absent
      exact missing (KeyedSequence.row_eq_endRow_iff.mpr absent)
    constructor
    · exact (decide_eq_true there).symm
    · exact KeyedSequence.keys_eraseRow list.playlist _

/-- An item that is played gets a url id and keeps its own. -/
@[simp] theorem updateUrlId_ids (list : Playlist) (playlistItemId urlId : Int) :
    (list.updateUrlId playlistItemId urlId).itemIds = list.itemIds :=
  KeyedSequence.keys_modify list.playlist (list.playlist.row playlistItemId)
    (fun item => { item with urlId := urlId }) (fun _ => rfl)

/-- A line of a file is passed over, or its url is added at the end. -/
theorem loadLine_effect (files : FileSystem) (line : List Char) (added : List PlaylistItem)
    (list : Playlist) :
    ∃ new after, loadLine files false (added, list) line = (added ++ new, after) ∧
      after.itemIds = list.itemIds ++ new.map PlaylistItem.playlistItemId ∧ ReadFrom files new := by
  have nothing : list.itemIds = list.itemIds ++ [].map PlaylistItem.playlistItemId ∧
      ReadFrom files [] :=
    ⟨by rw [List.map_nil, List.append_nil], fun _ member => by cases member⟩
  rw [loadLine]
  generalize stringTrim (String.ofList line) = url
  by_cases skipped : url.toList.head? = none ∨ url.toList.head? = some '#'
  · refine ⟨[], list, ?_, nothing⟩
    simp only [if_pos skipped, List.append_nil]
  · simp only [if_neg skipped, Bool.false_eq_true, if_false, addItem]
    cases read : files.readMetadata (list.basePath ++ url) with
    | none =>
      refine ⟨[], list, ?_, nothing⟩
      simp only [addItemAt_refused read, List.append_nil]
    | some metadata =>
      obtain ⟨next, accepted, items, _, _⟩ := addItemAt_accepted read list.playlist.endRow
      have idsNext := itemIds_insert items
      rw [← length_itemIds, List.insertIdx_length_self] at idsNext
      refine ⟨[list.addedItem url metadata], next, ?_, idsNext, readFrom_addedItem read⟩
      simp only [accepted]

/-- The lines of a file are added at the end. -/
theorem loadLines_effect (files : FileSystem) (lines : List (List Char))
    (added : List PlaylistItem) (list : Playlist) :
    ∃ new after, lines.foldl (loadLine files false) (added, list) = (added ++ new, after) ∧
      after.itemIds = list.itemIds ++ new.map PlaylistItem.playlistItemId ∧ ReadFrom files new := by
  induction lines generalizing added list with
  | nil =>
    refine ⟨[], list, ?_, ?_, fun _ member => by cases member⟩
    · rw [List.append_nil]
      rfl
    · rw [List.map_nil, List.append_nil]
  | cons line rest inductionHypothesis =>
    obtain ⟨first, next, loaded, idsFirst, readFirst⟩ := loadLine_effect files line added list
    obtain ⟨later, after, folded, idsLater, readLater⟩ := inductionHypothesis (added ++ first) next
    refine ⟨first ++ later, after, ?_, ?_, readFrom_append readFirst readLater⟩
    · rw [List.foldl_cons, loaded, folded, List.append_assoc]
    · rw [idsLater, idsFirst, List.map_append, List.append_assoc]

/-- Loading a file adds the items it returns at the end. -/
theorem loadPlaylist_effect (list : Playlist) (files : FileSystem) (filename : String) :
    (list.loadPlaylist files filename false).2.itemIds = list.itemIds ++
        (list.loadPlaylist files filename false).1.map PlaylistItem.playlistItemId ∧
      ReadFrom files (list.loadPlaylist files filename false).1 := by
  have nothing : list.itemIds = list.itemIds ++ [].map PlaylistItem.playlistItemId ∧
      ReadFrom files [] :=
    ⟨by rw [List.map_nil, List.append_nil], fun _ member => by cases member⟩
  rw [loadPlaylist]
  generalize stringTrim filename = trimmed
  by_cases present : files.pathExists trimmed = true
  · simp only [present, if_true]
    cases files.readFile trimmed with
    | none => exact nothing
    | some text =>
      obtain ⟨new, after, folded, ids, readNew⟩ := loadLines_effect files (getLines text.toList) []
        { list.setPlaylistName (files.stem trimmed) with
          basePath := files.parentPath trimmed ++ "/" }
      simp only [folded, List.nil_append]
      exact ⟨ids, readNew⟩
  · simp only [if_neg present]
    exact nothing

end Playlist

end Mprt
