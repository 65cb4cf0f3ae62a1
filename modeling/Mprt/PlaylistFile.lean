import Mprt.PlaylistOrder

/-!
# Saving a playlist and loading it again

A playlist file stands for the audio files that its lines lead to. Saving writes
one line for each item, its url as it is. Loading trims the name of the file and
each line, passes over comments, and reads the urls under the directory of the
file that is loaded.

So a url comes back when trimming leaves it a url and when it leads from the
directory of the playlist file to the same audio file as from the base path of
the saved playlist. An absolute path never does so by itself, since the directory
is put before it too.
-/

namespace Mprt.PlaylistFile

/-- A line that is passed over when a playlist is loaded. -/
def Skipped (line : String) : Prop := line.toList.head? = none ∨ line.toList.head? = some '#'

instance (line : String) : Decidable (Skipped line) := inferInstanceAs (Decidable (_ ∨ _))

/-- The audio file that a line leads to, if the tag parser accepts it. -/
def lineFile (files : FileSystem) (basePath : String) (line : List Char) : Option String :=
  let url := stringTrim (String.ofList line)
  if Skipped url then none
  else if (files.readMetadata (basePath ++ url)).isSome = true then
    some (files.canonical (basePath ++ url))
  else none

/-- The directory that urls of a playlist file are read under. -/
def directory (files : FileSystem) (filename : String) : String := files.parentPath filename ++ "/"

/-- The audio files that a playlist file stands for. -/
def listedFiles (files : FileSystem) (filename : String) : List String :=
  if files.pathExists filename = true then
    match files.readFile filename with
    | none => []
    | some text => (getLines text.toList).filterMap (lineFile files (directory files filename))
  else []

/-- The audio files that the items of a playlist lead to. -/
def resolved (files : FileSystem) (list : Playlist) : List String :=
  list.playlist.items.map (fun item => files.canonical (list.basePath ++ item.url))

/-- The line of an item leads to its audio file from where it was saved. -/
def ItemKept (files : FileSystem) (list : Playlist) (filename : String) (item : PlaylistItem) :
    Prop :=
  ¬ Skipped (stringTrim item.url) ∧
    (files.readMetadata (directory files filename ++ stringTrim item.url)).isSome = true ∧
    files.canonical (directory files filename ++ stringTrim item.url) =
      files.canonical (list.basePath ++ item.url)

instance (files : FileSystem) (list : Playlist) (filename : String) (item : PlaylistItem) :
    Decidable (ItemKept files list filename item) :=
  inferInstanceAs (Decidable (_ ∧ _))

/-- Every item is kept under a file name that trimming does not change. Under
another name a different file is loaded, which has to stand for the same files. -/
def Kept (files : FileSystem) (list : Playlist) (filename : String) : Prop :=
  if stringTrim filename = filename then
    ∀ item ∈ list.playlist.items, ItemKept files list filename item
  else listedFiles files (stringTrim filename) = resolved files list

instance (files : FileSystem) (list : Playlist) (filename : String) :
    Decidable (Kept files list filename) :=
  inferInstanceAs (Decidable (ite _ _ _))

/-! ## Loading -/

/-- A line adds the audio file it leads to, under the base path of the playlist. -/
theorem loadLine_resolved (files : FileSystem) (line : List Char) (added : List PlaylistItem)
    (list : Playlist) :
    (Playlist.loadLine files false (added, list) line).2.basePath = list.basePath ∧
      resolved files (Playlist.loadLine files false (added, list) line).2 =
        resolved files list ++ (lineFile files list.basePath line).toList := by
  unfold Playlist.loadLine lineFile
  generalize stringTrim (String.ofList line) = url
  by_cases skipped : Skipped url
  · have passed : url.toList.head? = none ∨ url.toList.head? = some '#' := skipped
    simp only [if_pos passed, if_pos skipped, Option.toList_none, List.append_nil, and_self]
  · have read : ¬ (url.toList.head? = none ∨ url.toList.head? = some '#') := skipped
    simp only [if_neg read, if_neg skipped, Bool.false_eq_true, if_false, Playlist.addItem]
    cases parsed : files.readMetadata (list.basePath ++ url) with
    | none =>
      simp only [Playlist.addItemAt_refused parsed, Option.isSome_none, Bool.false_eq_true, if_false,
        Option.toList_none, List.append_nil, and_self]
    | some metadata =>
      obtain ⟨after, accepted, items, _, base⟩ :=
        Playlist.addItemAt_accepted parsed list.playlist.endRow
      have atEnd : after.playlist.items =
          list.playlist.items ++ [list.addedItem url metadata] := by
        rw [items, KeyedSequence.endRow, List.insertIdx_length_self]
      simp only [accepted, Option.isSome_some, if_true, Option.toList_some]
      refine ⟨base, ?_⟩
      rw [resolved, atEnd, base, List.map_append]
      rfl

theorem loadLines_resolved (files : FileSystem) (lines : List (List Char))
    (loaded : List PlaylistItem × Playlist) :
    resolved files (lines.foldl (Playlist.loadLine files false) loaded).2 =
      resolved files loaded.2 ++ lines.filterMap (lineFile files loaded.2.basePath) := by
  induction lines generalizing loaded with
  | nil => exact (List.append_nil _).symm
  | cons line rest inductionHypothesis =>
    obtain ⟨base, first⟩ := loadLine_resolved files line loaded.1 loaded.2
    rw [List.foldl_cons, inductionHypothesis, base, first, List.append_assoc]
    cases reached : lineFile files loaded.2.basePath line with
    | none => rw [List.filterMap_cons_none reached, Option.toList_none, List.nil_append]
    | some file =>
      rw [List.filterMap_cons_some reached, Option.toList_some, List.singleton_append]

/-- Loading a playlist file gives the audio files it stands for. -/
theorem loadPlaylist_resolved (files : FileSystem) (filename : String) :
    resolved files (Playlist.new.loadPlaylist files filename false).2 =
      listedFiles files (stringTrim filename) := by
  unfold Playlist.loadPlaylist listedFiles
  generalize stringTrim filename = trimmed
  by_cases present : files.pathExists trimmed = true
  · simp only [present, if_true]
    cases files.readFile trimmed with
    | none => rfl
    | some text =>
      simp only [loadLines_resolved]
      rfl
  · simp only [if_neg present]
    rfl

/-! ## Saving -/

/-- A line is read up to its end. -/
theorem getLines_line {line : List Char} (single : '\n' ∉ line) (rest : List Char) :
    getLines (line ++ '\n' :: rest) = line :: getLines rest := by
  induction line with
  | nil => simp only [List.nil_append, getLines, if_true]
  | cons char later inductionHypothesis =>
    have other : char ≠ '\n' := fun same => single (same ▸ List.mem_cons_self)
    have following := inductionHypothesis (fun member => single (List.mem_cons_of_mem char member))
    simp only [List.cons_append, getLines, if_neg other, following]

/-- The lines of a saved playlist are the urls of its items. -/
theorem getLines_save {items : List PlaylistItem}
    (single : ∀ item ∈ items, '\n' ∉ item.url.toList) :
    getLines (items.flatMap (fun item => item.url.toList ++ ['\n'])) =
      items.map (fun item => item.url.toList) := by
  induction items with
  | nil => rfl
  | cons item rest inductionHypothesis =>
    have following := inductionHypothesis (fun other member =>
      single other (List.mem_cons_of_mem item member))
    rw [List.flatMap_cons, List.append_assoc, List.singleton_append,
      getLines_line (single item List.mem_cons_self), following, List.map_cons]

/-- A partial function gives as many values as a total one exactly when it agrees
with it everywhere. -/
theorem filterMap_eq_map_iff {α β : Type*} {items : List α} {part : α → Option β} {whole : α → β} :
    items.filterMap part = items.map whole ↔ ∀ item ∈ items, part item = some (whole item) := by
  induction items with
  | nil => simp
  | cons item rest inductionHypothesis =>
    rw [List.map_cons, List.forall_mem_cons]
    cases value : part item with
    | none =>
      rw [List.filterMap_cons_none value]
      have shorter := List.length_filterMap_le part rest
      constructor
      · intro same
        have lengths := congrArg List.length same
        rw [List.length_cons, List.length_map] at lengths
        omega
      · rintro ⟨absurdity, _⟩
        cases absurdity
    | some result =>
      rw [List.filterMap_cons_some value, List.cons.injEq, Option.some.injEq, inductionHypothesis]

theorem lineFile_eq_some_iff {files : FileSystem} {list : Playlist} {filename : String}
    {item : PlaylistItem} :
    lineFile files (directory files filename) item.url.toList =
        some (files.canonical (list.basePath ++ item.url)) ↔
      ItemKept files list filename item := by
  unfold lineFile ItemKept
  rw [String.ofList_toList]
  by_cases skipped : Skipped (stringTrim item.url)
  · simp [skipped]
  · by_cases accepted : (files.readMetadata
        (directory files filename ++ stringTrim item.url)).isSome = true
    · simp [skipped, accepted]
    · simp [skipped, accepted]

/-- A file with the text of a saved playlist stands for the files its lines lead to. -/
theorem listedFiles_saved {files : FileSystem} {list : Playlist} {filename : String}
    (present : files.pathExists filename = true)
    (saved : files.readFile filename = some list.savePlaylist)
    (single : ∀ item ∈ list.playlist.items, '\n' ∉ item.url.toList) :
    listedFiles files filename = list.playlist.items.filterMap (fun item =>
      lineFile files (directory files filename) item.url.toList) := by
  have lines : getLines list.savePlaylist.toList =
      list.playlist.items.map (fun item => item.url.toList) := by
    rw [Playlist.savePlaylist, String.toList_ofList]
    exact getLines_save single
  simp only [listedFiles, if_pos present, saved, lines, List.filterMap_map, Function.comp_def]

/-- A saved playlist whose urls have no line breaks leads to the same audio files
when it is loaded again, exactly when it is kept. -/
theorem save_load_resolved {files : FileSystem} {list : Playlist} {filename : String}
    (present : files.pathExists filename = true)
    (saved : files.readFile filename = some list.savePlaylist)
    (single : ∀ item ∈ list.playlist.items, '\n' ∉ item.url.toList) :
    resolved files (Playlist.new.loadPlaylist files filename false).2 = resolved files list ↔
      Kept files list filename := by
  rw [loadPlaylist_resolved, Kept]
  by_cases trimmed : stringTrim filename = filename
  · rw [if_pos trimmed, trimmed, listedFiles_saved present saved single, resolved,
      filterMap_eq_map_iff]
    constructor
    · intro reached item member
      exact lineFile_eq_some_iff.mp (reached item member)
    · intro kept item member
      exact lineFile_eq_some_iff.mpr (kept item member)
  · rw [if_neg trimmed]

/-- What the tag parser reads from a file without tags. -/
def untagged : Metadata := ⟨[], [], by
  intro text found
  cases found⟩

/-- Two playlist files in the directory `/p`, beside the audio files they name. -/
def besideFiles : FileSystem where
  isDirectory := fun _ => false
  canonical := fun name => name
  recursiveDirectory := fun _ => []
  pathExists := fun name => name ∈ ["/p/old", "/p/new", "/p/a", "/p/b"]
  readFile := fun name => if name ∈ ["/p/old", "/p/new"] then some "a\nb\n" else none
  parentPath := fun _ => "/p"
  stem := fun _ => "new"
  readMetadata := fun file => if file ∈ ["/p/a", "/p/b"] then some untagged else none

theorem save_load_beside :
    resolved besideFiles (Playlist.new.loadPlaylist besideFiles "/p/new" false).2 =
      resolved besideFiles (Playlist.new.loadPlaylist besideFiles "/p/old" false).2 :=
  (save_load_resolved (by decide) (by decide) (by decide)).mpr (by decide)

/-- A playlist file `/p/l` with an absolute path in it, and the audio file there. -/
def absoluteFiles : FileSystem where
  isDirectory := fun _ => false
  canonical := fun name => name
  recursiveDirectory := fun _ => []
  pathExists := fun name => name ∈ ["/p/l", "/m/a"]
  readFile := fun name => if name = "/p/l" then some "/m/a\n" else none
  parentPath := fun _ => "/p"
  stem := fun _ => "l"
  readMetadata := fun file => if file = "/m/a" then some untagged else none

/-- A new playlist gets an item by its absolute path. The item is saved, and gone
when the playlist is loaded again. -/
theorem absolute_path_lost :
    (Playlist.new.addItem absoluteFiles "/m/a").2.savePlaylist = "/m/a\n" ∧
      absoluteFiles.readFile "/p/l" =
        some (Playlist.new.addItem absoluteFiles "/m/a").2.savePlaylist ∧
      resolved absoluteFiles (Playlist.new.addItem absoluteFiles "/m/a").2 = ["/m/a"] ∧
      resolved absoluteFiles (Playlist.new.loadPlaylist absoluteFiles "/p/l" false).2 = [] := by
  refine ⟨?_, ?_, ?_, ?_⟩ <;> decide

end Mprt.PlaylistFile
