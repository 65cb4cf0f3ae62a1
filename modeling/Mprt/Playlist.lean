import Mathlib.Algebra.Group.Int.Defs
import Mprt.KeyedSequence

/-!
# Playlists

A `playlist` is a sequence of items with ids of its own, the newest of which is
the largest. Items enter by a url, which is read by the tag parser under the
base path of the playlist; a url that the parser does not accept is not added.
Loading a playlist file sets the base path, saving one writes the urls.

The file system and the tag parser are outside of the program. What they answer
is given to every operation that asks them.
-/

namespace Mprt

def invalidUrlId : Int := -1

def invalidPlaylistId : Int := -1

def invalidPlaylistItemId : Int := -1

/-- The characters that `string_trim` removes, which are also the spaces that
`std::stoll` skips. -/
def trimChars : List Char := ['\t', '\n', '\x0b', '\x0c', '\r', ' ']

def stringLtrim (text : List Char) : List Char := text.dropWhile (fun char => char ∈ trimChars)

def stringRtrim (text : List Char) : List Char := (stringLtrim text.reverse).reverse

def stringTrim (text : String) : String :=
  String.ofList (stringLtrim (stringRtrim text.toList))

/-- The number that decimal digits stand for, if there are any and it fits. -/
def stollDigits (sign : Int) (text : List Char) : Option Int :=
  let digits := text.takeWhile Char.isDigit
  let value := sign * (digits.foldl (fun number digit => 10 * number + (digit.toNat - 48)) 0 : Nat)
  if digits = [] ∨ value < -2 ^ 63 ∨ 2 ^ 63 ≤ value then none else some value

/-- `std::stoll`, with no value where it throws. -/
def stoll (text : String) : Option Int :=
  match stringLtrim text.toList with
  | '-' :: digits => stollDigits (-1) digits
  | '+' :: digits => stollDigits 1 digits
  | digits => stollDigits 1 digits

def audioPropDurationMs : String := "Duration(ms)"

/-- What the tag parser has read from a file. Tags are in the order of their map,
and the one with the duration was written from a number. -/
structure Metadata where
  tags : List (String × String)
  albumart : List (String × List UInt8)
  numeric : ∀ text, tags.lookup audioPropDurationMs = some text → (stoll text).isSome = true
deriving DecidableEq

namespace Metadata

/-- The tag with the duration as a number, and zero without the tag. -/
def durationMs (metadata : Metadata) : Int :=
  match found : metadata.tags.lookup audioPropDurationMs with
  | none => 0
  | some text => (stoll text).get (metadata.numeric text found)

end Metadata

/-- What a directory iterator visits, with no canonical path where it throws. -/
structure DirectoryEntry where
  isRegularFile : Bool
  canonical : Option String

/-- The answers of the file system and of the tag parser. A playlist file is read
when it can be opened for reading and writing. -/
structure FileSystem where
  isDirectory : String → Bool
  canonical : String → String
  recursiveDirectory : String → List DirectoryEntry
  pathExists : String → Bool
  readFile : String → Option String
  parentPath : String → String
  stem : String → String
  readMetadata : String → Option Metadata

/-- The lines that `std::getline` delivers. -/
def getLines : List Char → List (List Char)
  | [] => []
  | char :: rest =>
      if char = '\n' then [] :: getLines rest
      else
        match getLines rest with
        | [] => [[char]]
        | line :: lines => (char :: line) :: lines

/-- `playlist_item_t`, with its tags and album art as they were read. Durations
are in microseconds. -/
structure PlaylistItem where
  playlistItemId : Int
  urlId : Int
  url : String
  duration : Int
  metadata : Option Metadata
deriving DecidableEq

namespace PlaylistItem

/-- The item of the default constructor. -/
def unread : PlaylistItem := ⟨invalidPlaylistItemId, invalidUrlId, "", 0, none⟩

end PlaylistItem

/-- `playlist`. Its items have different ids below the counter. -/
structure Playlist where
  playlistName : String
  playlist : KeyedSequence PlaylistItem.playlistItemId
  playlistIdCounter : Int
  basePath : String
  counted : 0 ≤ playlistIdCounter
  issued : ∀ id ∈ playlist.keys, 0 ≤ id ∧ id < playlistIdCounter

namespace Playlist

/-- The constructor. -/
def new : Playlist where
  playlistName := "unnamed"
  playlist := KeyedSequence.empty PlaylistItem.playlistItemId
  playlistIdCounter := 0
  basePath := ""
  counted := Int.le_refl 0
  issued := by
    intro id member
    cases member

def itemIds (list : Playlist) : List Int := list.playlist.keys

def setPlaylistName (list : Playlist) (name : String) : Playlist :=
  { list with playlistName := name }

/-- The counter after an id was given out. -/
def advance (list : Playlist) : Playlist where
  playlistName := list.playlistName
  playlist := list.playlist
  playlistIdCounter := list.playlistIdCounter + 1
  basePath := list.basePath
  counted := by
    have counted := list.counted
    omega
  issued := by
    intro id member
    have issued := list.issued id member
    omega

/-- `construct_playlist_item`: an item for the url, without an id when the tag
parser does not accept its file. -/
def constructPlaylistItem (list : Playlist) (files : FileSystem) (url : String) :
    PlaylistItem × Playlist :=
  match files.readMetadata (list.basePath ++ url) with
  | none => (.unread, list)
  | some metadata =>
      (⟨list.playlistIdCounter, invalidUrlId, url, 1000 * metadata.durationMs, some metadata⟩,
        list.advance)

/-- A constructed item has no id, or an id below the counter. -/
theorem constructPlaylistItem_id (list : Playlist) (files : FileSystem) (url : String)
    (accepted : (list.constructPlaylistItem files url).1.playlistItemId ≠ invalidPlaylistItemId) :
    0 ≤ (list.constructPlaylistItem files url).1.playlistItemId ∧
      (list.constructPlaylistItem files url).1.playlistItemId <
        (list.constructPlaylistItem files url).2.playlistIdCounter := by
  unfold constructPlaylistItem at accepted ⊢
  split
  · rename_i refused
    simp only [refused] at accepted
    exact absurd rfl accepted
  · have counted := list.counted
    simp only [advance]
    omega

/-- The playlist with an item inserted that has an id below the counter. -/
def withItem (list : Playlist) (iter : Nat) (item : PlaylistItem)
    (below : 0 ≤ item.playlistItemId ∧ item.playlistItemId < list.playlistIdCounter) :
    Option Playlist :=
  match accepted : list.playlist.insert iter item with
  | none => none
  | some inserted => some
    { list with
      playlist := inserted
      issued := by
        intro id member
        rw [KeyedSequence.keys_insert accepted] at member
        rcases List.eq_or_mem_of_mem_insertIdx member with rfl | earlier
        · exact below
        · exact list.issued id earlier }

/-- `add_item(iter, url)`. -/
def addItemAt (list : Playlist) (files : FileSystem) (iter : Nat) (url : String) :
    Option PlaylistItem × Playlist :=
  if accepted : (list.constructPlaylistItem files url).1.playlistItemId ≠
      invalidPlaylistItemId then
    let constructed := list.constructPlaylistItem files url
    match constructed.2.withItem iter constructed.1
        (constructPlaylistItem_id list files url accepted) with
    | none => (none, constructed.2)
    | some inserted => (some constructed.1, inserted)
  else (none, (list.constructPlaylistItem files url).2)

/-- `add_item(url)`. -/
def addItem (list : Playlist) (files : FileSystem) (url : String) : Option PlaylistItem × Playlist :=
  list.addItemAt files list.playlist.endRow url

/-- `add_item(playlist_item_id, url)`. -/
def addItemBefore (list : Playlist) (files : FileSystem) (playlistItemId : Int) (url : String) :
    Option PlaylistItem × Playlist :=
  list.addItemAt files (list.playlist.row playlistItemId) url

def getPlaylistItemWithItemId (list : Playlist) (playlistItemId : Int) : Option PlaylistItem :=
  list.playlist.find playlistItemId

/-- The first item with the url id; which one a hash index finds among several is
not determined. -/
def getPlaylistItemWithUrlId (list : Playlist) (urlId : Int) : Option PlaylistItem :=
  list.playlist.items.find? (fun item => item.urlId = urlId)

def getLastItemId (list : Playlist) : Int :=
  match list.playlist.items.getLast? with
  | some item => item.playlistItemId
  | none => invalidPlaylistItemId

def getNextItemId (list : Playlist) (playlistItemId : Int) : Int :=
  if list.playlist.row playlistItemId ≠ list.playlist.endRow then
    match list.playlist.items[list.playlist.row playlistItemId + 1]? with
    | some item => item.playlistItemId
    | none => invalidPlaylistItemId
  else invalidPlaylistItemId

/-- `move_item(from, to)` on iterators. -/
def moveItemAt (list : Playlist) (source target : Nat) : Playlist :=
  { list with
    playlist := list.playlist.splice source target
    issued := by
      intro id member
      rw [KeyedSequence.keys_splice] at member
      exact list.issued id (KeyedSequence.mem_of_mem_moveRow member) }

/-- `move_item` on ids. -/
def moveItem (list : Playlist) (fromId toId : Int) : Bool × Playlist :=
  if list.playlist.row fromId = list.playlist.endRow then (false, list)
  else (true, list.moveItemAt (list.playlist.row fromId) (list.playlist.row toId))

/-- `erase` of an iterator. -/
def eraseAt (list : Playlist) (iter : Nat) : Playlist :=
  { list with
    playlist := list.playlist.eraseRow iter
    issued := by
      intro id member
      rw [KeyedSequence.keys_eraseRow] at member
      exact list.issued id (List.mem_of_mem_eraseIdx member) }

def removeItem (list : Playlist) (playlistItemId : Int) : Bool × Playlist :=
  if list.playlist.row playlistItemId = list.playlist.endRow then (false, list)
  else (true, list.eraseAt (list.playlist.row playlistItemId))

def updateUrlId (list : Playlist) (playlistItemId urlId : Int) : Playlist :=
  { list with
    playlist := list.playlist.modify (list.playlist.row playlistItemId)
      (fun item => { item with urlId := urlId }) (fun _ => rfl)
    issued := by
      intro id member
      rw [KeyedSequence.keys_modify] at member
      exact list.issued id member }

/-- The body of the loop over the lines of a playlist file. -/
def loadLine (files : FileSystem) (reverseInsert : Bool)
    (loaded : List PlaylistItem × Playlist) (line : List Char) : List PlaylistItem × Playlist :=
  let trimmed := stringTrim (String.ofList line)
  if trimmed.toList.head? = none ∨ trimmed.toList.head? = some '#' then loaded
  else
    let added := if reverseInsert then loaded.2.addItemAt files 0 trimmed
      else loaded.2.addItem files trimmed
    match added.1 with
    | none => (loaded.1, added.2)
    | some item => (loaded.1 ++ [item], added.2)

/-- `load_playlist`, with the items it has added. -/
def loadPlaylist (list : Playlist) (files : FileSystem) (filename : String)
    (reverseInsert : Bool) : List PlaylistItem × Playlist :=
  let filename := stringTrim filename
  if files.pathExists filename then
    let named := list.setPlaylistName (files.stem filename)
    match files.readFile filename with
    | none => ([], named)
    | some text =>
        let based := { named with basePath := files.parentPath filename ++ "/" }
        (getLines text.toList).foldl (loadLine files reverseInsert) ([], based)
  else ([], list)

/-- What `save_playlist` writes to a file it could open. -/
def savePlaylist (list : Playlist) : String :=
  String.ofList (list.playlist.items.flatMap (fun item => item.url.toList ++ ['\n']))

end Playlist

end Mprt
