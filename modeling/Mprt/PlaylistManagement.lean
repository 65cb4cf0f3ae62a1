import Mathlib.Data.List.AList
import Mprt.OutputPluginApi
import Mprt.Playlist

/-!
# The playlist management plugin

`playlist_management_plugin_imp` keeps the playlists and decides what is played.
It runs one job at a time. A job may call the other plugins and the callbacks
that were registered with it; these calls are recorded in their order.

Playing an item hands its file to the input plugin, which answers with a new url
id. The plugin learns which item is being played from the progress reports of
the output plugins only. Near the end of an item it starts to play the next one;
a report that something could not be opened also starts the next one.
-/

namespace Mprt

/-- A request that goes to every plugin of a kind. -/
inductive Command where
  | stop
  | pause
  | cont
  | quit
deriving DecidableEq

/-- Calls to the other plugins, to registered callbacks, jobs that are posted, and
files that are written. -/
inductive Event where
  | input (command : Command)
  | decoders (command : Command)
  | outputs (command : Command)
  | addInputItem (filename : String) (urlId : Int)
  | addInputUrlJob (urlId : Int)
  | addSoundDetails (urlId : Int)
  | seekDuration (urlId durationMs : Int)
  | addPlaylistCb (playlistName : String) (playlistId : Int) (items : Option (List PlaylistItem))
  | addPlaylistItemCb (playlistId fromId : Int) (items : List PlaylistItem)
  | removePlaylistItemCb (playlistId playlistItemId : Int)
  | movePlaylistItemCb (playlistId fromId toId : Int)
  | startPlaylistItemCb (playlistId playlistItemId duration : Int)
  | progressPlaylistItemCb (playlistId playlistItemId positionMs : Int)
  | renamePlaylistItemCb (playlistId : Int) (playlistName : String)
  | removePlaylistCb (playlistId : Int)
  | seekFinishedCb
  | postAddPlaylistItems (playlistId fromId : Int) (urls : Option (List String))
  | writeFile (filename text : String)
deriving DecidableEq

/-- `playlist_management_plugin_imp`, with the counter of url ids of its input
plugin. -/
structure PlaylistManagement where
  currentState : PluginState
  playlistList : AList (fun _ : Int => Playlist)
  playlistIdCounter : Int
  currentPlayingListId : Int
  currentPlayingItemId : Int
  addedNextSong : Bool
  minWaitNextSong : Int
  inputUrlId : Int
  events : List Event

namespace PlaylistManagement

/-- The members that the constructor leaves as they are: the state and the ids of what
is played. -/
structure Uninitialised where
  currentState : PluginState
  currentPlayingListId : Int
  currentPlayingItemId : Int

/-- The constructor. -/
def new (uninitialised : Uninitialised) (minWaitNextSong : Int) : PlaylistManagement where
  currentState := uninitialised.currentState
  playlistList := ∅
  playlistIdCounter := invalidPlaylistId
  currentPlayingListId := uninitialised.currentPlayingListId
  currentPlayingItemId := uninitialised.currentPlayingItemId
  addedNextSong := false
  minWaitNextSong := minWaitNextSong
  inputUrlId := 0
  events := []

def emit (state : PlaylistManagement) (events : List Event) : PlaylistManagement :=
  { state with events := state.events ++ events }

def setPlaylist (state : PlaylistManagement) (playlistId : Int) (list : Playlist) :
    PlaylistManagement :=
  { state with playlistList := state.playlistList.insert playlistId list }

/-- `add_input_item` of the input plugin. -/
def addInputItem (state : PlaylistManagement) (filename : String) : PlaylistManagement :=
  let numbered := { state with inputUrlId := state.inputUrlId + 1 }
  numbered.emit [.addInputItem filename (state.inputUrlId + 1)]

/-- `cont_internal`. -/
def contInternal (state : PlaylistManagement) : PlaylistManagement := state.emit [.input .cont]

/-- An item of the current playlist is handed to the input plugin. -/
def playItem (state : PlaylistManagement) (list : Playlist) (playlistItemId : Int)
    (item : PlaylistItem) : PlaylistManagement :=
  let added := state.addInputItem (list.basePath ++ item.url)
  let updated := added.setPlaylist state.currentPlayingListId
    (list.updateUrlId playlistItemId added.inputUrlId)
  let duration := (item.metadata.map Metadata.durationMs).getD 0
  updated.emit [.startPlaylistItemCb state.currentPlayingListId playlistItemId duration]

def contPlayInternal (state : PlaylistManagement) (playlistItemId : Int) : PlaylistManagement :=
  match state.playlistList.lookup state.currentPlayingListId with
  | none => state
  | some list =>
      match list.getPlaylistItemWithItemId playlistItemId with
      | none => state
      | some item => state.playItem list playlistItemId item

/-- The state playing, with a playlist as the current one. -/
def choosePlaylist (state : PlaylistManagement) (playlistId : Int) : PlaylistManagement :=
  { state with currentState := .play, currentPlayingListId := playlistId }

def startPlayInternal (state : PlaylistManagement) (playlistId playlistItemId : Int) :
    PlaylistManagement :=
  match state.playlistList.lookup playlistId with
  | none => { state with currentState := .play }
  | some _ =>
      ((state.choosePlaylist playlistId).contPlayInternal playlistItemId).contInternal

def getNextPlaylistItemId (state : PlaylistManagement) : Int :=
  match state.playlistList.lookup state.currentPlayingListId with
  | none => invalidPlaylistItemId
  | some list => list.getNextItemId state.currentPlayingItemId

/-- `seek_duration_internal`, which has no result when the item is missing: it is
used without a check. -/
def seekDurationInternal (state : PlaylistManagement) (playlistId playlistItemId durationMs : Int) :
    Option PlaylistManagement :=
  match state.playlistList.lookup playlistId with
  | none => some state
  | some list =>
      (list.getPlaylistItemWithItemId playlistItemId).map (fun item =>
        state.emit [.seekDuration item.urlId durationMs])

/-- The item that a progress report is about becomes the current one. -/
def reportItem (state : PlaylistManagement) (playlistItemId : Int) : PlaylistManagement :=
  if playlistItemId ≠ state.currentPlayingItemId then
    { state with addedNextSong := false, currentPlayingItemId := playlistItemId }
  else state

/-- The next item of the current playlist is played too. -/
def addNextSong (state : PlaylistManagement) : PlaylistManagement :=
  let continued := state.contPlayInternal state.getNextPlaylistItemId
  { continued with addedNextSong := true }

/-- The job of `progress_callback`. -/
def progress (state : PlaylistManagement) (urlId currentPositionMs : Int) : PlaylistManagement :=
  match state.playlistList.lookup state.currentPlayingListId with
  | none => state
  | some list =>
      match list.getPlaylistItemWithUrlId urlId with
      | none => state
      | some item =>
          let called := state.emit
            [.progressPlaylistItemCb state.currentPlayingListId item.playlistItemId
              currentPositionMs]
          let reported := called.reportItem item.playlistItemId
          if item.duration - 1000 * currentPositionMs ≤ 1000 * reported.minWaitNextSong ∧
              reported.addedNextSong = false then reported.addNextSong
          else reported

/-- `add_playlist_directory_builder`. -/
def addPlaylistDirectoryBuilder (files : FileSystem) (dirname : String) : List String :=
  (files.recursiveDirectory dirname).filterMap (fun entry =>
    if entry.isRegularFile then entry.canonical else none)

/-- The urls with directories replaced by their files. -/
def localUrls (files : FileSystem) (urls : List String) : List String :=
  urls.flatMap (fun url =>
    if files.isDirectory url then addPlaylistDirectoryBuilder files (files.canonical url)
    else [url])

/-- The body of the loop over the urls to add. -/
def addUrl (files : FileSystem) (fromId : Int) (added : List PlaylistItem × Playlist)
    (url : String) : List PlaylistItem × Playlist :=
  let tried := if fromId = invalidPlaylistItemId then added.2.addItem files url
    else added.2.addItemBefore files fromId url
  match tried.1 with
  | none => (added.1, tried.2)
  | some item => (added.1 ++ [item], tried.2)

def addPlaylistItemsInternal (state : PlaylistManagement) (files : FileSystem)
    (playlistId fromId : Int) (urls : Option (List String)) : PlaylistManagement :=
  match urls, state.playlistList.lookup playlistId with
  | some urls, some list =>
      let added := (localUrls files urls).foldl (addUrl files fromId) ([], list)
      let updated := state.setPlaylist playlistId added.2
      if 0 < added.1.length then
        let calledFrom := if fromId = invalidPlaylistItemId then added.2.getLastItemId else fromId
        updated.emit [.addPlaylistItemCb playlistId calledFrom added.1]
      else updated
  | _, _ => state

def addPlaylistDirectoryInternal (state : PlaylistManagement) (files : FileSystem)
    (playlistId fromId : Int) (dirname : String) : PlaylistManagement :=
  state.addPlaylistItemsInternal files playlistId fromId
    (some (addPlaylistDirectoryBuilder files dirname))

/-- The job of `add_playlist`. The job it posts for the urls comes after the
playlist is in the map. -/
def addPlaylist (state : PlaylistManagement) (files : FileSystem) (filename : String)
    (urls : Option (List String)) : PlaylistManagement :=
  let playlistId := state.playlistIdCounter + 1
  let loaded := Playlist.new.loadPlaylist files filename false
  let list := if filename ≠ "" then loaded.2
    else Playlist.new.setPlaylistName ("unnamed_" ++ toString playlistId)
  let items := if filename ≠ "" then some loaded.1 else none
  let counted := { state with playlistIdCounter := playlistId }
  let called := counted.emit [.addPlaylistCb list.playlistName playlistId items,
    .postAddPlaylistItems playlistId invalidPlaylistItemId urls]
  called.setPlaylist playlistId list

/-- The job of `remove_playlist_item`. -/
def removePlaylistItem (state : PlaylistManagement) (playlistId playlistItemId : Int) :
    PlaylistManagement :=
  match state.playlistList.lookup playlistId with
  | none => state
  | some list =>
      let removed := list.removeItem playlistItemId
      if removed.1 then
        (state.setPlaylist playlistId removed.2).emit
          [.removePlaylistItemCb playlistId playlistItemId]
      else state

/-- The job of `move_playlist_item`. -/
def movePlaylistItem (state : PlaylistManagement) (playlistId fromId toId : Int) :
    PlaylistManagement :=
  match state.playlistList.lookup playlistId with
  | none => state
  | some list =>
      let moved := list.moveItem fromId toId
      if moved.1 then
        (state.setPlaylist playlistId moved.2).emit [.movePlaylistItemCb playlistId fromId toId]
      else state

/-- The job of `save_playlist`; nothing is written when the file does not open. -/
def savePlaylist (state : PlaylistManagement) (playlistId : Int) (filename : String)
    (isOpen : Bool) : PlaylistManagement :=
  match state.playlistList.lookup playlistId with
  | none => state
  | some list => if isOpen then state.emit [.writeFile filename list.savePlaylist] else state

/-- The job of `rename_playlist`. -/
def renamePlaylist (state : PlaylistManagement) (playlistId : Int) (playlistName : String) :
    PlaylistManagement :=
  match state.playlistList.lookup playlistId with
  | none => state
  | some list =>
      (state.setPlaylist playlistId (list.setPlaylistName playlistName)).emit
        [.renamePlaylistItemCb playlistId playlistName]

/-- The job of `remove_playlist`. -/
def removePlaylist (state : PlaylistManagement) (playlistId : Int) : PlaylistManagement :=
  let erased := { state with playlistList := state.playlistList.erase playlistId }
  erased.emit [.removePlaylistCb playlistId]

/-- What the callbacks do with a report that something could not be opened. -/
def startNext (state : PlaylistManagement) : PlaylistManagement :=
  state.startPlayInternal state.getNextPlaylistItemId state.currentPlayingListId

/-- The job of `input_opened_cb`. -/
def inputOpenedCb (state : PlaylistManagement) (ok : Bool) (urlId : Int) : PlaylistManagement :=
  if ok then state.emit [.addInputUrlJob urlId, .decoders .cont]
  else state.startNext

/-- The job of `decoder_opened_cb`. -/
def decoderOpenedCb (state : PlaylistManagement) (ok : Bool) (urlId : Int) : PlaylistManagement :=
  if ok then state.emit [.addSoundDetails urlId, .outputs .cont]
  else state.startNext

/-- The job of `sound_opened_cb`. -/
def soundOpenedCb (state : PlaylistManagement) (soundOpened : Bool) : PlaylistManagement :=
  if soundOpened then state else state.startNext

/-- The jobs of the plugin, with what the file system answers. -/
inductive Job where
  | startPlay (playlistId playlistItemId : Int)
  | stop
  | pause
  | cont
  | quit
  | seekDuration (playlistId playlistItemId durationMs : Int)
  | progress (urlId currentPositionMs : Int)
  | addPlaylist (files : FileSystem) (filename : String) (urls : Option (List String))
  | addPlaylistItems (files : FileSystem) (playlistId fromId : Int) (urls : Option (List String))
  | addPlaylistDirectory (files : FileSystem) (playlistId fromId : Int) (dirname : String)
  | removePlaylistItem (playlistId playlistItemId : Int)
  | movePlaylistItem (playlistId fromId toId : Int)
  | savePlaylist (playlistId : Int) (filename : String) (isOpen : Bool)
  | renamePlaylist (playlistId : Int) (playlistName : String)
  | removePlaylist (playlistId : Int)
  | inputOpened (ok : Bool) (urlId : Int)
  | decoderOpened (ok : Bool) (urlId : Int)
  | soundOpened (soundOpened : Bool)
  | seekFinished

def step (state : PlaylistManagement) : Job → Option PlaylistManagement
  | .startPlay playlistId playlistItemId => some (state.startPlayInternal playlistId playlistItemId)
  | .stop =>
      let stopped := { state with currentState := .stop }
      some (stopped.emit [.input .stop, .decoders .stop, .outputs .stop])
  | .pause =>
      let paused := { state with currentState := .pause }
      some (paused.emit [.input .pause, .decoders .pause, .outputs .pause])
  | .cont =>
      let playing := { state with currentState := .play }
      some playing.contInternal
  | .quit =>
      let quitted := { state with currentState := .quit }
      some (quitted.emit [.input .quit, .decoders .quit, .outputs .quit])
  | .seekDuration playlistId playlistItemId durationMs =>
      if playlistId ≠ invalidPlaylistId ∧ playlistItemId ≠ invalidPlaylistItemId then
        state.seekDurationInternal playlistId playlistItemId durationMs
      else some state
  | .progress urlId currentPositionMs => some (state.progress urlId currentPositionMs)
  | .addPlaylist files filename urls => some (state.addPlaylist files filename urls)
  | .addPlaylistItems files playlistId fromId urls =>
      some (state.addPlaylistItemsInternal files playlistId fromId urls)
  | .addPlaylistDirectory files playlistId fromId dirname =>
      some (state.addPlaylistDirectoryInternal files playlistId fromId dirname)
  | .removePlaylistItem playlistId playlistItemId =>
      some (state.removePlaylistItem playlistId playlistItemId)
  | .movePlaylistItem playlistId fromId toId => some (state.movePlaylistItem playlistId fromId toId)
  | .savePlaylist playlistId filename isOpen => some (state.savePlaylist playlistId filename isOpen)
  | .renamePlaylist playlistId playlistName => some (state.renamePlaylist playlistId playlistName)
  | .removePlaylist playlistId => some (state.removePlaylist playlistId)
  | .inputOpened ok urlId => some (state.inputOpenedCb ok urlId)
  | .decoderOpened ok urlId => some (state.decoderOpenedCb ok urlId)
  | .soundOpened soundOpened => some (state.soundOpenedCb soundOpened)
  | .seekFinished => some (state.emit [.seekFinishedCb])

/-- A condition on the playlist that a job addresses, if there is one. -/
def OnPlaylist (state : PlaylistManagement) (playlistId : Int) (condition : Playlist → Prop) :
    Prop :=
  match state.playlistList.lookup playlistId with
  | none => True
  | some list => condition list

theorem onPlaylist_none {state : PlaylistManagement} {playlistId : Int}
    (missing : state.playlistList.lookup playlistId = none) (condition : Playlist → Prop) :
    OnPlaylist state playlistId condition := by
  rw [OnPlaylist, missing]
  trivial

theorem onPlaylist_some {state : PlaylistManagement} {playlistId : Int} {list : Playlist}
    (found : state.playlistList.lookup playlistId = some list) (condition : Playlist → Prop) :
    OnPlaylist state playlistId condition ↔ condition list := by
  rw [OnPlaylist, found]

instance (state : PlaylistManagement) (playlistId : Int) (condition : Playlist → Prop)
    [∀ list, Decidable (condition list)] : Decidable (OnPlaylist state playlistId condition) := by
  unfold OnPlaylist
  cases state.playlistList.lookup playlistId with
  | none => exact inferInstanceAs (Decidable True)
  | some list => exact inferInstanceAs (Decidable (condition list))

end PlaylistManagement

end Mprt
