import Mathlib.Logic.Function.Basic
import Mprt.OutputPluginApi

/-!
# The way of a track through the player

Four threads hand tracks to each other by posted jobs: the playlist management,
the input plugin, the decoder plugins manager and the output plugin. Each runs
its jobs in the order in which they were posted. A request is given a url id and
goes to the input plugin, which opens the file and reports it; the decoder lists
the track and opens it when it is the first one; the output plugin queues it and
reports it back to the decoder when it has been played.

Here a track is its url id with what decides where it is next. What it contains,
how far it has been read or played, and what the device does are given with the
jobs: the media say how opening a file or a track goes, and each job is told
whether its timer is active and how far its work gets. A timer may fire between
any two jobs. There is one input and one output plugin. Jobs that move no track
are left out, as is a track for which there is no decoder plugin: the pauses and
the quits of the four threads, the request to continue after a pause, and the job
by which a seek of a decoder library asks the input plugin to read elsewhere.
-/

namespace Mprt

/-- How `open_file` goes: the file is missing, its size can not be had, it can not
be opened, or it is opened. -/
inductive FileAnswer where
  | missing
  | sizeError
  | unopened
  | opened
deriving DecidableEq

/-- How `init_api` goes: the track is opened, it is reported as played, or nothing
is reported. -/
inductive LibraryAnswer where
  | opened
  | refused
  | silent
deriving DecidableEq

/-- What is known of each track, by its url id. -/
structure Media where
  maxFinishFiles : Nat
  fileExists : Int → Bool
  openFile : Int → FileAnswer
  initApi : Int → LibraryAnswer

namespace Player

/-- What a request finds: no playlist, the playlist without the item, or the item. -/
inductive Found where
  | nothing
  | list
  | item
deriving DecidableEq

/-- Jobs of the playlist management. -/
inductive ToPlaylist where
  | stop
  | startPlay (found : Found)
  | seekDuration (urlId : Int)
  | progress (urlId : Int)
  | inputOpened (ok : Bool) (urlId : Int)
  | decoderOpened (ok : Bool) (urlId : Int)
deriving DecidableEq

/-- Jobs of the input plugin. -/
inductive ToInput where
  | addFile (urlId : Int)
  | setCacheBuffer (urlId : Int)
  | inputClose (urlId : Int)
  | stop
  | cont
deriving DecidableEq

/-- Jobs of the decoder plugins manager. -/
inductive ToDecoder where
  | addInputUrlJob (urlId : Int)
  | playFinished (urlId : Int)
  | seekDuration (urlId : Int)
  | decodeCont
  | stop
  | cont
deriving DecidableEq

/-- Jobs of the output plugin. -/
inductive ToOutput where
  | addSoundDetails (urlId : Int)
  | stop
  | cont
deriving DecidableEq

/-- `file_details`. -/
structure File where
  urlId : Int
  isOpen : Bool
  hasCacheBuf : Bool
deriving DecidableEq

/-- `current_decoder_details`. -/
structure Track where
  urlId : Int
  hasOutputBuf : Bool
deriving DecidableEq

/-- The members of the four components, and as history the tracks that have been
opened by the input plugin or a decoder, decoded from, and added to the queue of
the output plugin. -/
structure State where
  playlistJobs : List ToPlaylist
  urlId : Int
  inputState : PluginState
  inputJobs : List ToInput
  files : List File
  finishedFiles : List File
  decoderState : PluginState
  decoderJobs : List ToDecoder
  decoderDetailList : List Track
  finishedDecoderDetailList : Int → Option Track
  decoders : List Int
  outputState : PluginState
  outputJobs : List ToOutput
  soundDetailsQueue : List Int
  opened : List Int
  decoded : List Int
  added : List Int

/-- What happens during a job of the playlist management: what the next item is
found to be, and whether a report is near the end of its item. -/
structure PlaylistEnv where
  next : Found
  nearEnd : Bool
deriving DecidableEq

/-- During `try_read`: whether its timer is active, and whether the read reaches the
end of the file. -/
structure InputEnv where
  timerActive : Bool
  isFileFinished : Bool
deriving DecidableEq

/-- During `decode_cont`: whether its timer is active, whether an output buffer has
no free chunk, and whether the stream ends. -/
structure DecoderEnv where
  timerActive : Bool
  cacheEmpty : Bool
  endOfStream : Bool
deriving DecidableEq

/-- How a call of `play` ends: the track cannot be initialised, the decoder writes
nothing, samples are written, or the last ones are. The flag says whether a single
remaining track has no samples to be written. -/
inductive PlayEnd where
  | refused
  | starved
  | written (noJob : Bool)
  | finished (noJob : Bool)
deriving DecidableEq

namespace State

def postPlaylist (state : State) (jobs : List ToPlaylist) : State :=
  { state with playlistJobs := state.playlistJobs ++ jobs }

def postInput (state : State) (jobs : List ToInput) : State :=
  { state with inputJobs := state.inputJobs ++ jobs }

def postDecoder (state : State) (jobs : List ToDecoder) : State :=
  { state with decoderJobs := state.decoderJobs ++ jobs }

def postOutput (state : State) (jobs : List ToOutput) : State :=
  { state with outputJobs := state.outputJobs ++ jobs }

/-! ## The playlist management -/

/-- `add_input_item`. -/
def addInputItem (state : State) : State :=
  { state with urlId := state.urlId + 1 }.postInput [.addFile (state.urlId + 1)]

/-- `start_play_internal`. -/
def startPlayInternal (state : State) : Found → State
  | .nothing => state
  | .list => state.postInput [.cont]
  | .item => state.addInputItem.postInput [.cont]

/-- `stop_internal`. -/
def stopInternal (state : State) : State :=
  ((state.postInput [.stop]).postDecoder [.stop]).postOutput [.stop]

def runPlaylist (state : State) (env : PlaylistEnv) : ToPlaylist → State
  | .stop => state.stopInternal
  | .startPlay found => state.startPlayInternal found
  | .seekDuration urlId => state.postDecoder [.seekDuration urlId]
  | .progress _ => if env.nearEnd ∧ env.next = .item then state.addInputItem else state
  | .inputOpened ok urlId =>
      if ok then state.postDecoder [.addInputUrlJob urlId, .cont]
      else state.startPlayInternal env.next
  | .decoderOpened ok urlId =>
      if ok then state.postOutput [.addSoundDetails urlId, .cont]
      else state.startPlayInternal env.next

/-! ## The input plugin -/

/-- `add_file`. -/
def addFile (state : State) (media : Media) (urlId : Int) : State :=
  if media.fileExists urlId then
    let added := { state with files := state.files ++ [⟨urlId, false, false⟩] }
    if state.inputState = .play then added.postInput [.cont] else added
  else state

/-- `open_file` for the first file; the flag tells whether it is open afterwards. -/
def openFile (state : State) (media : Media) (file : File) (rest : List File) : Bool × State :=
  match media.openFile file.urlId with
  | .missing | .unopened =>
      (false, { state with files := rest }.postPlaylist [.inputOpened false file.urlId])
  | .sizeError => (false, state)
  | .opened =>
      (true, { state with
        files := { file with isOpen := true } :: rest
        opened := state.opened ++ [file.urlId] }.postPlaylist [.inputOpened true file.urlId])

/-- The file read part of `try_read`: at its end the first file is closed. -/
def readFile (state : State) (env : InputEnv) : State :=
  match state.files with
  | [] => state
  | file :: rest =>
    if file.hasCacheBuf ∧ env.isFileFinished then
      { state with files := rest, finishedFiles := state.finishedFiles ++ [file] }
    else state

/-- `try_read`. -/
def tryRead (state : State) (media : Media) (env : InputEnv) : State :=
  match state.files with
  | [] => state
  | file :: rest =>
    if state.inputState ≠ .play ∨ env.timerActive ∨
        media.maxFinishFiles ≤ state.finishedFiles.length then state
    else if file.isOpen then state.readFile env
    else
      let opened := state.openFile media file rest
      if opened.1 then opened.2.readFile env else opened.2

/-- The job of `set_cache_buffer`. -/
def giveCacheBuf (urlId : Int) : List File → List File
  | [] => []
  | file :: rest =>
      if file.urlId = urlId then { file with hasCacheBuf := true } :: rest
      else file :: giveCacheBuf urlId rest

/-- `input_close`. -/
def inputClose (state : State) (urlId : Int) : State :=
  if state.finishedFiles.any (fun file => file.urlId = urlId) then
    { state with finishedFiles := state.finishedFiles.eraseP (fun file => file.urlId = urlId) }
  else { state with files := state.files.eraseP (fun file => file.urlId = urlId) }

def runInput (state : State) (media : Media) (env : InputEnv) : ToInput → State
  | .addFile urlId => state.addFile media urlId
  | .setCacheBuffer urlId => { state with files := giveCacheBuf urlId state.files }
  | .inputClose urlId => state.inputClose urlId
  | .stop => { state with inputState := .stop }
  | .cont => { state with inputState := .play }.tryRead media env

/-! ## The decoder plugins manager -/

/-- `add_input_url_job_internal`. -/
def addInputUrlJobInternal (state : State) (urlId : Int) : State :=
  let listed := { state with
    decoderDetailList := state.decoderDetailList ++ [Track.mk urlId false] }.postInput
      [.setCacheBuffer urlId]
  if state.decoderState = .play ∧ state.decoderDetailList = [] then listed.postDecoder [.cont]
  else listed

/-- `init_decode_internal_single`, which is called for the first track. -/
def initDecodeInternalSingle (state : State) (media : Media) : State :=
  match state.decoderDetailList with
  | [] => state
  | front :: _ =>
    if front.urlId ∈ state.decoders then state
    else
      let cached := { state with decoders := front.urlId :: state.decoders }
      match media.initApi front.urlId with
      | .opened =>
          { cached with opened := state.opened ++ [front.urlId] }.postPlaylist
            [.decoderOpened true front.urlId]
      | .refused => cached.postDecoder [.playFinished front.urlId]
      | .silent => cached

/-- `finish_decode_internal_single`: the first track is finished under the url id
given; the first of an empty list is undefined. -/
def finishDecodeInternalSingle (state : State) (media : Media) (urlId : Int) : Option State :=
  match state.decoderDetailList with
  | [] => none
  | front :: rest =>
    some ({ state with
      finishedDecoderDetailList :=
        Function.update state.finishedDecoderDetailList urlId (some front)
      decoderDetailList := rest }.initDecodeInternalSingle media)

/-- `decode_cont`. A track that is not opened decodes nothing. -/
def decodeCont (state : State) (media : Media) (env : DecoderEnv) : Option State :=
  match state.decoderDetailList with
  | [] => some state
  | front :: _ =>
    if state.decoderState ≠ .play ∨ env.timerActive ∨ front.hasOutputBuf = false ∨
        env.cacheEmpty then some state
    else
      let decoded :=
        if front.urlId ∈ state.decoders then
          let written := { state with decoded := state.decoded ++ [front.urlId] }
          if env.endOfStream then written.finishDecodeInternalSingle media front.urlId
          else some written
        else some state
      decoded.map (fun ended =>
        if ended.decoderDetailList = [] then ended else ended.postDecoder [.decodeCont])

/-- `cont_internal`. -/
def contInternal (state : State) (media : Media) (env : DecoderEnv) : Option State :=
  if state.decoderDetailList = [] then some state
  else (state.initDecodeInternalSingle media).decodeCont media env

/-- The first part of `seek_duration`. -/
def bringToFront (state : State) (urlId : Int) : State :=
  match state.finishedDecoderDetailList urlId with
  | some finished =>
    if state.decoderDetailList.head?.map (·.urlId) = some urlId then state
    else { state with decoderDetailList := finished :: state.decoderDetailList }
  | none =>
    match state.decoderDetailList.find? (fun track => track.urlId = urlId) with
    | none => state
    | some track =>
      { state with decoderDetailList := track :: state.decoderDetailList.erase track }

/-- The second half of `play_finished_callback`. -/
def releaseFinished (state : State) (urlId : Int) (finished : Track) : State :=
  if finished.urlId = urlId then
    { state with
      decoders := state.decoders.erase urlId
      finishedDecoderDetailList :=
        Function.update state.finishedDecoderDetailList urlId none }.postInput [.inputClose urlId]
  else state

/-- The job of `play_finished_callback`. -/
def playFinished (state : State) (media : Media) (urlId : Int) : Option State :=
  match state.finishedDecoderDetailList urlId with
  | some finished => some (state.releaseFinished urlId finished)
  | none =>
    (state.finishDecodeInternalSingle media urlId).map (fun ended =>
      match ended.finishedDecoderDetailList urlId with
      | some finished => ended.releaseFinished urlId finished
      | none => ended)

def runDecoder (state : State) (media : Media) (env : DecoderEnv) : ToDecoder → Option State
  | .addInputUrlJob urlId => some (state.addInputUrlJobInternal urlId)
  | .playFinished urlId => state.playFinished media urlId
  | .seekDuration urlId => (state.bringToFront urlId).decodeCont media env
  | .decodeCont => state.decodeCont media env
  | .stop => some { state with decoderState := .stop }
  | .cont => { state with decoderState := .play }.contInternal media env

/-! ## The output plugin -/

/-- `set_cache_buffer` of the manager, which the output thread calls itself. -/
def giveOutputBuf (urlId : Int) : List Track → List Track
  | [] => []
  | track :: rest =>
      if track.urlId = urlId then { track with hasOutputBuf := true } :: rest
      else track :: giveOutputBuf urlId rest

/-- `add_sound_details_internal`. -/
def addSoundDetailsInternal (state : State) (urlId : Int) : State :=
  { state with
    soundDetailsQueue := state.soundDetailsQueue ++ [urlId]
    decoderDetailList := giveOutputBuf urlId state.decoderDetailList
    added := state.added ++ [urlId] }

/-- `stop_internal`: every track of the queue is reported and removed. -/
def stopOutput (state : State) : State :=
  { state with outputState := .stop, soundDetailsQueue := [] }.postDecoder
    (state.soundDetailsQueue.map .playFinished)

def runOutput (state : State) : ToOutput → State
  | .addSoundDetails urlId => state.addSoundDetailsInternal urlId
  | .stop => state.stopOutput
  | .cont => { state with outputState := .play }

/-- The end of `play`: without a job the plugin stops. -/
def endPlay (state : State) (noJob : Bool) : State :=
  if state.soundDetailsQueue = [] ∨ (state.soundDetailsQueue.length = 1 ∧ noJob = true) then
    { state with outputState := .stop }
  else state

/-- `play`. -/
def play (state : State) (ending : PlayEnd) : State :=
  match state.soundDetailsQueue with
  | [] => state
  | urlId :: rest =>
    if state.outputState ≠ .play then state
    else
      match ending with
      | .refused => { state with soundDetailsQueue := rest }.postDecoder [.playFinished urlId]
      | .starved => { state with soundDetailsQueue := rest }
      | .written noJob => (state.postPlaylist [.progress urlId]).endPlay noJob
      | .finished noJob =>
          (({ state with soundDetailsQueue := rest }.postPlaylist
            [.progress urlId]).postDecoder [.playFinished urlId]).endPlay noJob

end State

/-- A thread runs its next job, or the job of one of its timers. -/
inductive Action where
  | playlist (env : PlaylistEnv)
  | input (env : InputEnv)
  | tryRead (env : InputEnv)
  | decoder (env : DecoderEnv)
  | decodeCont (env : DecoderEnv)
  | contInternal (env : DecoderEnv)
  | output
  | play (ending : PlayEnd)
deriving DecidableEq

def step (media : Media) (state : State) : Action → Option State
  | .playlist env =>
      match state.playlistJobs with
      | [] => none
      | job :: rest => some ({ state with playlistJobs := rest }.runPlaylist env job)
  | .input env =>
      match state.inputJobs with
      | [] => none
      | job :: rest => some ({ state with inputJobs := rest }.runInput media env job)
  | .tryRead env => some (state.tryRead media env)
  | .decoder env =>
      match state.decoderJobs with
      | [] => none
      | job :: rest => { state with decoderJobs := rest }.runDecoder media env job
  | .decodeCont env => state.decodeCont media env
  | .contInternal env => state.contInternal media env
  | .output =>
      match state.outputJobs with
      | [] => none
      | job :: rest => some ({ state with outputJobs := rest }.runOutput job)
  | .play ending => some (state.play ending)

/-- What a user asks the player for. -/
inductive Request where
  | stop
  | startPlay (found : Found)
  | seekDuration (urlId : Int)
deriving DecidableEq

/-- `stop`, `start_play` and `seek_duration` of the playlist management. -/
def State.request (state : State) : Request → State
  | .stop => state.postPlaylist [.stop]
  | .startPlay found => state.postPlaylist [.startPlay found]
  | .seekDuration urlId => state.postPlaylist [.seekDuration urlId]

/-- The player with its user. -/
def stepWithUser (media : Media) (state : State) : Request ⊕ Action → Option State
  | .inl request => some (state.request request)
  | .inr action => step media state action

/-- The states of the three threads, which no constructor sets. -/
structure Uninitialised where
  inputState : PluginState
  decoderState : PluginState
  outputState : PluginState

/-- The player before the first request. -/
def start (uninitialised : Uninitialised) : State where
  playlistJobs := []
  urlId := 0
  inputState := uninitialised.inputState
  inputJobs := []
  files := []
  finishedFiles := []
  decoderState := uninitialised.decoderState
  decoderJobs := []
  decoderDetailList := []
  finishedDecoderDetailList := fun _ => none
  decoders := []
  outputState := uninitialised.outputState
  outputJobs := []
  soundDetailsQueue := []
  opened := []
  decoded := []
  added := []

end Player

end Mprt
