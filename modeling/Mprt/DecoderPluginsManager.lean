import Mathlib.Data.List.AList
import Mprt.DecoderRead
import Mprt.FrameWrite

/-!
# The decoder plugins manager

The manager keeps a list of the tracks to be decoded, of which it decodes the
front one, and a map of the tracks that are decoded and still being played. Both
hold pointers to the details of a track, so the details stand in a memory of
their own. Its jobs run one after another: a track is added, the front track is
decoded, a track is moved to the front and seeked, and an output plugin reports
that a track has been played.

What the decoding libraries do during a job is given with the job: the frames
they write, whether the stream has ended, and how the opening of a track goes.
Reading the front of an empty list is undefined, and such a job has no result.
Jobs that are posted to this or other components are recorded as events.
-/

namespace Mprt

/-- The members of `current_decoder_details` that the manager's jobs use. -/
structure CurrentDecoderDetails where
  urlExt : String
  currentSamplesWritten : Int
  outputBufList : List Nat
  currentCacheBuf : Option Nat
  currentDecoderPlugin : Nat
  soundDetails : SoundDetails
deriving DecidableEq

namespace CurrentDecoderDetails

def urlId (details : CurrentDecoderDetails) : Int := details.soundDetails.urlId

/-- The track as the input plugin hands it over. -/
def opened (urlExt : String) (urlId : Int) : CurrentDecoderDetails :=
  ⟨urlExt, -1, [], none, 0, { SoundDetails.default with urlId := urlId }⟩

end CurrentDecoderDetails

/-- A decoder plugin: the match of its extensions, whether it counts the samples
of a frame once for each output buffer, as the FLAC plugin does, whether it passes
on only seeks to times inside the file, as the FFmpeg plugin does, the pool of its
decoders and the pool of the input buffers. -/
structure DecoderPlugin where
  pluginName : String
  matchExtension : String → Bool
  countsPerBuffer : Bool
  seeksInside : Bool
  decoders : CacheManage Nat
  cacheBufMgr : CacheManage Nat
  maxMemorySizePerFile : Int
  maxChunkReadSize : Int

/-- What the manager asks an output plugin to do. -/
inductive OutputRequest where
  | updateTotalSamples (urlId totalSamples : Int)
  | pausePlay
  | clearPlayData (urlId : Int)
  | fillDrain
  | setSeekDurationMs (urlId durationMs : Int)
  | resumeClearPlay
deriving DecidableEq

/-- The callbacks made and the jobs posted. -/
inductive ManagerEvent where
  | setInputCacheBuf (urlId : Int) (cacheBuf : Option Nat)
  | decoderOpened (soundDets : SoundDetails)
  | decoderFinish (pluginName : String) (urlId : Int)
  | decoderSeekFinished
  | output (outputPlugin : Nat) (request : OutputRequest)
  | contPosted
  | contInternalPosted
  | decodeContPosted
  | playFinishedPosted (decoderPlugin : Nat) (urlId : Int)
deriving DecidableEq

/-- What a library finds out about a track. -/
structure OpenedInfo where
  totalSamples : Int
  channels : Int
  sampleRate : Int
  isFloat : Bool
  bps : Int
deriving DecidableEq

/-- The opening of a track succeeds, fails with a report that the track is
finished, or ends without a word. -/
inductive OpenResult where
  | opened (info : OpenedInfo)
  | refused
  | silent
deriving DecidableEq

/-- During one decoding job: whether the timer is active, the samples and bytes
of each frame, whether the stream ends, and the opening of the next track. -/
structure DecodeEnv where
  timerActive : Bool
  frames : List (Int × List UInt8)
  endOfStream : Bool
  next : OpenResult
deriving DecidableEq

/-- The manager with the memories of details and buffers. A new buffer has
whatever stood in its uninitialised members before. -/
structure DecoderPluginsManager where
  currentState : PluginState
  decoderDetailList : List Nat
  finishedDecoderDetailList : AList (fun _ : Int => Nat)
  decoderPluginList : List Nat
  plugins : Nat → DecoderPlugin
  outputPluginList : List Nat
  details : Nat → CurrentDecoderDetails
  nextDetails : Nat
  buffers : Nat → CacheBuffer
  nextBuffer : Nat
  uninitialised : Nat → Int × Int
  nextDecoder : Nat
  events : List ManagerEvent

namespace CurrentDecoderDetails

/-- What the opening of a track writes into its details. -/
def openWith (details : CurrentDecoderDetails) (cacheBuf : Option Nat) :
    OpenResult → CurrentDecoderDetails
  | .opened info =>
      { details with
        currentCacheBuf := cacheBuf
        currentSamplesWritten := 0
        soundDetails := { details.soundDetails with
          ok := true
          totalSamples := info.totalSamples
          currentSamplesWrittenToSoundBuffer := 0
          channels := info.channels
          sampleRate := info.sampleRate
          isFloat := info.isFloat
          bps := info.bps } }
  | .refused =>
      { details with
        currentCacheBuf := cacheBuf
        soundDetails := { details.soundDetails with ok := false } }
  | .silent => { details with currentCacheBuf := cacheBuf }

@[simp] theorem openWith_urlId (details : CurrentDecoderDetails) (cacheBuf : Option Nat)
    (result : OpenResult) : (details.openWith cacheBuf result).urlId = details.urlId := by
  cases result <;> rfl

end CurrentDecoderDetails

namespace DecoderPluginsManager

def emit (state : DecoderPluginsManager) (events : List ManagerEvent) : DecoderPluginsManager :=
  { state with events := state.events ++ events }

def setDetails (state : DecoderPluginsManager) (address : Nat) (details : CurrentDecoderDetails) :
    DecoderPluginsManager :=
  { state with details := fun other => if other = address then details else state.details other }

def setPlugin (state : DecoderPluginsManager) (index : Nat) (plugin : DecoderPlugin) :
    DecoderPluginsManager :=
  { state with plugins := fun other => if other = index then plugin else state.plugins other }

def modifyBuffer (state : DecoderPluginsManager) (change : CacheBuffer → CacheBuffer)
    (address : Nat) : DecoderPluginsManager :=
  { state with
    buffers := fun other =>
      if other = address then change (state.buffers other) else state.buffers other }

/-- The same change of several buffers, one after another. -/
def modifyBuffers (state : DecoderPluginsManager) (change : CacheBuffer → CacheBuffer)
    (addresses : List Nat) : DecoderPluginsManager :=
  { state with
    buffers := addresses.foldl (fun buffers address other =>
      if other = address then change (buffers other) else buffers other) state.buffers }

def isNoJob (state : DecoderPluginsManager) : Bool := state.decoderDetailList.isEmpty

/-- `get_cache_put_buf` of a decoder plugin. -/
def getCachePutBuf (state : DecoderPluginsManager) (index : Nat) (urlId : Int) :
    Option Nat × DecoderPluginsManager :=
  let plugin := state.plugins index
  let got := plugin.cacheBufMgr.getFromCacheOr (some state.nextBuffer) urlId
  let pooled := state.setPlugin index { plugin with cacheBufMgr := got.2.2 }
  (got.1,
    if got.2.1 then
      let garbage := state.uninitialised state.nextBuffer
      let fresh := CacheBuffer.make plugin.maxMemorySizePerFile.toNat plugin.maxChunkReadSize.toNat
        garbage.1 garbage.2
      { pooled.modifyBuffer (fun _ => fresh) state.nextBuffer with
        nextBuffer := state.nextBuffer + 1 }
    else pooled)

/-- `give_cache_buf_back` of a decoder plugin. -/
def giveCacheBufBack (state : DecoderPluginsManager) (index : Nat) (urlId : Int) :
    DecoderPluginsManager :=
  let plugin := state.plugins index
  let put := plugin.cacheBufMgr.putCacheBack urlId
  let pooled := state.setPlugin index { plugin with cacheBufMgr := put.2 }
  match put.1.getD none with
  | none => pooled
  | some address => pooled.modifyBuffer CacheBuffer.clearData address

/-- `decoders.put_cache_back`. -/
def putDecoderBack (state : DecoderPluginsManager) (index : Nat) (urlId : Int) :
    DecoderPluginsManager :=
  let plugin := state.plugins index
  state.setPlugin index { plugin with decoders := (plugin.decoders.putCacheBack urlId).2 }

/-- `_decoders.get_from_cache` with the creation of a new decoder. -/
def getDecoder (state : DecoderPluginsManager) (index : Nat) (urlId : Int) :
    DecoderPluginsManager :=
  let plugin := state.plugins index
  let decoder := plugin.decoders.getFromCacheOr (some state.nextDecoder) urlId
  { state.setPlugin index { plugin with decoders := decoder.2.2 } with
    nextDecoder := state.nextDecoder + 1 }

/-- `init_api` of the decoder plugin of the front track. -/
def initApi (state : DecoderPluginsManager) (front : Nat) (result : OpenResult) :
    DecoderPluginsManager :=
  let index := (state.details front).currentDecoderPlugin
  let urlId := (state.details front).urlId
  let got := (state.getDecoder index urlId).getCachePutBuf index urlId
  let details := (state.details front).openWith got.1 result
  let reports :=
    match result with
    | .opened _ => [ManagerEvent.decoderOpened details.soundDetails]
    | .refused => [ManagerEvent.playFinishedPosted index urlId]
    | .silent => []
  (got.2.setDetails front details).emit reports

/-- `init_decode_internal_single`, which is called for the front track only. -/
def initDecodeInternalSingle (state : DecoderPluginsManager) (result : OpenResult) :
    DecoderPluginsManager :=
  match state.decoderDetailList with
  | [] => state
  | front :: _ =>
    let details := state.details front
    if (state.plugins details.currentDecoderPlugin).decoders.isInCache details.urlId then state
    else state.initApi front result

/-- The part of `finish_decode_internal_single` that corrects the total number of
samples, and tells the output plugins. -/
def correctTotalSamples (state : DecoderPluginsManager) (front : Nat) : DecoderPluginsManager :=
  let details := state.details front
  if details.currentSamplesWritten ≠ details.soundDetails.totalSamples then
    let soundDets := { details.soundDetails with totalSamples := details.currentSamplesWritten }
    (state.setDetails front { details with soundDetails := soundDets }).emit
      (state.outputPluginList.map (fun outputPlugin =>
        .output outputPlugin (.updateTotalSamples details.urlId details.currentSamplesWritten)))
  else state

/-- The front track goes from the list to the map, with its output buffers synced. -/
def moveToFinished (state : DecoderPluginsManager) (urlId : Int) (front : Nat) (rest : List Nat) :
    DecoderPluginsManager :=
  { state.modifyBuffers CacheBuffer.syncCache (state.details front).outputBufList with
    finishedDecoderDetailList := state.finishedDecoderDetailList.insert urlId front
    decoderDetailList := rest }

/-- `finish_decode_internal_single`: the front track is finished under the url id
given. -/
def finishDecodeInternalSingle (state : DecoderPluginsManager) (urlId : Int)
    (result : OpenResult) : Option DecoderPluginsManager :=
  match state.decoderDetailList with
  | [] => none
  | front :: rest =>
    some (((state.correctTotalSamples front).moveToFinished urlId front
      rest).initDecodeInternalSingle result)

/-- The front chunk with a frame behind its bytes, enlarged for it where its room
does not do. -/
def fillFrame (bytes : List UInt8) (chunk : Chunk) : Chunk :=
  (FrameWrite.enlarge bytes.length chunk).append bytes

/-- A frame is written to one output buffer; there is no result while the buffer
has no chunk for it. -/
def writeFrame (oneSampleToByte totalSamples currentSamplesWritten : Int) (bytes : List UInt8)
    (buffer : CacheBuffer) : Option CacheBuffer :=
  buffer.getCachePtr.map (fun found =>
    FrameWrite.putFilled oneSampleToByte totalSamples currentSamplesWritten
      (fillFrame bytes found.1) found.2)

/-- The frame is appended whole. -/
theorem fillFrame_items (bytes : List UInt8) (chunk : Chunk) :
    (fillFrame bytes chunk).second.items = chunk.second.items ++ bytes := by
  have fits := FrameWrite.enlarge_reserve bytes.length chunk
  exact (CircularBuffer.append_items fits).trans
    (congrArg (· ++ bytes) (FrameWrite.enlarge_items bytes.length chunk))

/-- A written frame is received, and leaves whole frames. -/
theorem writeFrame_received {frame : Nat} {buffer after : CacheBuffer} {bytes : List UInt8}
    {oneSampleToByte totalSamples currentSamplesWritten : Int}
    (framed : FrameWrite.Framed frame buffer) (whole : frame ∣ bytes.length)
    (wrote : writeFrame oneSampleToByte totalSamples currentSamplesWritten bytes buffer =
      some after) : FrameWrite.Framed frame after ∧ FrameWrite.Received bytes buffer after := by
  obtain ⟨⟨chunk, held⟩, got, rfl⟩ := Option.map_eq_some_iff.mp wrote
  exact FrameWrite.putFilled_received framed got (fillFrame_items bytes chunk) whole
    oneSampleToByte totalSamples currentSamplesWritten

/-- A frame is written to the output buffers of a track in turn. -/
def writeFrames (front : Nat) (countsPerBuffer : Bool) (samples : Int) (bytes : List UInt8) :
    List Nat → DecoderPluginsManager → Option DecoderPluginsManager
  | [], state => some state
  | address :: rest, state =>
    let details := state.details front
    let counted := { details with
      currentSamplesWritten :=
        details.currentSamplesWritten + if countsPerBuffer then samples else 0 }
    let written := writeFrame (details.soundDetails.samplesToBytes 1)
      details.soundDetails.totalSamples counted.currentSamplesWritten bytes (state.buffers address)
    written.bind (fun buffer =>
      writeFrames front countsPerBuffer samples bytes rest
        ((state.setDetails front counted).modifyBuffer (fun _ => buffer) address))

/-- The frames that a library delivers for the front track. -/
def decodeFrames (front : Nat) :
    List (Int × List UInt8) → DecoderPluginsManager → Option DecoderPluginsManager
  | [], state => some state
  | (samples, bytes) :: rest, state =>
    let details := state.details front
    let countsPerBuffer := (state.plugins details.currentDecoderPlugin).countsPerBuffer
    let counted := { details with
      currentSamplesWritten :=
        details.currentSamplesWritten + if countsPerBuffer then 0 else samples }
    (writeFrames front countsPerBuffer samples bytes details.outputBufList
      (state.setDetails front counted)).bind (decodeFrames front rest)

/-- `decode` of the decoder plugin of the front track. -/
def decode (state : DecoderPluginsManager) (front : Nat) (env : DecodeEnv) :
    Option DecoderPluginsManager :=
  let details := state.details front
  match (state.plugins details.currentDecoderPlugin).decoders.getFromCache details.urlId with
  | none => some state
  | some _ =>
    (decodeFrames front env.frames state).bind (fun decoded =>
      if env.endOfStream then decoded.finishDecodeInternalSingle details.urlId env.next
      else some decoded)

/-- `decode_cont`. Where it starts the timer it does nothing else. -/
def decodeCont (state : DecoderPluginsManager) (env : DecodeEnv) : Option DecoderPluginsManager :=
  match state.decoderDetailList with
  | [] => some state
  | front :: _ =>
    let outputBufList := (state.details front).outputBufList
    if state.currentState ≠ .play ∨ env.timerActive = true ∨ outputBufList = [] ∨
        outputBufList.any (fun address => (state.buffers address).cacheSizeGuess == 0) = true then
      some state
    else
      (state.decode front env).map (fun decoded =>
        if decoded.isNoJob then decoded else decoded.emit [.decodeContPosted])

/-- `get_decoder_plugin`. -/
def getDecoderPlugin (state : DecoderPluginsManager) (urlExt : String) : Option Nat :=
  state.decoderPluginList.find? (fun index => (state.plugins index).matchExtension urlExt)

/-- `push_back_current_decoder_details` of newly allocated details. -/
def pushBackDetails (state : DecoderPluginsManager) (details : CurrentDecoderDetails) :
    DecoderPluginsManager :=
  { state.setDetails state.nextDetails details with
    nextDetails := state.nextDetails + 1
    decoderDetailList := state.decoderDetailList ++ [state.nextDetails] }

/-- `add_input_url_job_internal`. With no plugin for the extension a null pointer
is used, which is no result. -/
def addInputUrlJobInternal (state : DecoderPluginsManager) (urlExt : String) (urlId : Int) :
    Option DecoderPluginsManager :=
  (state.getDecoderPlugin urlExt).map (fun index =>
    let details := { CurrentDecoderDetails.opened urlExt urlId with currentDecoderPlugin := index }
    let got := (state.pushBackDetails details).getCachePutBuf index urlId
    let told := got.2.emit [.setInputCacheBuf urlId got.1]
    if state.currentState = .play ∧ state.isNoJob then told.emit [.contPosted] else told)

/-- `cont_internal`. -/
def contInternal (state : DecoderPluginsManager) (result : OpenResult) (env : DecodeEnv) :
    Option DecoderPluginsManager :=
  if state.isNoJob then some (state.emit [.contInternalPosted])
  else (state.initDecodeInternalSingle result).decodeCont env

/-- `set_cache_buffer`, the callback of the output plugins. -/
def setCacheBuffer (state : DecoderPluginsManager) (urlId : Int) (cacheBuf : Nat) :
    DecoderPluginsManager :=
  match state.decoderDetailList.find? (fun address => (state.details address).urlId = urlId) with
  | none => state
  | some address =>
    let details := state.details address
    state.setDetails address { details with outputBufList := details.outputBufList ++ [cacheBuf] }

/-- The first part of `seek_duration`: a finished track is pushed to the front of
the list unless it is there, and another track of the list is moved there. -/
def bringToFront (state : DecoderPluginsManager) (urlId : Int) : DecoderPluginsManager :=
  match state.finishedDecoderDetailList.lookup urlId with
  | some finished =>
    if (state.decoderDetailList.head?.map (fun front => (state.details front).urlId)) = some urlId
    then state
    else { state with decoderDetailList := finished :: state.decoderDetailList }
  | none =>
    match state.decoderDetailList.find? (fun address => (state.details address).urlId = urlId) with
    | none => state
    | some found =>
      { state with decoderDetailList := found :: state.decoderDetailList.erase found }

/-- The seek of the front track, with the frames that the library writes. -/
def seekFront (state : DecoderPluginsManager) (front : Nat) (seekDurationMs : Int)
    (frames : List (Int × List UInt8)) : Option DecoderPluginsManager :=
  (decodeFrames front frames state).map (fun sought =>
    let details := sought.details front
    let moved := sought.setDetails front { details with
      currentSamplesWritten := details.soundDetails.timeDurationToSamples (seekDurationMs * 1000) }
    let cleared := moved.modifyBuffers CacheBuffer.clearCache details.outputBufList
    cleared.emit (cleared.outputPluginList.flatMap (fun outputPlugin =>
      [.output outputPlugin .pausePlay,
        .output outputPlugin (.clearPlayData details.urlId),
        .output outputPlugin .fillDrain,
        .output outputPlugin (.setSeekDurationMs details.urlId seekDurationMs),
        .output outputPlugin .resumeClearPlay])))

/-- `seek_duration`. -/
def seekDuration (state : DecoderPluginsManager) (urlId seekDurationMs : Int)
    (frames : List (Int × List UInt8)) (env : DecodeEnv) : Option DecoderPluginsManager :=
  let brought := state.bringToFront urlId
  let sought :=
    match brought.decoderDetailList with
    | [] => some brought
    | front :: _ => (brought.seekFront front seekDurationMs frames).bind (·.decodeCont env)
  sought.map (·.emit [.decoderSeekFinished])

/-- The second half of `play_finished_callback`, with what was found finished
under the url id. -/
def releaseFinished (state : DecoderPluginsManager) (index : Nat) (urlId : Int) (finished : Nat) :
    DecoderPluginsManager :=
  if (state.details finished).urlId = urlId then
    let told := state.emit [.decoderFinish (state.plugins index).pluginName urlId]
    let given := (told.giveCacheBufBack index urlId).putDecoderBack index urlId
    { given with finishedDecoderDetailList := given.finishedDecoderDetailList.erase urlId }
  else state

/-- The job of `play_finished_callback` for one decoder plugin. -/
def playFinished (state : DecoderPluginsManager) (index : Nat) (urlId : Int)
    (result : OpenResult) : Option DecoderPluginsManager :=
  match state.finishedDecoderDetailList.lookup urlId with
  | some finished => some (state.releaseFinished index urlId finished)
  | none =>
    (state.finishDecodeInternalSingle urlId result).map (fun ended =>
      match ended.finishedDecoderDetailList.lookup urlId with
      | some finished => ended.releaseFinished index urlId finished
      | none => ended)

/-- The jobs of the manager, and the callback that gives a track an output
buffer. -/
inductive Job where
  | addInputUrlJob (urlExt : String) (urlId : Int)
  | setCacheBuffer (urlId : Int) (cacheBuf : Nat)
  | stop
  | pause
  | quit
  | cont (result : OpenResult) (env : DecodeEnv)
  | contInternal (result : OpenResult) (env : DecodeEnv)
  | decodeCont (env : DecodeEnv)
  | seekDuration (urlId seekDurationMs : Int) (frames : List (Int × List UInt8)) (env : DecodeEnv)
  | playFinished (decoderPlugin : Nat) (urlId : Int) (result : OpenResult)
deriving DecidableEq

def step (state : DecoderPluginsManager) : Job → Option DecoderPluginsManager
  | .addInputUrlJob urlExt urlId => state.addInputUrlJobInternal urlExt urlId
  | .setCacheBuffer urlId cacheBuf => some (state.setCacheBuffer urlId cacheBuf)
  | .stop => some { state with currentState := .stop }
  | .pause => some { state with currentState := .pause }
  | .quit => some { state with currentState := .quit }
  | .cont result env => { state with currentState := .play }.contInternal result env
  | .contInternal result env => state.contInternal result env
  | .decodeCont env => state.decodeCont env
  | .seekDuration urlId seekDurationMs frames env =>
      state.seekDuration urlId seekDurationMs frames env
  | .playFinished index urlId result => state.playFinished index urlId result

end DecoderPluginsManager

end Mprt
