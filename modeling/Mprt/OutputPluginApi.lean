import Mprt.CacheBuffer
import Mprt.CacheManage

/-!
# The common part of the output plugins

`output_plugin_api` keeps a queue of tracks to be played, each with the buffer
that the decoder fills, and runs its jobs one after another. The plugins derived
from it supply `init_api`, `play` and `stop_internal`; what these have in common
word for word is here too.

Buffers are shared with the decoder, so they stand in a memory of their own and
a track refers to its buffer by address. The decoder may write to a buffer
between two jobs, and during the wait of `play`. The callbacks that a plugin
makes are recorded, and so are the tracks that leave its queue. Times are
rounded as by `llround` of the exact quotient.
-/

namespace Mprt

inductive PluginState where
  | stop
  | pause
  | play
  | quit
deriving DecidableEq

/-- `llround` of a quotient: halves are rounded away from zero. -/
def llroundDiv (numerator denominator : Int) : Int :=
  if 0 ≤ numerator then (2 * numerator + denominator).tdiv (2 * denominator)
  else -((2 * -numerator + denominator).tdiv (2 * denominator))

/-- `sound_details`; its callbacks are those of the decoder. -/
structure SoundDetails where
  ok : Bool
  totalSamples : Int
  currentSamplesWrittenToSoundBuffer : Int
  channels : Int
  sampleRate : Int
  isFloat : Bool
  bps : Int
  urlId : Int
  currentCacheBuffer : Option Nat
deriving DecidableEq

namespace SoundDetails

/-- The default constructor. -/
def default : SoundDetails := ⟨false, -1, -1, -1, -1, false, -1, -1, none⟩

def samplesToBytes (samples : Int) (soundDets : SoundDetails) : Int :=
  if samples ≤ 0 then 0 else samples * (soundDets.channels * soundDets.bps).tdiv 8

def bytesToSamples (bytes : Int) (soundDets : SoundDetails) : Int :=
  if bytes ≤ 0 then 0 else bytes.tdiv ((soundDets.channels * soundDets.bps).tdiv 8)

/-- Durations are in microseconds. -/
def timeDurationToBytes (duration : Int) (soundDets : SoundDetails) : Int :=
  llroundDiv ((duration * soundDets.sampleRate * soundDets.channels * soundDets.bps).tdiv 8) 1000000

def samplesToTimeDuration (samples : Int) (soundDets : SoundDetails) : Int :=
  llroundDiv (1000000 * samples) soundDets.sampleRate

def timeDurationToSamples (duration : Int) (soundDets : SoundDetails) : Int :=
  llroundDiv (duration * soundDets.sampleRate) 1000000

/-- `_current_samples_written_to_sound_buffer += samples`. -/
def addSamples (samples : Int) (soundDets : SoundDetails) : SoundDetails :=
  { soundDets with
    currentSamplesWrittenToSoundBuffer := soundDets.currentSamplesWrittenToSoundBuffer + samples }

/-- Change the first entry with the url id. -/
def changeFirst (urlId : Int) (change : SoundDetails → SoundDetails) :
    List SoundDetails → List SoundDetails
  | [] => []
  | soundDets :: rest =>
      if soundDets.urlId = urlId then change soundDets :: rest
      else soundDets :: changeFirst urlId change rest

end SoundDetails

/-- The callbacks: the decoder gets the buffer of a track, it is told that a
track has been played, and all registered functions get the position in ms. -/
inductive OutputEvent where
  | decoderSetOutputBuffer (urlId : Int) (cacheBuf : Option Nat)
  | decoderPlayFinished (urlId : Int)
  | progress (urlId durationMs : Int)
deriving DecidableEq

/-- The members of `output_plugin_api`, the state of the device of the derived
class, the memory of buffers, and as history the callbacks made and the url ids
of the tracks that have left the queue. -/
structure OutputPlugin (Device : Type) where
  soundDetailsQueue : List SoundDetails
  prevSoundDetails : SoundDetails
  initApi : Bool
  currentState : PluginState
  useDuration : Bool
  maxMemorySizePerFile : Int
  maxChunkReadSize : Int
  cacheBufMgr : CacheManage Nat
  buffers : Nat → CacheBuffer
  allocated : Nat
  device : Device
  events : List OutputEvent
  removed : List Int

/-- What the decoder writes at once: the bytes and whether it rotates. -/
abbrev Arrival := List UInt8 × Bool

/-- The decoder fills the front cache chunk and puts it back. -/
def decoderPut (buffer : CacheBuffer) (arrival : Arrival) : CacheBuffer :=
  match buffer.getCachePtr with
  | none => buffer
  | some (_, held) => (held.modifyCache (·.append arrival.1)).putCachePtr arrival.2

/-- A buffer after several writes of the decoder. -/
def decoderPuts (buffer : CacheBuffer) (arrivals : List Arrival) : CacheBuffer :=
  arrivals.foldl decoderPut buffer

namespace OutputPlugin

variable {Device Env : Type}

def setBuffer (state : OutputPlugin Device) (address : Nat) (buffer : CacheBuffer) :
    OutputPlugin Device :=
  { state with buffers := fun other => if other = address then buffer else state.buffers other }

/-- `clear_data` through a pointer, when it is not null. -/
def clearBuffer (state : OutputPlugin Device) : Option Nat → OutputPlugin Device
  | none => state
  | some address => state.setBuffer address (state.buffers address).clearData

def emit (state : OutputPlugin Device) (event : OutputEvent) : OutputPlugin Device :=
  { state with events := state.events ++ [event] }

def decoderPlayFinished (state : OutputPlugin Device) (urlId : Int) : OutputPlugin Device :=
  state.emit (.decoderPlayFinished urlId)

/-- `call_callback_funcs` with the position of the track. -/
def callProgress (state : OutputPlugin Device) (soundDets : SoundDetails) : OutputPlugin Device :=
  state.emit (.progress soundDets.urlId
    ((soundDets.samplesToTimeDuration soundDets.currentSamplesWrittenToSoundBuffer).tdiv 1000))

def soundDetailsPop (state : OutputPlugin Device) : OutputPlugin Device :=
  match state.soundDetailsQueue with
  | [] => state
  | soundDets :: rest =>
      { state with soundDetailsQueue := rest, removed := state.removed ++ [soundDets.urlId] }

/-- Writing through `sound_details_top_ref`. -/
def setTop (state : OutputPlugin Device) (soundDets : SoundDetails) : OutputPlugin Device :=
  { state with soundDetailsQueue :=
      match state.soundDetailsQueue with
      | [] => []
      | _ :: rest => soundDets :: rest }

/-- `clear_queue(_sound_details_queue)`. -/
def clearSoundDetailsQueue (state : OutputPlugin Device) : OutputPlugin Device :=
  { state with
    soundDetailsQueue := []
    removed := state.removed ++ state.soundDetailsQueue.map (·.urlId) }

def isNoJob (state : OutputPlugin Device) : Bool :=
  match state.soundDetailsQueue with
  | [] => true
  | [current] => current.totalSamples == current.currentSamplesWrittenToSoundBuffer
  | _ => false

def isSoundDetailsSameAsBefore (state : OutputPlugin Device) : Bool :=
  match state.soundDetailsQueue with
  | [] => false
  | soundDets :: _ =>
      state.prevSoundDetails.bps == soundDets.bps &&
        state.prevSoundDetails.channels == soundDets.channels &&
        state.prevSoundDetails.sampleRate == soundDets.sampleRate

/-- `get_cache_put_buf`. A new buffer gets the next address; its two remembered
sizes are not initialised. -/
def getCachePutBuf (state : OutputPlugin Device) (urlId bufferSize cacheLastSize dataLastSize : Int) :
    Option Nat × OutputPlugin Device :=
  let got := state.cacheBufMgr.getFromCacheOr (some state.allocated) urlId
  let pooled := { state with cacheBufMgr := got.2.2 }
  (got.1,
    if got.2.1 then
      let fresh := CacheBuffer.make bufferSize.toNat state.maxChunkReadSize.toNat cacheLastSize
        dataLastSize
      { pooled.setBuffer state.allocated fresh with allocated := state.allocated + 1 }
    else pooled)

/-- `give_cache_buf_back`: the registered buffer is cleared. -/
def giveCacheBufBack (state : OutputPlugin Device) (urlId : Int) : OutputPlugin Device :=
  let put := state.cacheBufMgr.putCacheBack urlId
  { state.clearBuffer (put.1.getD none) with cacheBufMgr := put.2 }

def addSoundDetailsInternal (state : OutputPlugin Device) (soundDets : SoundDetails)
    (cacheLastSize dataLastSize : Int) : OutputPlugin Device :=
  let bufferSize :=
    if state.useDuration then soundDets.timeDurationToBytes (state.maxMemorySizePerFile * 1000)
    else state.maxMemorySizePerFile
  let got := state.getCachePutBuf soundDets.urlId bufferSize cacheLastSize dataLastSize
  let queued := { soundDets with currentCacheBuffer := got.1 }
  { got.2 with soundDetailsQueue := got.2.soundDetailsQueue ++ [queued] }.emit
    (.decoderSetOutputBuffer soundDets.urlId got.1)

def updateTotalSamplesInternal (state : OutputPlugin Device) (urlId totalSamples : Int) :
    OutputPlugin Device :=
  let update (soundDets : SoundDetails) := { soundDets with totalSamples := totalSamples }
  { state with soundDetailsQueue := SoundDetails.changeFirst urlId update state.soundDetailsQueue }

def setSeekDurationInternal (state : OutputPlugin Device) (urlId durationMs : Int) :
    OutputPlugin Device :=
  let update (soundDets : SoundDetails) :=
    { soundDets with
      currentSamplesWrittenToSoundBuffer := soundDets.timeDurationToSamples (durationMs * 1000) }
  { state with soundDetailsQueue := SoundDetails.changeFirst urlId update state.soundDetailsQueue }

/-- The first entry with the url id and a buffer. -/
def clearPlayDataInternal (state : OutputPlugin Device) (urlId : Int) : OutputPlugin Device :=
  match state.soundDetailsQueue.find? (fun soundDet =>
      soundDet.urlId = urlId && soundDet.currentCacheBuffer.isSome) with
  | none => state
  | some soundDet => state.clearBuffer soundDet.currentCacheBuffer

/-- `output_plugin_api::stop_internal`, followed in both plugins by the reset of
the pool. -/
def stopInternal (state : OutputPlugin Device) : OutputPlugin Device :=
  let cleared := state.clearBuffer state.prevSoundDetails.currentCacheBuffer
  { cleared with
    prevSoundDetails := .default
    cacheBufMgr := cleared.cacheBufMgr.reset }.clearSoundDetailsQueue

/-- A track that can not be initialised is cleared, reported and popped. -/
def refuse (state : OutputPlugin Device) (current : SoundDetails) : OutputPlugin Device :=
  ((state.clearBuffer current.currentCacheBuffer).decoderPlayFinished
    current.urlId).soundDetailsPop

/-- The wait of `play` for the decoder, with what it writes before each test.
The flag tells whether a test found data. -/
def waitData : Nat → List (List Arrival) → CacheBuffer → Bool × CacheBuffer
  | 0, _, buffer => (false, buffer)
  | tests + 1, arrivals, buffer =>
      let written := decoderPuts buffer (arrivals.headD [])
      if written.isDataEmpty then waitData tests arrivals.tail written else (true, written)

/-- The part of `play` from the test for an empty queue to the end of the wait.
The wait gives up when the count of tests exceeds 20. -/
def playFront (init : OutputPlugin Device → Bool × OutputPlugin Device)
    (arrivals : List (List Arrival))
    (playData : SoundDetails → Nat → OutputPlugin Device → Option (OutputPlugin Device))
    (state : OutputPlugin Device) : Option (OutputPlugin Device) :=
  match state.soundDetailsQueue with
  | [] => some state
  | current :: _ =>
    let begun := if state.initApi then (true, state) else init state
    if begun.1 then
      match current.currentCacheBuffer with
      | none => some begun.2.soundDetailsPop
      | some address =>
        let waited := waitData 21 arrivals (begun.2.buffers address)
        let after := begun.2.setBuffer address waited.2
        if waited.1 then playData current address after else some after.soundDetailsPop
    else some (begun.2.refuse current)

end OutputPlugin

/-- What a derived class supplies. `Env` is what its device and the decoder do
during one call. -/
structure OutputPluginVirtuals (Device Env : Type) where
  initApi : Env → OutputPlugin Device → Bool × OutputPlugin Device
  play : Env → OutputPlugin Device → Option (OutputPlugin Device)
  stopInternal : OutputPlugin Device → OutputPlugin Device

/-- The jobs of an output plugin, with the writes of the decoder between them.
`play` stands for each job that ends in it: its timer and the two resume jobs.
`contInternal` is the repeated attempt when there was no track yet. -/
inductive OutputJob (Env : Type) where
  | addSoundDetails (soundDets : SoundDetails) (cacheLastSize dataLastSize : Int)
  | updateTotalSamples (urlId totalSamples : Int)
  | setSeekDurationMs (urlId durationMs : Int)
  | clearPlayData (urlId : Int)
  | stop
  | pause
  | quit
  | cont (env : Env)
  | contInternal (env : Env)
  | play (env : Env)
  | decoderWrite (address : Nat) (arrival : Arrival)

namespace OutputPlugin

variable {Device Env : Type}

/-- `cont_internal` up to the job that resumes. -/
def contInternal (virtuals : OutputPluginVirtuals Device Env) (env : Env)
    (state : OutputPlugin Device) : OutputPlugin Device :=
  if state.soundDetailsQueue.isEmpty || state.initApi then state
  else (virtuals.initApi env state).2

/-- One job. A pause only concerns the device. -/
def step (virtuals : OutputPluginVirtuals Device Env) (state : OutputPlugin Device) :
    OutputJob Env → Option (OutputPlugin Device)
  | .addSoundDetails soundDets cacheLastSize dataLastSize =>
      some (state.addSoundDetailsInternal soundDets cacheLastSize dataLastSize)
  | .updateTotalSamples urlId totalSamples =>
      some (state.updateTotalSamplesInternal urlId totalSamples)
  | .setSeekDurationMs urlId durationMs => some (state.setSeekDurationInternal urlId durationMs)
  | .clearPlayData urlId => some (state.clearPlayDataInternal urlId)
  | .stop => some (virtuals.stopInternal { state with currentState := .stop })
  | .pause => some { state with currentState := .pause }
  | .quit => some { state with currentState := .quit }
  | .cont env => some (contInternal virtuals env { state with currentState := .play })
  | .contInternal env => some (contInternal virtuals env state)
  | .play env => virtuals.play env state
  | .decoderWrite address arrival =>
      some (state.setBuffer address (decoderPut (state.buffers address) arrival))

end OutputPlugin

end Mprt
