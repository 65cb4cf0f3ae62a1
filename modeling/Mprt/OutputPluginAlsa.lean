import Mprt.OutputPluginApi

/-!
# The ALSA output plugin

One call of `play` writes samples of the front track from the front data chunk
of its buffer to the device. What the device answers during the call, and what
the decoder writes during its wait, is given with the call. The timer that calls
`play` again is not part of the state; whether it is active is given as well.
After the last sample of a track comes a drain that only concerns the device.
-/

namespace Mprt

structure AlsaDevice where
  initOpen : Bool
  usePoll : Bool
  initPoll : Bool
  alsaBufferSizeBytes : Int
deriving DecidableEq

/-- During one call: whether the timer is active, the buffer size in frames when
`init_hw_params` comes to read it, the results of `init_hw_params` and
`init_sw_params`, what the decoder writes before each test of the wait, the
frames available to write, and the result of `poll_write` or `direct_write`. -/
structure AlsaEnv where
  timerActive : Bool
  hwBufferSize : Option Int
  hwParams : Bool
  swParams : Bool
  arrivals : List (List Arrival)
  framesToDeliver : Int
  writtenSamples : Int
deriving DecidableEq

namespace OutputPluginAlsa

open OutputPlugin

/-- `init_hw_params` sets the buffer size as soon as it has read it. -/
def initHwParams (env : AlsaEnv) (newSoundDets : SoundDetails) (state : OutputPlugin AlsaDevice) :
    Bool × OutputPlugin AlsaDevice :=
  match env.hwBufferSize with
  | none => (env.hwParams, state)
  | some frames =>
      (env.hwParams, { state with device := { state.device with
        alsaBufferSizeBytes := newSoundDets.samplesToBytes frames } })

/-- `init_alsa`. -/
def initAlsa (env : AlsaEnv) (state : OutputPlugin AlsaDevice) : Bool × OutputPlugin AlsaDevice :=
  if state.currentState ≠ .play ∨ state.device.initOpen = false then (false, state)
  else
    match state.soundDetailsQueue with
    | [] => (false, state)
    | newSoundDets :: _ =>
      let known := { state with prevSoundDetails := newSoundDets }
      if state.isSoundDetailsSameAsBefore then (true, { known with initApi := true })
      else
        let initHw := initHwParams env newSoundDets known
        let ready := initHw.1 && env.swParams && (!state.device.usePoll || state.device.initPoll)
        (ready, { initHw.2 with initApi := ready })

/-- A negative number of frames is an error and is returned as it is. -/
def alsaAvailableBytesToWrite (env : AlsaEnv) (soundDets : SoundDetails) : Int :=
  if env.framesToDeliver < 0 then env.framesToDeliver
  else soundDets.samplesToBytes env.framesToDeliver

/-- The end of a track in `play`, with the drain left out. -/
def finishTrack (state : OutputPlugin AlsaDevice) (current : SoundDetails) :
    OutputPlugin AlsaDevice :=
  let popped := (state.decoderPlayFinished current.urlId).soundDetailsPop
  { popped.giveCacheBufBack popped.prevSoundDetails.urlId with initApi := false }

/-- `play` after the samples have been written. -/
def advance (env : AlsaEnv) (current : SoundDetails) (address : Nat) (held : CacheBuffer)
    (state : OutputPlugin AlsaDevice) : OutputPlugin AlsaDevice :=
  let played := current.addSamples env.writtenSamples
  let writtenBytes := current.samplesToBytes env.writtenSamples
  let isPlayFinished := played.currentSamplesWrittenToSoundBuffer == played.totalSamples
  let buffer := (held.modifyData (·.eraseBegin writtenBytes.toNat)).putDataPtr isPlayFinished
  let reported := ((state.setTop played).setBuffer address buffer).callProgress played
  let ended := if isPlayFinished then finishTrack reported played else reported
  if ended.isNoJob then { ended with currentState := .stop } else ended

/-- `play` from the end of its wait on. Bytes that are no whole number of samples
are not written. -/
def playData (env : AlsaEnv) (current : SoundDetails) (address : Nat)
    (state : OutputPlugin AlsaDevice) : Option (OutputPlugin AlsaDevice) :=
  match (state.buffers address).getDataPtr with
  | none => some state
  | some (chunk, held) =>
    let availBytesToWrite := min (alsaAvailableBytesToWrite env current) (chunk.second.size : Int)
    let holding := state.setBuffer address held
    if availBytesToWrite.tmod (current.samplesToBytes 1) ≠ 0 ∨ env.writtenSamples < 0 then
      some holding
    else some (advance env current address held holding)

/-- `play`. The code that runs at its exit only starts the timer. -/
def play (env : AlsaEnv) (state : OutputPlugin AlsaDevice) : Option (OutputPlugin AlsaDevice) :=
  if state.currentState ≠ .play ∨ env.timerActive = true then some state
  else playFront (initAlsa env) env.arrivals (playData env) state

/-- `stop_internal`: every track in the queue is reported and its buffer given
back, and then all of them are removed. -/
def stopInternal (state : OutputPlugin AlsaDevice) : OutputPlugin AlsaDevice :=
  let reported := state.soundDetailsQueue.foldl (fun reached soundDet =>
    (reached.decoderPlayFinished soundDet.urlId).giveCacheBufBack soundDet.urlId) state
  OutputPlugin.stopInternal { reported with initApi := false }

def virtuals : OutputPluginVirtuals AlsaDevice AlsaEnv where
  initApi := initAlsa
  play := play
  stopInternal := stopInternal

/-- One job of the plugin. -/
def step : OutputPlugin AlsaDevice → OutputJob AlsaEnv → Option (OutputPlugin AlsaDevice) :=
  OutputPlugin.step virtuals

end OutputPluginAlsa

end Mprt
