import Mathlib.Algebra.Group.Int.Defs
import Mprt.OutputPluginApi

/-!
# The DirectSound output plugin

One call of `play` locks a part of the secondary buffer, which is a ring, and
copies bytes of the front track into it. What the device answers during the call
is given with the call, and so is what the decoder writes during its wait. The
timer that calls `play` again is not part of the state.
-/

namespace Mprt

/-- Which of the three device objects exist, and the ring. -/
structure DsoundDevice where
  outputContext : Bool
  primaryBuffer : Bool
  secondaryBuffer : Bool
  writeOffset : Int
  dsoundBufferSize : Int
  maxBufferDurationMsec : Int
deriving DecidableEq

/-- `Lock` at an offset for a number of bytes: the sizes of the one or two
regions, or nothing when it fails. -/
abbrev Lock := Int → Int → Option (Int × Option Int)

/-- During one call: whether the timer is active, the results of the calls of
`init_dsound`, what the decoder writes before each test of the wait, the play
cursor, the answers to `Lock` and `Unlock`, the play cursor at the end of a
track, and play cursor and lock of each pass of the drain. -/
structure DsoundEnv where
  timerActive : Bool
  directSoundCreate : Bool
  setCooperativeLevel : Bool
  createPrimaryBuffer : Bool
  createSecondaryBuffer : Bool
  queryInterface : Bool
  getCaps : Option Int
  arrivals : List (List Arrival)
  playOffset : Int
  lock : Lock
  unlock : Bool
  playOffsetAtEnd : Int
  drain : List (Int × Lock)

namespace OutputPluginDsound

open OutputPlugin

def initContext (env : DsoundEnv) (device : DsoundDevice) : Bool × DsoundDevice :=
  if device.outputContext then (true, device)
  else if env.directSoundCreate then
    (env.setCooperativeLevel, { device with outputContext := true })
  else (false, device)

def initPrimary (env : DsoundEnv) (device : DsoundDevice) : Bool × DsoundDevice :=
  if device.primaryBuffer then (true, device)
  else (env.createPrimaryBuffer, { device with primaryBuffer := env.createPrimaryBuffer })

/-- The size asked for is set first, and the size given at the end. -/
def initSecondary (env : DsoundEnv) (newSoundDets : SoundDetails) (device : DsoundDevice) :
    Bool × DsoundDevice :=
  let sized := { device with
    dsoundBufferSize := newSoundDets.timeDurationToBytes (device.maxBufferDurationMsec * 1000) }
  if env.createSecondaryBuffer && env.queryInterface then
    match env.getCaps with
    | none => (false, { sized with secondaryBuffer := true })
    | some bufferBytes =>
        (true, { sized with
          secondaryBuffer := true, dsoundBufferSize := bufferBytes, writeOffset := 0 })
  else (false, sized)

/-- The creation of what is missing in `init_dsound`, with the old secondary
buffer released before. -/
def initDevice (env : DsoundEnv) (newSoundDets : SoundDetails) (device : DsoundDevice) :
    Bool × DsoundDevice :=
  let context := initContext env { device with secondaryBuffer := false }
  if context.1 then
    let primary := initPrimary env context.2
    if primary.1 then initSecondary env newSoundDets primary.2 else primary
  else context

/-- `init_dsound`. -/
def initDsound (env : DsoundEnv) (state : OutputPlugin DsoundDevice) :
    Bool × OutputPlugin DsoundDevice :=
  match state.soundDetailsQueue with
  | [] => (false, state)
  | newSoundDets :: _ =>
    let known := { state with prevSoundDetails := newSoundDets }
    if state.device.outputContext && state.device.primaryBuffer && state.device.secondaryBuffer &&
        state.isSoundDetailsSameAsBefore then (true, { known with initApi := true })
    else
      let created := initDevice env newSoundDets state.device
      (created.1, { known with device := created.2, initApi := created.1 || state.initApi })

def dsoundAvailableBytesToWrite (device : DsoundDevice) (playOffset : Int) : Int :=
  let diffByte := playOffset - device.writeOffset
  if diffByte > 0 then diffByte else device.dsoundBufferSize + diffByte

def dsoundAvailableBytesToPlay (device : DsoundDevice) (playOffset : Int) : Int :=
  device.dsoundBufferSize - dsoundAvailableBytesToWrite device playOffset

def moveWriteOffset (device : DsoundDevice) (bytes : Int) : DsoundDevice :=
  { device with writeOffset := (device.writeOffset + bytes).tmod device.dsoundBufferSize }

/-- Sizes go to the device as 32-bit numbers. -/
def dword (size : Int) : Int := size % 2 ^ 32

/-- `fill_drain`: the bytes of silence written. -/
def fillDrain (device : DsoundDevice) (lock : Lock) (bytes : Int) : Int × DsoundDevice :=
  if device.primaryBuffer && device.secondaryBuffer then
    match lock (dword device.writeOffset) (dword bytes) with
    | none => (0, moveWriteOffset device 0)
    | some (size1, size2) =>
        let totalWrittenBytes := size1 + size2.getD 0
        (totalWrittenBytes, moveWriteOffset device totalWrittenBytes)
  else (0, device)

/-- The drain at the end of a track. Passes that end before the bytes are
written stand for a drain that goes on, which is no result. -/
def drainLoop : List (Int × Lock) → Int → OutputPlugin DsoundDevice →
    Option (OutputPlugin DsoundDevice)
  | [], writePlayBytes, state => if writePlayBytes > 0 then none else some state
  | (playOffset, lock) :: rest, writePlayBytes, state =>
    if writePlayBytes > 0 then
      let writeBytes := min (dsoundAvailableBytesToWrite state.device playOffset) writePlayBytes
      let filled := fillDrain state.device lock writeBytes
      let prev := state.prevSoundDetails.addSamples (state.prevSoundDetails.bytesToSamples filled.1)
      let drained := { state with device := filled.2, prevSoundDetails := prev }.callProgress prev
      drainLoop rest (writePlayBytes - filled.1) drained
    else some state

/-- The end of a track in `play`. -/
def finishTrack (env : DsoundEnv) (current : SoundDetails) (state : OutputPlugin DsoundDevice) :
    Option (OutputPlugin DsoundDevice) :=
  let reported := state.decoderPlayFinished current.urlId
  let prev := { reported.prevSoundDetails with
    currentSamplesWrittenToSoundBuffer := current.currentSamplesWrittenToSoundBuffer }
  let popped := { reported with prevSoundDetails := prev }.soundDetailsPop
  let drained :=
    if popped.isSoundDetailsSameAsBefore then some popped
    else drainLoop env.drain (2 * dsoundAvailableBytesToPlay popped.device env.playOffsetAtEnd)
      popped
  drained.map (fun ended =>
    { ended.giveCacheBufBack ended.prevSoundDetails.urlId with initApi := false })

/-- `play` after `Unlock`. -/
def unlocked (env : DsoundEnv) (played : SoundDetails) (totalWrittenBytes : Int)
    (state : OutputPlugin DsoundDevice) : Option (OutputPlugin DsoundDevice) :=
  let reported := { state with
    device := moveWriteOffset state.device totalWrittenBytes }.callProgress played
  let ended :=
    if played.currentSamplesWrittenToSoundBuffer = played.totalSamples then
      finishTrack env played reported
    else some reported
  ended.map (fun reached =>
    if reached.isNoJob then { reached with currentState := .stop } else reached)

/-- `play` from the end of its wait on. -/
def playData (env : DsoundEnv) (current : SoundDetails) (address : Nat)
    (state : OutputPlugin DsoundDevice) : Option (OutputPlugin DsoundDevice) :=
  let availBytesToWrite := min (dsoundAvailableBytesToWrite state.device env.playOffset)
    (state.buffers address).totalBytesInBufferGuess
  match env.lock (dword state.device.writeOffset) (dword availBytesToWrite) with
  | none => some state
  | some (size1, size2) =>
    ((state.buffers address).writeIntoRawBuffer size1 true).bind (fun first =>
      let second :=
        match size2 with
        | none => some ([], first.2)
        | some size2 => first.2.writeIntoRawBuffer size2 true
      second.bind (fun second =>
        let totalWrittenBytes : Int := first.1.length + second.1.length
        let played := current.addSamples (current.bytesToSamples totalWrittenBytes)
        let copied := (state.setTop played).setBuffer address second.2
        if env.unlock then unlocked env played totalWrittenBytes copied else some copied))

/-- What runs at each exit of `play`: with nothing left to do the buffer of the
last track is given back. Else only the timer is started. -/
def scopeExit (state : OutputPlugin DsoundDevice) : OutputPlugin DsoundDevice :=
  if !state.isNoJob && state.currentState == .play then state
  else { state.giveCacheBufBack state.prevSoundDetails.urlId with initApi := false }

/-- `play`. -/
def play (env : DsoundEnv) (state : OutputPlugin DsoundDevice) :
    Option (OutputPlugin DsoundDevice) :=
  if state.currentState ≠ .play ∨ env.timerActive = true then some state
  else (playFront (initDsound env) env.arrivals (playData env) state).map scopeExit

/-- `stop_internal`: every track in the queue is reported, and then all of them
are removed. -/
def stopInternal (state : OutputPlugin DsoundDevice) : OutputPlugin DsoundDevice :=
  let reported := state.soundDetailsQueue.foldl (fun reached soundDet =>
    reached.decoderPlayFinished soundDet.urlId) { state with initApi := false }
  OutputPlugin.stopInternal reported

def virtuals : OutputPluginVirtuals DsoundDevice DsoundEnv where
  initApi := initDsound
  play := play
  stopInternal := stopInternal

/-- One job of the plugin. -/
def step : OutputPlugin DsoundDevice → OutputJob DsoundEnv → Option (OutputPlugin DsoundDevice) :=
  OutputPlugin.step virtuals

end OutputPluginDsound

end Mprt
