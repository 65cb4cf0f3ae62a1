import Mprt.LabelledRuns
import Mprt.OutputPluginAlsa

/-!
# The head of the queue of the ALSA output plugin

`sound_details_top` and `sound_details_top_ref` are the head of `_sound_details_queue`,
and the helpers of `play` read it in many places. Here every such read is made, and
reading the head of an empty queue is no result. Where there is a result it is that of
`OutputPluginAlsa`.

All reads but one come after a test for an empty queue. The drain at the end of a track
asks how many bytes the device still has to play, and converts the answer with the head
of the queue, from which the track has been popped already.
-/

namespace Mprt.AlsaQueueHead

open OutputPlugin

/-- What the device answers during one call besides `AlsaEnv`: whether `init_hw_params`
comes to set the format, and the frames available to write at the drain. -/
structure HeadEnv extends AlsaEnv where
  isBigEndian : Bool
  formatSet : Bool
  framesAtDrain : Int

/-- `snd_pcm_format_t`, as far as it is used. -/
inductive PcmFormat where
  | floatBe
  | floatLe
  | s8
  | s16Le
  | s32Le
deriving DecidableEq

/-- `sound_details_top` and `sound_details_top_ref`. -/
def soundDetailsTop (state : OutputPlugin AlsaDevice) : Option SoundDetails :=
  state.soundDetailsQueue.head?

def isNoJob (state : OutputPlugin AlsaDevice) : Option Bool :=
  if state.soundDetailsQueue.isEmpty then some true
  else do
    let current ← soundDetailsTop state
    return state.soundDetailsQueue.length == 1 &&
      current.totalSamples == current.currentSamplesWrittenToSoundBuffer

def isSoundDetailsSameAsBefore (state : OutputPlugin AlsaDevice) : Option Bool :=
  if state.soundDetailsQueue.isEmpty then some false
  else do
    let soundDets ← soundDetailsTop state
    return state.prevSoundDetails.bps == soundDets.bps &&
      state.prevSoundDetails.channels == soundDets.channels &&
      state.prevSoundDetails.sampleRate == soundDets.sampleRate

def getPcmFormat (isBigEndian : Bool) (state : OutputPlugin AlsaDevice) : Option PcmFormat := do
  let soundDets ← soundDetailsTop state
  return if soundDets.isFloat then if isBigEndian then .floatBe else .floatLe
    else if soundDets.bps = 8 then .s8
    else if soundDets.bps = 16 then .s16Le
    else if soundDets.bps = 32 then .s32Le
    else .s16Le

def initHwParams (env : HeadEnv) (state : OutputPlugin AlsaDevice) :
    Option (Bool × OutputPlugin AlsaDevice) :=
  if state.currentState ≠ .play then some (false, state)
  else do
    let soundDets ← soundDetailsTop state
    let _ ← if env.formatSet then (getPcmFormat env.isBigEndian state).map some else some none
    return OutputPluginAlsa.initHwParams env.toAlsaEnv soundDets state

/-- `init_alsa`. -/
def initAlsa (env : HeadEnv) (state : OutputPlugin AlsaDevice) :
    Option (Bool × OutputPlugin AlsaDevice) :=
  if state.currentState ≠ .play ∨ state.device.initOpen = false then some (false, state)
  else if state.soundDetailsQueue.isEmpty then some (false, state)
  else do
    let isSameBefore ← isSoundDetailsSameAsBefore state
    let newSoundDets ← soundDetailsTop state
    let known := { state with prevSoundDetails := newSoundDets }
    if isSameBefore then return (true, { known with initApi := true })
    else
      let initHw ← initHwParams env known
      let ready := initHw.1 && env.swParams && (!state.device.usePoll || state.device.initPoll)
      return (ready, { initHw.2 with initApi := ready })

/-- Only frames that are no error are converted. -/
def alsaAvailableBytesToWrite (framesToDeliver : Int) (state : OutputPlugin AlsaDevice) :
    Option Int :=
  if framesToDeliver < 0 then some framesToDeliver
  else (soundDetailsTop state).map (·.samplesToBytes framesToDeliver)

def alsaAvailableBytesToPlay (framesToDeliver : Int) (state : OutputPlugin AlsaDevice) :
    Option Int :=
  (alsaAvailableBytesToWrite framesToDeliver state).map
    (fun avail => state.device.alsaBufferSizeBytes - avail)

/-- The end of a track in `play`. Of the drain only its question to the device matters;
the silence is written in the format of the track before. -/
def finishTrack (env : HeadEnv) (state : OutputPlugin AlsaDevice) (current : SoundDetails) :
    Option (OutputPlugin AlsaDevice) := do
  let popped := (state.decoderPlayFinished current.urlId).soundDetailsPop
  let same ← isSoundDetailsSameAsBefore popped
  let _ ← if same then some 0 else alsaAvailableBytesToPlay env.framesAtDrain popped
  return { popped.giveCacheBufBack popped.prevSoundDetails.urlId with initApi := false }

/-- `play` after the samples have been written. -/
def advance (env : HeadEnv) (current : SoundDetails) (address : Nat) (held : CacheBuffer)
    (state : OutputPlugin AlsaDevice) : Option (OutputPlugin AlsaDevice) := do
  let played := current.addSamples env.writtenSamples
  let writtenBytes := current.samplesToBytes env.writtenSamples
  let isPlayFinished := played.currentSamplesWrittenToSoundBuffer == played.totalSamples
  let buffer := (held.modifyData (·.eraseBegin writtenBytes.toNat)).putDataPtr isPlayFinished
  let reported := ((state.setTop played).setBuffer address buffer).callProgress played
  let ended ← if isPlayFinished then finishTrack env reported played else some reported
  let noJob ← isNoJob ended
  return if noJob then { ended with currentState := .stop } else ended

/-- `play` from the end of its wait on. -/
def playData (env : HeadEnv) (current : SoundDetails) (address : Nat)
    (state : OutputPlugin AlsaDevice) : Option (OutputPlugin AlsaDevice) :=
  match (state.buffers address).getDataPtr with
  | none => some state
  | some (chunk, held) => do
    let holding := state.setBuffer address held
    let available ← alsaAvailableBytesToWrite env.framesToDeliver holding
    let availBytesToWrite := min available (chunk.second.size : Int)
    if availBytesToWrite.tmod (current.samplesToBytes 1) ≠ 0 ∨ env.writtenSamples < 0 then
      return holding
    else advance env current address held holding

/-- The device is initialised in `play` unless it has been before. -/
def begin (env : HeadEnv) (state : OutputPlugin AlsaDevice) :
    Option (Bool × OutputPlugin AlsaDevice) :=
  if state.initApi then some (true, state) else initAlsa env state

/-- `play` from the test for an empty queue to its end. -/
def playFront (env : HeadEnv) (state : OutputPlugin AlsaDevice) :
    Option (OutputPlugin AlsaDevice) :=
  if state.soundDetailsQueue.isEmpty then some state
  else do
    let current ← soundDetailsTop state
    let begun ← begin env state
    if begun.1 then
      match current.currentCacheBuffer with
      | none => return begun.2.soundDetailsPop
      | some address =>
        let waited := waitData 21 env.arrivals (begun.2.buffers address)
        let after := begun.2.setBuffer address waited.2
        if waited.1 then playData env current address after else return after.soundDetailsPop
    else return begun.2.refuse current

/-- What runs at each exit of `play`: the time until the next call is computed from the
format of the head. -/
def scopeExit (state : OutputPlugin AlsaDevice) : Option (OutputPlugin AlsaDevice) := do
  let noJob ← isNoJob state
  if !noJob && state.currentState == .play then (soundDetailsTop state).map (fun _ => state)
  else return state

/-- `play`. -/
def play (env : HeadEnv) (state : OutputPlugin AlsaDevice) : Option (OutputPlugin AlsaDevice) :=
  if state.currentState ≠ .play ∨ env.timerActive = true then some state
  else (playFront env state).bind scopeExit

/-- `cont_internal` up to the job that resumes. -/
def contInternal (env : HeadEnv) (state : OutputPlugin AlsaDevice) :
    Option (OutputPlugin AlsaDevice) :=
  if state.soundDetailsQueue.isEmpty then some state
  else if state.initApi then some state
  else (initAlsa env state).map Prod.snd

/-- The plugin without the reads. -/
def virtuals : OutputPluginVirtuals AlsaDevice HeadEnv where
  initApi env := OutputPluginAlsa.initAlsa env.toAlsaEnv
  play env := OutputPluginAlsa.play env.toAlsaEnv
  stopInternal := OutputPluginAlsa.stopInternal

/-- The jobs of the plugin. `fill_drain` writes silence in the format of the track
before. -/
inductive Job where
  | output (job : OutputJob HeadEnv)
  | fillDrain

/-- One job, with no result when it reads the head of an empty queue. -/
def step (state : OutputPlugin AlsaDevice) : Job → Option (OutputPlugin AlsaDevice)
  | .output (.play env) => play env state
  | .output (.cont env) => contInternal env { state with currentState := .play }
  | .output (.contInternal env) => contInternal env state
  | .output job => OutputPlugin.step virtuals state job
  | .fillDrain => some state

/-! ## The reads behind a test -/

section Reads

variable {state : OutputPlugin AlsaDevice} {env : HeadEnv} {current : SoundDetails}
  {rest : List SoundDetails}

/-- The head of the queue is read where there is one. -/
theorem soundDetailsTop_cons (front : state.soundDetailsQueue = current :: rest) :
    soundDetailsTop state = some current := by
  rw [soundDetailsTop, front, List.head?_cons]

/-- `is_no_job` looks at the head only behind its test for an empty queue. -/
theorem isNoJob_eq (state : OutputPlugin AlsaDevice) :
    isNoJob state = some state.isNoJob := by
  rw [isNoJob, OutputPlugin.isNoJob]
  cases front : state.soundDetailsQueue with
  | nil => rfl
  | cons current rest =>
    rw [soundDetailsTop_cons front]
    cases rest <;> rfl

/-- And so does the comparison with the format before. -/
theorem isSoundDetailsSameAsBefore_eq (state : OutputPlugin AlsaDevice) :
    isSoundDetailsSameAsBefore state = some state.isSoundDetailsSameAsBefore := by
  rw [isSoundDetailsSameAsBefore, OutputPlugin.isSoundDetailsSameAsBefore]
  cases front : state.soundDetailsQueue with
  | nil => rfl
  | cons current rest =>
    rw [soundDetailsTop_cons front]
    rfl

/-- The parameters are set for the head, which is there while the plugin plays a track. -/
theorem initHwParams_eq (playing : state.currentState = .play)
    (front : state.soundDetailsQueue = current :: rest) :
    initHwParams env state = some (OutputPluginAlsa.initHwParams env.toAlsaEnv current state) := by
  rw [initHwParams, if_neg (not_not.mpr playing), soundDetailsTop_cons front, getPcmFormat,
    soundDetailsTop_cons front]
  cases env.formatSet <;> rfl

/-- `init_alsa` reads the head of a queue that it has found not to be empty. -/
theorem initAlsa_eq (env : HeadEnv) (state : OutputPlugin AlsaDevice) :
    initAlsa env state = some (OutputPluginAlsa.initAlsa env.toAlsaEnv state) := by
  rw [initAlsa, OutputPluginAlsa.initAlsa]
  split
  · rfl
  · rename_i ready
    rw [not_or, not_not] at ready
    cases front : state.soundDetailsQueue with
    | nil => rfl
    | cons current rest =>
      rw [isSoundDetailsSameAsBefore_eq, soundDetailsTop_cons front]
      cases same : state.isSoundDetailsSameAsBefore with
      | true => rfl
      | false =>
        have hardware := @initHwParams_eq
          { state with soundDetailsQueue := current :: rest, prevSoundDetails := current } env
          current rest ready.1 rfl
        simp [hardware]

/-- The scope exit reads the head only while there is something to play. -/
theorem scopeExit_eq (state : OutputPlugin AlsaDevice) : scopeExit state = some state := by
  rw [scopeExit, isNoJob_eq]
  cases front : state.soundDetailsQueue with
  | nil => simp [OutputPlugin.isNoJob, front]
  | cons current rest =>
    rw [soundDetailsTop_cons front]
    cases state.isNoJob <;> cases state.currentState == .play <;> rfl

/-- To go on reads no head of an empty queue. -/
theorem contInternal_eq (env : HeadEnv) (state : OutputPlugin AlsaDevice) :
    contInternal env state = some (OutputPlugin.contInternal virtuals env state) := by
  rw [contInternal, OutputPlugin.contInternal, initAlsa_eq]
  cases state.soundDetailsQueue.isEmpty <;> cases state.initApi <;> rfl

/-- `init_alsa` leaves the queue and the buffers alone. -/
theorem initAlsa_keeps (env : AlsaEnv) (state : OutputPlugin AlsaDevice) :
    (OutputPluginAlsa.initAlsa env state).2.soundDetailsQueue = state.soundDetailsQueue ∧
      (OutputPluginAlsa.initAlsa env state).2.buffers = state.buffers := by
  rw [OutputPluginAlsa.initAlsa]
  split
  · exact ⟨rfl, rfl⟩
  · split
    · exact ⟨rfl, rfl⟩
    · simp only
      split
      · exact ⟨rfl, rfl⟩
      · rw [OutputPluginAlsa.initHwParams]
        split <;> exact ⟨rfl, rfl⟩

end Reads

/-! ## When the last track ends -/

/-- Whether `play` with some data comes to count the samples written. -/
def dataWritten (env : AlsaEnv) (current : SoundDetails) (buffer : CacheBuffer) : Bool :=
  match buffer.getDataPtr with
  | none => false
  | some (chunk, _) =>
      decide ((min (OutputPluginAlsa.alsaAvailableBytesToWrite env current)
        (chunk.second.size : Int)).tmod (current.samplesToBytes 1) = 0 ∧ 0 ≤ env.writtenSamples)

/-- Whether the samples written are the last ones of a track. -/
def isPlayFinished (env : AlsaEnv) (current : SoundDetails) : Bool :=
  current.currentSamplesWrittenToSoundBuffer + env.writtenSamples == current.totalSamples

/-- Whether a call of `play` comes to count the samples written of the front track. -/
def writes (env : AlsaEnv) (state : OutputPlugin AlsaDevice) (current : SoundDetails) : Bool :=
  state.currentState == .play && !env.timerActive &&
    (state.initApi || (OutputPluginAlsa.initAlsa env state).1) &&
    match current.currentCacheBuffer with
    | none => false
    | some address =>
      let waited := waitData 21 env.arrivals (state.buffers address)
      waited.1 && dataWritten env current waited.2

/-- Whether these are the last samples of the only track. -/
def endsLast (env : AlsaEnv) (state : OutputPlugin AlsaDevice) : Bool :=
  match state.soundDetailsQueue with
  | [current] => writes env state current && isPlayFinished env current
  | _ => false

/-- When the only track ends, the device answers with an error at the drain. -/
def DrainRefused (state : OutputPlugin AlsaDevice) : Job → Prop
  | .output (.play env) => endsLast env.toAlsaEnv state = true → env.framesAtDrain < 0
  | _ => True

section Drain

variable {state : OutputPlugin AlsaDevice} {env : HeadEnv} {current played : SoundDetails}
  {rest : List SoundDetails}

/-- The end of a track reads the head of an empty queue when no track is left and the
device answers with a number of frames. -/
theorem finishTrack_eq (front : state.soundDetailsQueue = played :: rest) :
    finishTrack env state current =
      if rest = [] ∧ 0 ≤ env.framesAtDrain then none
      else some (OutputPluginAlsa.finishTrack state current) := by
  have popped : ((state.decoderPlayFinished current.urlId).soundDetailsPop).soundDetailsQueue =
      rest := by
    simp [OutputPlugin.decoderPlayFinished, OutputPlugin.emit, OutputPlugin.soundDetailsPop, front]
  have same := isSoundDetailsSameAsBefore_eq
    ((state.decoderPlayFinished current.urlId).soundDetailsPop)
  rw [finishTrack, same, OutputPluginAlsa.finishTrack]
  cases rest with
  | nil =>
    have differs : ((state.decoderPlayFinished
        current.urlId).soundDetailsPop).isSoundDetailsSameAsBefore = false := by
      rw [OutputPlugin.isSoundDetailsSameAsBefore, popped]
    have missing : soundDetailsTop ((state.decoderPlayFinished current.urlId).soundDetailsPop) =
        none := by rw [soundDetailsTop, popped, List.head?_nil]
    rw [differs, alsaAvailableBytesToPlay, alsaAvailableBytesToWrite, missing]
    by_cases answered : env.framesAtDrain < 0
    · rw [if_pos answered, if_neg (fun both => absurd both.2 (Int.not_le.mpr answered))]
      rfl
    · rw [if_neg answered, if_pos ⟨rfl, Int.not_lt.mp answered⟩]
      rfl
  | cons next others =>
    have there := soundDetailsTop_cons popped
    rw [alsaAvailableBytesToPlay, alsaAvailableBytesToWrite, there]
    simp only [List.cons_ne_nil, false_and, if_false]
    cases ((state.decoderPlayFinished
        current.urlId).soundDetailsPop).isSoundDetailsSameAsBefore with
    | true => rfl
    | false => split <;> rfl

/-- After a write the head is read again, which is not there exactly when the last track has ended
and the device drains. -/
theorem advance_eq (front : state.soundDetailsQueue = played :: rest) (address : Nat)
    (held : CacheBuffer) :
    advance env current address held state =
      if (isPlayFinished env.toAlsaEnv current = true ∧ rest = []) ∧ 0 ≤ env.framesAtDrain then none
      else some (OutputPluginAlsa.advance env.toAlsaEnv current address held state) := by
  have reported : (((state.setTop (current.addSamples env.writtenSamples)).setBuffer address
      ((held.modifyData (·.eraseBegin (current.samplesToBytes env.writtenSamples).toNat)).putDataPtr
        (isPlayFinished env.toAlsaEnv current))).callProgress
          (current.addSamples env.writtenSamples)).soundDetailsQueue =
        current.addSamples env.writtenSamples :: rest := by
    simp [OutputPlugin.callProgress, OutputPlugin.emit, OutputPlugin.setBuffer,
      OutputPlugin.setTop, front]
  have ends := @finishTrack_eq _ env (current.addSamples env.writtenSamples) _ _ reported
  have counted : ((current.addSamples env.writtenSamples).currentSamplesWrittenToSoundBuffer ==
      (current.addSamples env.writtenSamples).totalSamples) =
        isPlayFinished env.toAlsaEnv current := rfl
  simp only [advance, OutputPluginAlsa.advance, counted, isNoJob_eq]
  by_cases finished : isPlayFinished env.toAlsaEnv current = true
  · rw [finished] at ends
    simp only [finished, if_true, ends, true_and]
    split <;> rfl
  · simp only [finished, if_false, false_and, Bool.false_eq_true]
    rfl

/-- The part of `play` behind its wait reads the head of an empty queue when it ends the
only track. -/
theorem playData_eq (front : state.soundDetailsQueue = current :: rest) (address : Nat) :
    playData env current address state =
      if (dataWritten env.toAlsaEnv current (state.buffers address) = true ∧
          isPlayFinished env.toAlsaEnv current = true ∧ rest = []) ∧ 0 ≤ env.framesAtDrain then none
      else OutputPluginAlsa.playData env.toAlsaEnv current address state := by
  simp only [playData, OutputPluginAlsa.playData, dataWritten]
  rcases Option.eq_none_or_eq_some (state.buffers address).getDataPtr with
    missing | ⟨⟨chunk, held⟩, found⟩
  · simp [missing]
  · simp only [found]
    have top : soundDetailsTop (state.setBuffer address held) = some current :=
      soundDetailsTop_cons front
    have available : alsaAvailableBytesToWrite env.framesToDeliver (state.setBuffer address held) =
        some (OutputPluginAlsa.alsaAvailableBytesToWrite env.toAlsaEnv current) := by
      rw [alsaAvailableBytesToWrite, top, OutputPluginAlsa.alsaAvailableBytesToWrite]
      split <;> rfl
    have advances := @advance_eq (state.setBuffer address held) env current current rest front
      address held
    simp only [available, decide_eq_true_eq]
    by_cases written : (min (OutputPluginAlsa.alsaAvailableBytesToWrite env.toAlsaEnv current)
        (chunk.second.size : Int)).tmod (current.samplesToBytes 1) = 0 ∧ 0 ≤ env.writtenSamples
    · have neither : ¬ ((min (OutputPluginAlsa.alsaAvailableBytesToWrite env.toAlsaEnv current)
          (chunk.second.size : Int)).tmod (current.samplesToBytes 1) ≠ 0 ∨
            env.writtenSamples < 0) := by
        rw [not_or, not_not, Int.not_lt]
        exact written
      simp only [Option.bind_eq_bind, Option.bind_some, if_neg neither, advances]
      simp only [written, and_self, true_and]
    · have either : (min (OutputPluginAlsa.alsaAvailableBytesToWrite env.toAlsaEnv current)
          (chunk.second.size : Int)).tmod (current.samplesToBytes 1) ≠ 0 ∨
            env.writtenSamples < 0 := by
        rw [not_and_or, Int.not_le] at written
        exact written
      simp [written, either]

/-- The device is initialised as by the plugin, unless it has been before. -/
def begun (env : AlsaEnv) (state : OutputPlugin AlsaDevice) : Bool × OutputPlugin AlsaDevice :=
  if state.initApi then (true, state) else OutputPluginAlsa.initAlsa env state

/-- The beginning of `play` reads the head behind its tests. -/
theorem begin_eq (env : HeadEnv) (state : OutputPlugin AlsaDevice) :
    begin env state = some (begun env.toAlsaEnv state) := by
  rw [begin, initAlsa_eq, begun]
  split <;> rfl

/-- The queue and the buffers are left alone. -/
theorem begun_keeps (env : AlsaEnv) (state : OutputPlugin AlsaDevice) :
    (begun env state).2.soundDetailsQueue = state.soundDetailsQueue ∧
      (begun env state).2.buffers = state.buffers := by
  rw [begun]
  split
  · exact ⟨rfl, rfl⟩
  · exact initAlsa_keeps env state

/-- A call that is due ends the only track when the device is ready and the data come. -/
theorem endsLast_begun (env : AlsaEnv) (playing : state.currentState = .play)
    (idle : env.timerActive = false) (front : state.soundDetailsQueue = current :: rest) :
    endsLast env state = true ↔
      ((begun env state).1 = true ∧ match current.currentCacheBuffer with
        | none => False
        | some address =>
          let waited := waitData 21 env.arrivals ((begun env state).2.buffers address)
          waited.1 = true ∧ dataWritten env current waited.2 = true) ∧
      isPlayFinished env current = true ∧ rest = [] := by
  have ready : (state.initApi || (OutputPluginAlsa.initAlsa env state).1) =
      (begun env state).1 := by
    rw [begun]
    cases state.initApi <;> rfl
  have comes : writes env state current = true ↔
      (begun env state).1 = true ∧ match current.currentCacheBuffer with
        | none => False
        | some address =>
          let waited := waitData 21 env.arrivals ((begun env state).2.buffers address)
          waited.1 = true ∧ dataWritten env current waited.2 = true := by
    simp only [writes, playing, idle, ready, (begun_keeps env state).2, beq_self_eq_true,
      Bool.not_false, Bool.true_and, Bool.and_eq_true]
    cases current.currentCacheBuffer <;> simp
  rw [endsLast, front, ← comes]
  cases rest <;> simp

/-- The same for `play` from the test for an empty queue on. -/
theorem playFront_eq (env : HeadEnv)
    (busy : ¬ (state.currentState ≠ .play ∨ env.timerActive = true)) :
    playFront env state =
      if endsLast env.toAlsaEnv state = true ∧ 0 ≤ env.framesAtDrain then none
      else OutputPlugin.playFront (OutputPluginAlsa.initAlsa env.toAlsaEnv) env.arrivals
        (OutputPluginAlsa.playData env.toAlsaEnv) state := by
  rw [not_or, not_not, Bool.not_eq_true] at busy
  obtain ⟨playing, idle⟩ := busy
  cases front : state.soundDetailsQueue with
  | nil => simp [playFront, OutputPlugin.playFront, endsLast, front]
  | cons current rest =>
    have ends := endsLast_begun env.toAlsaEnv playing idle front
    have keeps := (begun_keeps env.toAlsaEnv state).1.trans front
    simp only [playFront, OutputPlugin.playFront, front, List.isEmpty_cons, Bool.false_eq_true,
      if_false, soundDetailsTop_cons front, Option.bind_eq_bind, Option.bind_some, begin_eq]
    rw [← begun]
    generalize begun env.toAlsaEnv state = started at ends keeps ⊢
    cases succeeded : started.1 with
    | false =>
      have stays : ¬ (endsLast env.toAlsaEnv state = true ∧ 0 ≤ env.framesAtDrain) := by
        simp [ends, succeeded]
      rw [if_neg stays]
      rfl
    | true =>
      simp only [succeeded, true_and] at ends
      simp only [if_true]
      cases buffered : current.currentCacheBuffer with
      | none =>
        have stays : ¬ (endsLast env.toAlsaEnv state = true ∧ 0 ≤ env.framesAtDrain) := by
          simp [ends, buffered]
        rw [if_neg stays]
        rfl
      | some address =>
        simp only [buffered] at ends ⊢
        generalize waitData 21 env.arrivals (started.2.buffers address) = waited at ends ⊢
        have written : (started.2.setBuffer address waited.2).buffers address = waited.2 := by
          simp [OutputPlugin.setBuffer]
        have data := @playData_eq (started.2.setBuffer address waited.2) env current rest keeps
          address
        rw [written] at data
        cases arrived : waited.1 with
        | false =>
          have stays : ¬ (endsLast env.toAlsaEnv state = true ∧ 0 ≤ env.framesAtDrain) := by
            simp [ends, arrived]
          rw [if_neg stays]
          rfl
        | true => simp only [if_true, data, ends, arrived, true_and]

/-- `play` reads the head of an empty queue exactly when it ends the only track and the
device answers with a number of frames at the drain. -/
theorem play_eq (env : HeadEnv) (state : OutputPlugin AlsaDevice) :
    play env state =
      if endsLast env.toAlsaEnv state = true ∧ 0 ≤ env.framesAtDrain then none
      else OutputPluginAlsa.play env.toAlsaEnv state := by
  by_cases idle : state.currentState ≠ .play ∨ env.timerActive = true
  · have unused : ∀ current, writes env.toAlsaEnv state current = false := by
      intro current
      rcases idle with other | active
      · simp [writes, other]
      · simp [writes, active]
    have goesOn : endsLast env.toAlsaEnv state = false := by
      rw [endsLast]
      split
      · rw [unused, Bool.false_and]
      · rfl
    rw [goesOn, if_neg (by simp), play, OutputPluginAlsa.play, if_pos idle, if_pos idle]
  · have exits : ∀ result : Option (OutputPlugin AlsaDevice), result.bind scopeExit = result := by
      intro result
      cases result with
      | none => rfl
      | some reached => exact scopeExit_eq reached
    rw [play, OutputPluginAlsa.play, if_neg idle, if_neg idle, exits]
    exact playFront_eq env idle

end Drain

/-- Where there is a result it is that of the plugin. -/
theorem step_eq (state : OutputPlugin AlsaDevice) (job : OutputJob HeadEnv) :
    DrainRefused state (.output job) →
      step state (.output job) = OutputPlugin.step virtuals state job := by
  cases job with
  | play env =>
    intro refused
    have answered : ¬ (endsLast env.toAlsaEnv state = true ∧ 0 ≤ env.framesAtDrain) := by
      rintro ⟨ends, frames⟩
      exact absurd (refused ends) (Int.not_lt.mpr frames)
    rw [step, play_eq, if_neg answered]
    rfl
  | cont env => exact fun _ => contInternal_eq env { state with currentState := .play }
  | contInternal env => exact fun _ => contInternal_eq env state
  | _ => exact fun _ => rfl

/-- `play` of the plugin always has a result. -/
theorem alsaPlay_isSome (env : AlsaEnv) (state : OutputPlugin AlsaDevice) :
    (OutputPluginAlsa.play env state).isSome = true := by
  have data : ∀ current address reached,
      (OutputPluginAlsa.playData env current address reached).isSome = true := by
    intro current address reached
    simp only [OutputPluginAlsa.playData]
    split
    · rfl
    · split <;> rfl
  have begins : ∀ (current : SoundDetails) (begun : Bool × OutputPlugin AlsaDevice),
      (if begun.1 = true then
        match current.currentCacheBuffer with
        | none => some begun.2.soundDetailsPop
        | some address =>
          let waited := waitData 21 env.arrivals (begun.2.buffers address)
          let after := begun.2.setBuffer address waited.2
          if waited.1 then OutputPluginAlsa.playData env current address after
          else some after.soundDetailsPop
      else some (begun.2.refuse current)).isSome = true := by
    intro current begun
    split
    · split
      · rfl
      · simp only
        split
        · exact data _ _ _
        · rfl
    · rfl
  rw [OutputPluginAlsa.play]
  split
  · rfl
  · rw [OutputPlugin.playFront]
    split
    · rfl
    · exact begins _ _

/-- A job reads no head of an empty queue exactly when it does not end the only track,
or the device refuses to answer at the drain. -/
theorem step_isSome_iff (state : OutputPlugin AlsaDevice) (job : Job) :
    (step state job).isSome = true ↔ DrainRefused state job := by
  cases job with
  | fillDrain => exact iff_of_true rfl trivial
  | output job =>
    constructor
    · intro completed
      cases job with
      | play env =>
        intro ends
        rw [step, play_eq] at completed
        by_contra frames
        rw [if_pos ⟨ends, Int.not_lt.mp frames⟩] at completed
        contradiction
      | _ => trivial
    · intro refused
      rw [step_eq state job refused]
      cases job with
      | play env => exact alsaPlay_isSome env.toAlsaEnv state
      | _ => rfl

/-- In every run of jobs, from any queue and with any answers of the device, the head is
read of no empty queue exactly when no call of `play` ends the only track with a number
of frames answered at the drain. -/
theorem head_read_iff (start : OutputPlugin AlsaDevice) (jobs : List Job) :
    (LabelledRuns.run step start jobs).isSome = true ↔
      LabelledRuns.Meets step DrainRefused start jobs :=
  LabelledRuns.run_isSome_iff_meets step_isSome_iff start jobs

/-- A plugin that plays, with its device open and an empty queue. -/
def opened : OutputPlugin AlsaDevice where
  soundDetailsQueue := []
  prevSoundDetails := .default
  initApi := false
  currentState := .play
  useDuration := false
  maxMemorySizePerFile := 8
  maxChunkReadSize := 4
  cacheBufMgr := .make 0
  buffers := fun _ => CacheBuffer.make 8 4 0 0
  allocated := 0
  device := ⟨true, false, false, 0⟩
  events := []
  removed := []

/-- A device with room for four frames, that takes one. -/
def oneFrame : HeadEnv :=
  ⟨⟨false, some 4, true, true, [], 4, 1⟩, false, true, 3⟩

/-- A track of one sample is decoded and played to its end, where the device has room
for three more frames: the head of the empty queue is read. -/
theorem last_track_drained :
    (LabelledRuns.run step opened
      [.output (.addSoundDetails ⟨true, 1, 0, 1, 44100, false, 8, 1, none⟩ 0 0),
        .output (.decoderWrite 0 ([7], true)), .output (.play oneFrame)]).isSome = false := by
  rfl

end Mprt.AlsaQueueHead
