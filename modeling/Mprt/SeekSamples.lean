import Mathlib.Algebra.Order.Ring.Int
import Mprt.DecodeLoop
import Mprt.OutputPluginApi

/-!
# The sample that a seek goes to

A seek time in milliseconds is converted to a sample in three places. The FLAC plugin
truncates, and seeks to that sample. The decoder manager and the output plugins round, and
count from there on. They agree unless the fraction that is cut off is a half or more; then
the counts are one sample ahead of the stream.

Quotients are exact, as those of floating point numbers are for the products that occur.
-/

namespace Mprt.SeekSamples

/-- What the FLAC library answers: the results of the seek, whether its state is an error of
seeking, and the results of a flush and of a second seek. -/
structure FlacSeekEnv where
  seekAbsolute : Bool
  seekError : Bool
  flush : Bool
  seekAbsoluteAgain : Bool

/-- The cast of a quotient that is not negative. -/
def sampleToSeek (soundDets : SoundDetails) (durationMs : Int) : Int :=
  (soundDets.sampleRate * durationMs).tdiv 1000

/-- `decoder_plugin_flac::seek_duration`: the samples that
`FLAC__stream_decoder_seek_absolute` is called with, and whether a seek was done. -/
def seekDuration (env : FlacSeekEnv) (soundDets : SoundDetails) (durationMs : Int) :
    List Int × Bool :=
  let sample := sampleToSeek soundDets durationMs
  if env.seekAbsolute then ([sample], true)
  else if env.seekError && env.flush then ([sample, sample], env.seekAbsoluteAgain)
  else ([sample], false)

/-- The count of the first entry with the url id in the queue of an output plugin. -/
def outputCount {Device : Type} (state : OutputPlugin Device) (urlId : Int) : Option Int :=
  (state.soundDetailsQueue.find? (fun soundDet => soundDet.urlId = urlId)).map
    (·.currentSamplesWrittenToSoundBuffer)

/-- Every sample that is passed to the library is the one from which both count, so counting
what remains behind it ends at the total number of samples. -/
def Agree (passed : List Int) (totalSamples written : Int) (played : Option Int) : Prop :=
  ∀ sample ∈ passed, written = sample ∧ played = some sample ∧
    ∀ blocks : List Int, sample + blocks.sum = totalSamples →
      written + blocks.sum = totalSamples ∧ played.map (· + blocks.sum) = some totalSamples

section Counts

/-- Only the sample at the seek is passed. -/
theorem seekDuration_passes (env : FlacSeekEnv) (soundDets : SoundDetails) (durationMs : Int) :
    (∀ sample ∈ (seekDuration env soundDets durationMs).1,
      sample = sampleToSeek soundDets durationMs) ∧
    sampleToSeek soundDets durationMs ∈ (seekDuration env soundDets durationMs).1 := by
  rw [seekDuration]
  split
  · simp
  · split <;> simp

/-- Frames that are written change no details of a track but its count. -/
theorem writeFrames_soundDetails {front : Nat} {countsPerBuffer : Bool} {samples : Int}
    {bytes : List UInt8} {addresses : List Nat} {state after : DecoderPluginsManager}
    (written : DecoderPluginsManager.writeFrames front countsPerBuffer samples bytes addresses
      state = some after) :
    (after.details front).soundDetails = (state.details front).soundDetails := by
  induction addresses generalizing state with
  | nil =>
    cases written
    rfl
  | cons address rest inductionHypothesis =>
    obtain ⟨buffer, -, following⟩ := Option.bind_eq_some_iff.mp written
    rw [inductionHypothesis following]
    simp [DecoderPluginsManager.modifyBuffer, DecoderPluginsManager.setDetails]

theorem decodeFrames_soundDetails {front : Nat} {frames : List (Int × List UInt8)}
    {state after : DecoderPluginsManager}
    (decoded : DecoderPluginsManager.decodeFrames front frames state = some after) :
    (after.details front).soundDetails = (state.details front).soundDetails := by
  induction frames generalizing state with
  | nil =>
    cases decoded
    rfl
  | cons frame rest inductionHypothesis =>
    obtain ⟨middle, written, following⟩ := Option.bind_eq_some_iff.mp decoded
    rw [inductionHypothesis following, writeFrames_soundDetails written]
    simp [DecoderPluginsManager.setDetails]

/-- The manager counts from the rounded sample. -/
theorem seekFront_counts {state after : DecoderPluginsManager} {front : Nat} {durationMs : Int}
    {frames : List (Int × List UInt8)}
    (sought : state.seekFront front durationMs frames = some after) :
    (after.details front).currentSamplesWritten =
      (state.details front).soundDetails.timeDurationToSamples (durationMs * 1000) := by
  obtain ⟨middle, decoded, rfl⟩ := Option.map_eq_some_iff.mp sought
  rw [← decodeFrames_soundDetails decoded]
  simp [DecoderPluginsManager.emit, DecoderPluginsManager.modifyBuffers,
    DecoderPluginsManager.setDetails]

/-- An entry that is changed is found again. -/
theorem find?_changeFirst {urlId : Int} {change : SoundDetails → SoundDetails}
    (kept : ∀ soundDet, (change soundDet).urlId = soundDet.urlId) (queue : List SoundDetails) :
    (SoundDetails.changeFirst urlId change queue).find? (fun soundDet => soundDet.urlId = urlId) =
      (queue.find? (fun soundDet => soundDet.urlId = urlId)).map change := by
  induction queue with
  | nil => rfl
  | cons soundDet rest inductionHypothesis =>
    rw [SoundDetails.changeFirst]
    by_cases same : soundDet.urlId = urlId
    · rw [if_pos same, List.find?_cons_of_pos (by simp [kept, same]),
        List.find?_cons_of_pos (by simp [same]), Option.map_some]
    · rw [if_neg same, List.find?_cons_of_neg (by simp [same]),
        List.find?_cons_of_neg (by simp [same]), inductionHypothesis]

/-- The output plugins count from the rounded sample. -/
theorem setSeekDuration_counts {Device : Type} {state : OutputPlugin Device} {urlId : Int}
    {queued : SoundDetails}
    (entry : state.soundDetailsQueue.find? (fun soundDet => soundDet.urlId = urlId) = some queued)
    (durationMs : Int) :
    outputCount (state.setSeekDurationInternal urlId durationMs) urlId =
      some (queued.timeDurationToSamples (durationMs * 1000)) := by
  simp only [outputCount, OutputPlugin.setSeekDurationInternal]
  rw [find?_changeFirst (fun soundDet => by rfl), entry]
  rfl

/-- Truncating and rounding give one sample exactly when less than a half is cut off. -/
theorem rounded_iff {soundDets : SoundDetails} {durationMs : Int}
    (rate : 1 ≤ soundDets.sampleRate) (time : 0 ≤ durationMs) :
    soundDets.timeDurationToSamples (durationMs * 1000) = sampleToSeek soundDets durationMs ↔
      soundDets.sampleRate * durationMs % 1000 < 500 := by
  obtain ⟨product, isProduct⟩ : ∃ product, product = soundDets.sampleRate * durationMs := ⟨_, rfl⟩
  have positive : 0 ≤ product := isProduct ▸ Int.mul_nonneg (by omega) time
  have scaled : durationMs * 1000 * soundDets.sampleRate = product * 1000 := by
    rw [isProduct, Int.mul_right_comm, Int.mul_comm durationMs]
  rw [SoundDetails.timeDurationToSamples, sampleToSeek, llroundDiv, scaled, ← isProduct,
    if_pos (by omega), Int.tdiv_eq_ediv_of_nonneg (by omega), Int.tdiv_eq_ediv_of_nonneg positive]
  omega

end Counts

/-- For every sample rate and seek time, the stream, the manager and an output plugin that
plays the track are at one sample after a seek exactly when the product of rate and
milliseconds is less than a half above a multiple of a thousand. -/
theorem agree_iff {Device : Type} (env : FlacSeekEnv) (state after : DecoderPluginsManager)
    (front : Nat) (frames : List (Int × List UInt8)) (output : OutputPlugin Device)
    (queued : SoundDetails) (urlId durationMs : Int)
    (rate : 1 ≤ (state.details front).soundDetails.sampleRate) (time : 0 ≤ durationMs)
    (sought : state.seekFront front durationMs frames = some after)
    (entry : output.soundDetailsQueue.find? (fun soundDet => soundDet.urlId = urlId) = some queued)
    (same : queued.sampleRate = (state.details front).soundDetails.sampleRate) :
    Agree (seekDuration env (state.details front).soundDetails durationMs).1
        (state.details front).soundDetails.totalSamples (after.details front).currentSamplesWritten
        (outputCount (output.setSeekDurationInternal urlId durationMs) urlId) ↔
      (state.details front).soundDetails.sampleRate * durationMs % 1000 < 500 := by
  obtain ⟨only, passed⟩ := seekDuration_passes env (state.details front).soundDetails durationMs
  have played : queued.timeDurationToSamples (durationMs * 1000) =
      (state.details front).soundDetails.timeDurationToSamples (durationMs * 1000) := by
    rw [SoundDetails.timeDurationToSamples, same]
    rfl
  rw [seekFront_counts sought, setSeekDuration_counts entry, played, ← rounded_iff rate time]
  constructor
  · intro agree
    exact (agree _ passed).1
  · rintro rounded sample member
    obtain rfl := only sample member
    rw [rounded]
    exact ⟨rfl, rfl, fun blocks ends => ⟨ends, congrArg some ends⟩⟩

/-- A track of a second in CD quality. -/
def oneSecond : SoundDetails := ⟨true, 44100, 0, 2, 44100, false, 16, 1, some 0⟩

/-- A manager with the track in front. -/
def decoding : DecoderPluginsManager :=
  { DecodeLoop.flacManager with
    decoderDetailList := [0]
    details := fun _ => { CurrentDecoderDetails.opened "" 0 with soundDetails := oneSecond } }

/-- An output plugin that plays the track. -/
def playing : OutputPlugin Unit where
  soundDetailsQueue := [oneSecond]
  prevSoundDetails := .default
  initApi := false
  currentState := .play
  useDuration := false
  maxMemorySizePerFile := 8
  maxChunkReadSize := 4
  cacheBufMgr := .make 0
  buffers := fun _ => CacheBuffer.make 8 4 0 0
  allocated := 0
  device := ()
  events := []
  removed := []

/-- A library that seeks at once. -/
def seeks : FlacSeekEnv := ⟨true, false, true, true⟩

/-- The manager of the track after a seek to a time. -/
def soughtTo (durationMs : Int) : DecoderPluginsManager :=
  (decoding.seekFront 0 durationMs []).getD decoding

/-- A seek to half a second. -/
theorem half_second :
    Agree (seekDuration seeks oneSecond 500).1 44100
      ((soughtTo 500).details 0).currentSamplesWritten
      (outputCount (playing.setSeekDurationInternal 1 500) 1) :=
  (agree_iff seeks decoding (soughtTo 500) 0 [] playing oneSecond 1 500 (by decide) (by decide) rfl
    rfl rfl).mpr (by decide)

/-- A seek to fifteen milliseconds: the stream is at sample 661, and the counts at 662. -/
theorem fifteen_milliseconds :
    (seekDuration seeks oneSecond 15).1 = [661] ∧
      ((soughtTo 15).details 0).currentSamplesWritten = 662 ∧
      outputCount (playing.setSeekDurationInternal 1 15) 1 = some 662 ∧
      ¬ Agree (seekDuration seeks oneSecond 15).1 44100
        ((soughtTo 15).details 0).currentSamplesWritten
        (outputCount (playing.setSeekDurationInternal 1 15) 1) := by
  refine ⟨by decide, by decide, by decide, fun agree => ?_⟩
  exact absurd (agree 661 (by decide)).1 (by decide)

end Mprt.SeekSamples
