import Mprt.LabelledRuns
import Mprt.HeldBytes
import Mprt.DecoderPluginsManager
import Mprt.OutputPluginAlsa
import Mprt.AlsaWrite

/-!
# The frames of a track that the device has accepted

The calls of `play` on the front track of the ALSA output plugin, from the end of
their wait for data to the progress report, with what the decoder writes between
them. `OutputPluginAlsa` takes the number of samples written in a call as given;
here it is what `poll_write` or `direct_write` returns for the answers of the
device.

A call that fails returns before it erases anything. What the device had accepted
in the same call before the failure is still in the buffer then, and is written
again by the next call.
-/

namespace Mprt.AlsaFrames

open AlsaWrite

/-- The front track with its buffer and `_poll_init`, whether it has been popped,
and as histories the bytes decoded, accepted by the device and erased by `play`. -/
structure Track where
  soundDets : SoundDetails
  buffer : CacheBuffer
  pollInit : Bool
  popped : Bool
  decoded : List UInt8
  accepted : List UInt8
  erased : List UInt8
deriving DecidableEq

inductive Action where
  | play (env : AlsaEnv) (answers : List Answer)
  | decoderWrite (oneSampleToByte totalSamples currentSamplesWritten : Int) (bytes : List UInt8)

/-- The bytes by which the write loops move their pointer for a frame. -/
def frameBytes (soundDets : SoundDetails) : Nat :=
  (soundDets.channels * soundDets.bps.tdiv 8).toNat

/-- `play` on a track with data: bytes that are no whole number of samples are not
written, and after a failed write nothing is erased. The branches of `play` that come
before are left out: the one of `init_alsa`, which drops a track for which the device
can not be set up, and the pop of a track that has no data at the end of the wait. -/
def play (usePoll : Bool) (env : AlsaEnv) (answers : List Answer) (track : Track) :
    Option Track :=
  match track.buffer.getDataPtr with
  | none => none
  | some (chunk, held) =>
    let holding := { track with buffer := held }
    let availBytesToWrite :=
      min (OutputPluginAlsa.alsaAvailableBytesToWrite env track.soundDets) chunk.second.size
    if availBytesToWrite.tmod (track.soundDets.samplesToBytes 1) ≠ 0 then
      if answers = [] then some holding else none
    else
      let needToWritten := (track.soundDets.bytesToSamples availBytesToWrite).toNat
      (write usePoll (frameBytes track.soundDets) track.pollInit answers chunk.second.items
        needToWritten).map (fun written =>
          let told := { holding with
            pollInit := written.pollInit
            accepted := track.accepted ++ written.accepted }
          if written.writtenSamples < 0 then told
          else
            let played := track.soundDets.addSamples written.writtenSamples
            let writtenBytes := (track.soundDets.samplesToBytes written.writtenSamples).toNat
            let isPlayFinished :=
              played.currentSamplesWrittenToSoundBuffer == played.totalSamples
            { told with
              soundDets := played
              buffer := (held.modifyData (·.eraseBegin writtenBytes)).putDataPtr isPlayFinished
              popped := isPlayFinished
              erased := track.erased ++ chunk.second.items.take writtenBytes })

/-- There are no more calls for a track that has been popped. -/
def step (usePoll : Bool) (track : Track) : Action → Option Track
  | .play env answers => if track.popped then none else play usePoll env answers track
  | .decoderWrite oneSampleToByte totalSamples currentSamplesWritten bytes =>
      if track.popped then none
      else
        (DecoderPluginsManager.writeFrame oneSampleToByte totalSamples currentSamplesWritten bytes
          track.buffer).map (fun buffer =>
            { track with buffer := buffer, decoded := track.decoded ++ bytes })

/-- A track that has come to the front with an empty buffer. -/
def start (soundDets : SoundDetails) (bufferSize elemSize : Nat)
    (cacheLastSize dataLastSize : Int) (pollInit : Bool) : Track :=
  { soundDets := soundDets
    buffer := CacheBuffer.make bufferSize elemSize cacheLastSize dataLastSize
    pollInit := pollInit
    popped := false
    decoded := []
    accepted := []
    erased := [] }

/-- A sample of a channel is a whole number of bytes, as both decoders make it. -/
structure WholeBytes (soundDets : SoundDetails) : Prop where
  channels : 0 < soundDets.channels
  bps : 0 < soundDets.bps
  whole : soundDets.bps % 8 = 0

/-- The accepted frames are exactly what has been erased, which is the first part
of what has been decoded, and the counter has grown by their number. -/
structure Played (begun : Int) (track : Track) : Prop where
  once : track.accepted = track.erased
  inOrder : track.erased <+: track.decoded
  counted : (track.soundDets.currentSamplesWrittenToSoundBuffer - begun) *
    track.soundDets.samplesToBytes 1 = track.accepted.length

/-- The device does not answer with an error that ends the call after it has
accepted a frame in the same call. -/
def FailsFirst (usePoll : Bool) : Action → Prop
  | .play _ answers => fails usePoll answers = true → accepts answers = false
  | .decoderWrite _ _ _ _ => True

instance (usePoll : Bool) (action : Action) : Decidable (FailsFirst usePoll action) := by
  unfold FailsFirst
  split <;> infer_instance

/-- The invariant of runs without such an error. -/
structure Invariant (begun : Int) (track : Track) : Prop where
  whole : WholeBytes track.soundDets
  played : Played begun track
  holds : track.popped = false →
    ∃ content, Holds track.buffer content ∧ track.decoded = track.erased ++ content

/-- The bytes of a frame are those by which the write loops move their pointer. -/
theorem WholeBytes.frame {soundDets : SoundDetails} (whole : WholeBytes soundDets) :
    0 < frameBytes soundDets ∧
      (soundDets.channels * soundDets.bps).tdiv 8 = (frameBytes soundDets : Nat) := by
  obtain ⟨channels, bps, multiple⟩ := whole
  obtain ⟨width, bytes⟩ : ∃ width, soundDets.bps = 8 * width := ⟨soundDets.bps / 8, by omega⟩
  have sample : soundDets.bps.tdiv 8 = width := by
    rw [bytes, Int.mul_tdiv_cancel_left _ (by decide)]
  have some : 0 < soundDets.channels * width := Int.mul_pos channels (by omega)
  have natural : ((frameBytes soundDets : Nat) : Int) = soundDets.channels * width := by
    rw [frameBytes, sample]
    exact Int.toNat_of_nonneg (Int.le_of_lt some)
  refine ⟨by omega, ?_⟩
  rw [natural, bytes, Int.mul_left_comm, Int.mul_tdiv_cancel_left _ (by decide)]

theorem WholeBytes.samplesToBytes {soundDets : SoundDetails} (whole : WholeBytes soundDets)
    (count : Nat) : soundDets.samplesToBytes count = (count * frameBytes soundDets : Nat) := by
  rw [SoundDetails.samplesToBytes, whole.frame.2, Int.natCast_mul]
  split
  · rename_i notPositive
    have zero : (count : Int) = 0 := by omega
    rw [zero, Int.zero_mul]
  · rfl

/-- The samples to be written are in the chunk. -/
theorem WholeBytes.bytesToSamples {soundDets : SoundDetails} (whole : WholeBytes soundDets)
    {bytes : Int} {size : Nat} (within : bytes ≤ size) :
    (soundDets.bytesToSamples bytes).toNat * frameBytes soundDets ≤ size := by
  rw [SoundDetails.bytesToSamples, whole.frame.2]
  split
  · simp
  · rename_i positive
    obtain ⟨count, same⟩ : ∃ count : Nat, bytes = count := ⟨bytes.toNat, by omega⟩
    rw [same, ← Int.ofNat_tdiv, Int.toNat_natCast]
    exact Nat.le_trans (Nat.div_mul_le_self count _) (by omega)

/-- Frames that are counted with their bytes keep the counter and the bytes in step. -/
theorem WholeBytes.counted_add {soundDets : SoundDetails} (whole : WholeBytes soundDets)
    {counter begun : Int} {length : Nat} (count : Nat)
    (counted : (counter - begun) * soundDets.samplesToBytes 1 = length) :
    (counter + count - begun) * soundDets.samplesToBytes 1 =
      (length + count * frameBytes soundDets : Nat) := by
  have one := whole.samplesToBytes 1
  rw [Nat.one_mul] at one
  have grown : counter + count - begun = counter - begun + count := by omega
  rw [grown, Int.add_mul, counted, Int.natCast_add, Int.natCast_mul]
  exact congrArg _ (congrArg _ one)

/-- What the decoder writes is appended to what the buffer holds. -/
theorem writeFrame_holds {oneSampleToByte totalSamples currentSamplesWritten : Int}
    {bytes content : List UInt8} {before after : CacheBuffer} (holds : Holds before content)
    (wrote : DecoderPluginsManager.writeFrame oneSampleToByte totalSamples currentSamplesWritten
      bytes before = some after) : Holds after (content ++ bytes) := by
  rw [DecoderPluginsManager.writeFrame, Option.map_eq_some_iff] at wrote
  obtain ⟨⟨chunk, held⟩, found, rfl⟩ := wrote
  obtain ⟨⟨rest, front⟩, _⟩ := CacheBuffer.getCachePtr_some found
  have fronts := BoundedQueue.front_eq_some_iff.mpr ⟨rest, front⟩
  simp only [CacheBuffer.getCachePtr, CacheBuffer.getGenPtr, fronts, Option.map_some,
    Option.some.injEq, Prod.mk.injEq, true_and] at found
  subst found
  apply holds.fill front
  · rfl
  · rfl
  · rfl
  · rfl
  · exact DecoderPluginsManager.fillFrame_items bytes chunk

section Calls

variable {usePoll : Bool} {env : AlsaEnv} {answers : List Answer} {begun : Int}
  {track next : Track} {chunk : Chunk} {held : CacheBuffer} {written : AlsaWrite.Written}

/-- The bytes that a call could write. -/
def availBytesToWrite (env : AlsaEnv) (soundDets : SoundDetails) (chunk : Chunk) : Int :=
  min (OutputPluginAlsa.alsaAvailableBytesToWrite env soundDets) chunk.second.size

/-- After a failed write the track has all its data, whatever has been accepted. -/
def afterFailure (track : Track) (held : CacheBuffer) (written : AlsaWrite.Written) : Track :=
  { track with
    buffer := held
    pollInit := written.pollInit
    accepted := track.accepted ++ written.accepted }

/-- After a write the track has its new counter, and loses the bytes written. -/
def afterWrite (track : Track) (chunk : Chunk) (held : CacheBuffer)
    (written : AlsaWrite.Written) : Track :=
  let played := track.soundDets.addSamples written.writtenSamples
  let writtenBytes := (track.soundDets.samplesToBytes written.writtenSamples).toNat
  let isPlayFinished := played.currentSamplesWrittenToSoundBuffer == played.totalSamples
  { afterFailure track held written with
    soundDets := played
    buffer := (held.modifyData (·.eraseBegin writtenBytes)).putDataPtr isPlayFinished
    popped := isPlayFinished
    erased := track.erased ++ chunk.second.items.take writtenBytes }

/-- What a call of `play` does. -/
theorem play_cases (played : play usePoll env answers track = some next) :
    ∃ chunk held, track.buffer.getDataPtr = some (chunk, held) ∧
      (((availBytesToWrite env track.soundDets chunk).tmod (track.soundDets.samplesToBytes 1) ≠ 0 ∧
          answers = [] ∧ next = { track with buffer := held }) ∨
        ((availBytesToWrite env track.soundDets chunk).tmod (track.soundDets.samplesToBytes 1) = 0 ∧
          ∃ written, write usePoll (frameBytes track.soundDets) track.pollInit answers
              chunk.second.items (track.soundDets.bytesToSamples
                (availBytesToWrite env track.soundDets chunk)).toNat = some written ∧
            ((written.writtenSamples < 0 ∧ next = afterFailure track held written) ∨
              (¬ written.writtenSamples < 0 ∧ next = afterWrite track chunk held written)))) := by
  simp only [play] at played
  cases found : track.buffer.getDataPtr with
  | none => simp [found] at played
  | some result =>
    obtain ⟨chunk, held⟩ := result
    simp only [found] at played
    refine ⟨chunk, held, rfl, ?_⟩
    split at played
    · rename_i partly
      split at played
      · rename_i silent
        exact Or.inl ⟨partly, silent, (Option.some.inj played).symm⟩
      · contradiction
    · rename_i whole
      rw [Option.map_eq_some_iff] at played
      obtain ⟨written, wrote, ended⟩ := played
      refine Or.inr ⟨not_not.mp whole, written, wrote, ?_⟩
      by_cases failed : written.writtenSamples < 0
      · rw [if_pos failed] at ended
        exact Or.inl ⟨failed, ended.symm⟩
      · rw [if_neg failed] at ended
        exact Or.inr ⟨failed, ended.symm⟩

/-- A call keeps the invariant when it fails before the device has accepted a frame;
otherwise frames are accepted that have not been erased. -/
theorem afterFailure_exact (written : AlsaWrite.Written) (invariant : Invariant begun track)
    (active : track.popped = false) (found : track.buffer.getDataPtr = some (chunk, held)) :
    Invariant begun (afterFailure track held written) ∧ written.accepted = [] ∨
      written.accepted ≠ [] ∧ ¬ Played begun (afterFailure track held written) := by
  obtain ⟨whole, ⟨once, inOrder, counted⟩, holds⟩ := invariant
  obtain ⟨content, holding, decoded⟩ := holds active
  by_cases nothing : written.accepted = []
  · left
    rw [afterFailure, nothing, List.append_nil]
    exact ⟨⟨whole, ⟨once, inOrder, counted⟩,
      fun _ => ⟨content, holding.look found, decoded⟩⟩, rfl⟩
  · right
    refine ⟨nothing, fun played => nothing ?_⟩
    have same : track.accepted ++ written.accepted = track.erased := played.once
    rw [once] at same
    exact List.append_right_eq_self.mp same

/-- A call keeps the invariant when it erases the frames that the device has accepted. -/
theorem afterWrite_invariant {count : Nat} (invariant : Invariant begun track)
    (active : track.popped = false) (found : track.buffer.getDataPtr = some (chunk, held))
    (taken : written.accepted = chunk.second.items.take (count * frameBytes track.soundDets))
    (length : written.accepted.length = count * frameBytes track.soundDets)
    (total : written.writtenSamples = count) :
    Invariant begun (afterWrite track chunk held written) := by
  obtain ⟨whole, ⟨once, inOrder, counted⟩, holds⟩ := invariant
  obtain ⟨content, holding, decoded⟩ := holds active
  have bytes : (track.soundDets.samplesToBytes written.writtenSamples).toNat =
      count * frameBytes track.soundDets := by
    rw [total, whole.samplesToBytes, Int.toNat_natCast]
  obtain ⟨later, split, erased⟩ := holding.erase (count * frameBytes track.soundDets) found
  refine ⟨⟨whole.channels, whole.bps, whole.whole⟩, ⟨?_, ?_, ?_⟩, ?_⟩
  · simp only [afterWrite, afterFailure, bytes]
    rw [once, taken]
  · simp only [afterWrite, afterFailure, bytes]
    rw [decoded, split, ← List.append_assoc]
    exact List.prefix_append _ _
  · change (track.soundDets.currentSamplesWrittenToSoundBuffer + written.writtenSamples -
      begun) * track.soundDets.samplesToBytes 1 = (track.accepted ++ written.accepted).length
    rw [total, List.length_append, length]
    exact whole.counted_add count counted
  · intro unfinished
    simp only [afterWrite] at unfinished
    simp only [afterWrite, afterFailure, bytes, unfinished]
    exact ⟨later, erased, by rw [decoded, split, List.append_assoc]⟩

/-- A call of `play` keeps the invariant when no error follows an accepted frame,
and otherwise leaves frames accepted that it has not erased. -/
theorem play_exact (invariant : Invariant begun track) (active : track.popped = false)
    (played : play usePoll env answers track = some next) :
    (FailsFirst usePoll (.play env answers) → Invariant begun next) ∧
      (Played begun next → FailsFirst usePoll (.play env answers)) := by
  obtain ⟨chunk, held, found, ⟨_, silent, rfl⟩ | ⟨_, written, wrote, ended⟩⟩ := play_cases played
  · obtain ⟨content, holding, decoded⟩ := invariant.holds active
    refine ⟨fun _ => ⟨invariant.whole, ?_, fun _ => ⟨content, holding.look found, decoded⟩⟩, ?_⟩
    · exact ⟨invariant.played.once, invariant.played.inOrder, invariant.played.counted⟩
    · intro _ _
      rw [silent]
      rfl
  · obtain ⟨count, within, taken, some, outcome⟩ := write_accounts wrote
    rw [List.nil_append] at taken
    have fits : count * frameBytes track.soundDets ≤ chunk.second.items.length :=
      Nat.le_trans (Nat.mul_le_mul_right _ within)
        (invariant.whole.bytesToSamples (Int.min_le_right _ _))
    have length : written.accepted.length = count * frameBytes track.soundDets := by
      rw [taken, List.length_take, Nat.min_eq_left fits]
    have accepted : written.accepted = [] ↔ accepts answers = false := by
      rw [← List.length_eq_zero_iff, length, Nat.mul_eq_zero, ← Bool.not_eq_true, ← some]
      have positive := invariant.whole.frame.1
      omega
    rcases outcome with ⟨failed, negative⟩ | ⟨succeeded, total⟩
    · obtain ⟨_, rfl⟩ | ⟨returned, _⟩ := ended
      · obtain ⟨kept, nothing⟩ | ⟨something, unplayed⟩ :=
          afterFailure_exact written invariant active found
        · exact ⟨fun _ => kept, fun _ _ => accepted.mp nothing⟩
        · exact ⟨fun first => absurd (accepted.mpr (first failed)) something,
            fun played => absurd played unplayed⟩
      · contradiction
    · rw [Int.zero_add] at total
      obtain ⟨negative, _⟩ | ⟨_, rfl⟩ := ended
      · omega
      · refine ⟨fun _ => afterWrite_invariant invariant active found taken length total, ?_⟩
        intro _ failed
        rw [succeeded] at failed
        contradiction

end Calls

/-- After a write the front track has its new counter and buffer, unless it has been
played to its end and is popped. -/
theorem advance_track {env : AlsaEnv} {current : SoundDetails} {rest : List SoundDetails}
    {plugin : OutputPlugin AlsaDevice} (front : plugin.soundDetailsQueue = current :: rest)
    (address : Nat) (held : CacheBuffer) :
    let played := current.addSamples env.writtenSamples
    let isPlayFinished := played.currentSamplesWrittenToSoundBuffer == played.totalSamples
    let after := OutputPluginAlsa.advance env current address held plugin
    (isPlayFinished = false →
      after.buffers address = (held.modifyData (·.eraseBegin
          (current.samplesToBytes env.writtenSamples).toNat)).putDataPtr isPlayFinished ∧
        after.soundDetailsQueue = played :: rest) ∧
      (isPlayFinished = true → after.soundDetailsQueue = rest) := by
  intro played isPlayFinished after
  have given : ∀ (state : OutputPlugin AlsaDevice) (urlId : Int),
      (state.giveCacheBufBack urlId).soundDetailsQueue = state.soundDetailsQueue := by
    intro state urlId
    simp only [OutputPlugin.giveCacheBufBack, OutputPlugin.clearBuffer]
    split <;> rfl
  constructor
  · intro unfinished
    simp only [after, OutputPluginAlsa.advance, played, isPlayFinished] at unfinished ⊢
    simp only [unfinished, Bool.false_eq_true, if_false]
    split <;> simp [OutputPlugin.setBuffer, OutputPlugin.setTop, OutputPlugin.callProgress,
      OutputPlugin.emit, front]
  · intro finished
    simp only [after, OutputPluginAlsa.advance, played, isPlayFinished] at finished ⊢
    simp only [finished, if_true, OutputPluginAlsa.finishTrack]
    split <;> simp [given, OutputPlugin.setBuffer, OutputPlugin.setTop, OutputPlugin.callProgress,
      OutputPlugin.emit, front, OutputPlugin.decoderPlayFinished, OutputPlugin.soundDetailsPop]

/-- The plugin's `play`, given the number of samples that the call returns, does to
its front track what `play` does here: the track has the same buffer and counter
until it is popped, and it is popped by the same calls. -/
theorem playData_of_play {usePoll : Bool} {env : AlsaEnv} {answers : List Answer}
    {track next : Track} {plugin : OutputPlugin AlsaDevice} {rest : List SoundDetails}
    {address : Nat} (front : plugin.soundDetailsQueue = track.soundDets :: rest)
    (buffered : plugin.buffers address = track.buffer) (active : track.popped = false)
    (played : play usePoll env answers track = some next) :
    ∃ writtenSamples after, OutputPluginAlsa.playData { env with writtenSamples := writtenSamples }
        track.soundDets address plugin = some after ∧
      (next.popped = false → after.buffers address = next.buffer ∧
        after.soundDetailsQueue = next.soundDets :: rest) ∧
      (next.popped = true → after.soundDetailsQueue = rest) := by
  obtain ⟨chunk, held, found, ⟨partly, _, rfl⟩ | ⟨whole, written, _, ended⟩⟩ := play_cases played
  · refine ⟨0, plugin.setBuffer address held, ?_, fun _ => ⟨?_, front⟩, ?_⟩
    · simp only [OutputPluginAlsa.playData, buffered, found]
      exact if_pos (.inl partly)
    · simp [OutputPlugin.setBuffer]
    · simp [active]
  · refine ⟨written.writtenSamples, ?_⟩
    obtain ⟨failed, rfl⟩ | ⟨returned, rfl⟩ := ended
    · refine ⟨plugin.setBuffer address held, ?_, fun _ => ⟨?_, front⟩, ?_⟩
      · simp only [OutputPluginAlsa.playData, buffered, found]
        exact if_pos (.inr failed)
      · simp [OutputPlugin.setBuffer, afterFailure]
      · simp [active, afterFailure]
    · have neither : ¬ ((availBytesToWrite { env with writtenSamples := written.writtenSamples }
          track.soundDets chunk).tmod (track.soundDets.samplesToBytes 1) ≠ 0 ∨
            written.writtenSamples < 0) := by
        rw [not_or, not_not]
        exact ⟨whole, returned⟩
      have looked : (plugin.setBuffer address held).soundDetailsQueue =
          track.soundDets :: rest := front
      have tracked := @advance_track { env with writtenSamples := written.writtenSamples }
        track.soundDets rest (plugin.setBuffer address held) looked address held
      refine ⟨_, ?_, tracked⟩
      simp only [OutputPluginAlsa.playData, buffered, found]
      exact if_neg neither

/-- What the decoder writes keeps the invariant. -/
theorem decoderWrite_invariant {begun oneSampleToByte totalSamples currentSamplesWritten : Int}
    {bytes : List UInt8} {track : Track} {buffer : CacheBuffer} (invariant : Invariant begun track)
    (active : track.popped = false)
    (wrote : DecoderPluginsManager.writeFrame oneSampleToByte totalSamples currentSamplesWritten
      bytes track.buffer = some buffer) :
    Invariant begun { track with buffer := buffer, decoded := track.decoded ++ bytes } := by
  obtain ⟨whole, ⟨once, inOrder, counted⟩, holds⟩ := invariant
  obtain ⟨content, held, decoded⟩ := holds active
  refine ⟨whole, ⟨once, inOrder.trans (List.prefix_append _ _), counted⟩, fun _ => ?_⟩
  exact ⟨content ++ bytes, writeFrame_holds held wrote, by rw [decoded, List.append_assoc]⟩

/-- A track at the front with an empty buffer meets the invariant. -/
theorem start_invariant {soundDets : SoundDetails} (whole : WholeBytes soundDets)
    (bufferSize elemSize : Nat) (cacheLastSize dataLastSize : Int) (pollInit : Bool) :
    Invariant soundDets.currentSamplesWrittenToSoundBuffer
      (start soundDets bufferSize elemSize cacheLastSize dataLastSize pollInit) := by
  refine ⟨whole, ⟨rfl, List.nil_prefix, ?_⟩, fun _ => ?_⟩
  · simp [start]
  · exact ⟨[], Holds.make bufferSize elemSize cacheLastSize dataLastSize, rfl⟩

/-- In every sequence of calls on a track and writes of the decoder, with whatever
answers of the device, every frame has been played once after every call exactly
when no call ends in an error after a frame has been accepted in it. -/
theorem frames_played_iff (usePoll : Bool) (soundDets : SoundDetails) (whole : WholeBytes soundDets)
    (bufferSize elemSize : Nat) (cacheLastSize dataLastSize : Int) (pollInit : Bool)
    (actions : List Action) (finish : Track)
    (ran : LabelledRuns.run (step usePoll)
      (start soundDets bufferSize elemSize cacheLastSize dataLastSize pollInit) actions =
        some finish) :
    LabelledRuns.Along (step usePoll)
        (fun _ _ next => Played soundDets.currentSamplesWrittenToSoundBuffer next)
        (start soundDets bufferSize elemSize cacheLastSize dataLastSize pollInit) actions ↔
      LabelledRuns.Meets (step usePoll) (fun _ action => FailsFirst usePoll action)
        (start soundDets bufferSize elemSize cacheLastSize dataLastSize pollInit) actions := by
  have exact : ∀ track action next, Invariant soundDets.currentSamplesWrittenToSoundBuffer track →
      step usePoll track action = some next →
        (FailsFirst usePoll action →
          Invariant soundDets.currentSamplesWrittenToSoundBuffer next) ∧
        (Played soundDets.currentSamplesWrittenToSoundBuffer next →
          FailsFirst usePoll action) := by
    intro track action next invariant taken
    cases action with
    | play env answers =>
      simp only [step] at taken
      split at taken
      · contradiction
      · rename_i active
        exact play_exact invariant (Bool.eq_false_iff.mpr active) taken
    | decoderWrite oneSampleToByte totalSamples currentSamplesWritten bytes =>
      simp only [step] at taken
      split at taken
      · contradiction
      · rename_i active
        rw [Option.map_eq_some_iff] at taken
        obtain ⟨buffer, wrote, rfl⟩ := taken
        exact ⟨fun _ => decoderWrite_invariant invariant (Bool.eq_false_iff.mpr active) wrote,
          fun _ => trivial⟩
  refine LabelledRuns.along_iff_meets ?_ ?_ (start_invariant whole bufferSize elemSize
    cacheLastSize dataLastSize pollInit) ran
  · intro track action next invariant taken
    obtain ⟨keeps, needs⟩ := exact track action next invariant taken
    exact ⟨needs, fun first => (keeps first).played⟩
  · intro track action next invariant taken played
    obtain ⟨keeps, needs⟩ := exact track action next invariant taken
    exact keeps (needs played)

/-- A mono track of 8-bit samples that has not been played. -/
def monoTrack : SoundDetails := ⟨true, 8, 0, 1, 44100, false, 8, 1, some 0⟩

/-- A device with place for four frames. -/
def fourFrames : AlsaEnv := ⟨false, none, true, true, [], 4, 0⟩

/-- A short write with an underrun behind it loses and repeats nothing. -/
theorem frames_played_iff_underrun :
    LabelledRuns.Along (step true) (fun _ _ next => Played 0 next)
      (start monoTrack 8 4 0 0 true)
      [.decoderWrite 1 8 4 [1, 2, 3, 4],
        .play fourFrames [.writei 2, .pcmState .running, .poll false true, .writei (-epipe)],
        .play fourFrames [.writei 2, .pcmState .running]] := by
  have ran : ∃ finish, LabelledRuns.run (step true) (start monoTrack 8 4 0 0 true)
      [.decoderWrite 1 8 4 [1, 2, 3, 4],
        .play fourFrames [.writei 2, .pcmState .running, .poll false true, .writei (-epipe)],
        .play fourFrames [.writei 2, .pcmState .running]] = some finish := ⟨_, rfl⟩
  obtain ⟨finish, ran⟩ := ran
  exact (frames_played_iff true monoTrack ⟨by decide, by decide, by decide⟩ 8 4 0 0 true _ finish
    ran).mpr (by decide)

/-- When `EAGAIN` follows a short write in `poll_write`, the next call writes the
frames again that the device has accepted. -/
theorem frames_accepted_twice :
    ∃ finish, LabelledRuns.run (step true) (start monoTrack 8 4 0 0 true)
        [.decoderWrite 1 8 4 [1, 2, 3, 4],
          .play fourFrames [.writei 2, .pcmState .running, .poll false true, .writei (-eagain)],
          .play fourFrames [.poll false true, .writei 4, .pcmState .running]] = some finish ∧
      finish.accepted = [1, 2, 1, 2, 3, 4] ∧ finish.erased = [1, 2, 3, 4] ∧ ¬ Played 0 finish := by
  refine ⟨_, rfl, rfl, rfl, ?_⟩
  intro played
  exact absurd played.once (by decide)

end Mprt.AlsaFrames
