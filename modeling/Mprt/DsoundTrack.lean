import Mprt.AlsaFrames
import Mprt.DsoundMemory

/-!
# A track in the DirectSound output plugin

The front track, from the writes of the decoder to what the device plays. A call of `play` takes
bytes out of the buffer of the track, as many as are taken to be free in the ring or all that
there are, and counts the whole samples among them. The track is reported as played when the
counter is at the number of its samples.

What is heard is what was decoded, in order and once. Whether the end is noticed is another
matter: a call that takes a part of a sample does not count it, and no later call does.
-/

namespace Mprt.DsoundTrack

open OutputPluginDsound
open DsoundMemory (ringLock playCopies Sounds)
open AlsaFrames (WholeBytes frameBytes writeFrame_holds)

/-- The front track with its buffer and the ring, and whether it was reported. As histories, the
bytes decoded and those taken out of the buffer. -/
structure Track where
  sound : DsoundMemory.State
  soundDets : SoundDetails
  buffer : CacheBuffer
  reported : Bool
  decoded : List UInt8
  taken : List UInt8

/-- The device plays, a call of `play` finds the buffer locked or not and can unlock it or not, or
the decoder writes. -/
inductive Action where
  | advance (bytes : Int)
  | play (locks unlocks : Bool)
  | decoderWrite (oneSampleToByte totalSamples currentSamplesWritten : Int) (bytes : List UInt8)

/-- What a call of `play` copies, and the buffer after it. -/
def Track.copies (track : Track) (locks : Bool) :
    Option (Option ((List UInt8 × List UInt8) × CacheBuffer)) :=
  playCopies (ringLock track.sound.ring.device.dsoundBufferSize locks) track.sound.ring.playOffset
    track.sound.ring.device track.buffer

/-- The track when a call has copied bytes. The end is looked for once they are unlocked. -/
def Track.copied (track : Track) (sound : DsoundMemory.State) (regions : List UInt8 × List UInt8)
    (buffer : CacheBuffer) (unlocks : Bool) : Track :=
  let totalWrittenBytes : Int := regions.1.length + regions.2.length
  let played := track.soundDets.addSamples (track.soundDets.bytesToSamples totalWrittenBytes)
  { track with
    sound := sound
    soundDets := played
    buffer := buffer
    reported := unlocks && played.currentSamplesWrittenToSoundBuffer == played.totalSamples
    taken := track.taken ++ (regions.1 ++ regions.2) }

/-- A reported track leaves the queue. The device goes on. -/
def step (track : Track) : Action → Option Track
  | .advance bytes =>
      (DsoundMemory.step track.sound (.advance bytes)).map (fun sound =>
        { track with sound := sound })
  | .play locks unlocks =>
      if track.reported then none
      else (track.copies locks).bind (fun copied =>
        match copied with
        | none => some track
        | some (regions, buffer) =>
            (DsoundMemory.step track.sound (.play track.buffer locks unlocks)).map (fun sound =>
              track.copied sound regions buffer unlocks))
  | .decoderWrite oneSampleToByte totalSamples currentSamplesWritten bytes =>
      if track.reported then none
      else (DecoderPluginsManager.writeFrame oneSampleToByte totalSamples currentSamplesWritten
        bytes track.buffer).map (fun buffer =>
          { track with buffer := buffer, decoded := track.decoded ++ bytes })

/-- A track at the front with an empty buffer, and a ring with anything in it. -/
def start (soundDets : SoundDetails) (device : DsoundDevice) (memory : List UInt8)
    (bufferSize elemSize : Nat) (cacheLastSize dataLastSize : Int) : Track where
  sound := DsoundMemory.started device memory
  soundDets := soundDets
  buffer := CacheBuffer.make bufferSize elemSize cacheLastSize dataLastSize
  reported := false
  decoded := []
  taken := []

/-- A call takes whole samples. -/
def WholeSamples (track : Track) : Action → Prop
  | .play locks _ => ∀ copied ∈ (track.copies locks).join,
      frameBytes track.soundDets ∣ copied.1.1.length + copied.1.2.length
  | _ => True

instance (track : Track) (action : Action) : Decidable (WholeSamples track action) :=
  match action with
  | .advance _ => inferInstanceAs (Decidable True)
  | .play _ _ => inferInstanceAs (Decidable (∀ copied ∈ Option.join _, _))
  | .decoderWrite _ _ _ _ => inferInstanceAs (Decidable True)

/-- A call does not find a full ring, and the device takes back what it locked. -/
def Delivers (track : Track) : Action → Prop
  | .play _ unlocks => unlocks = true ∧
      track.sound.ring.unplayed < track.sound.ring.device.dsoundBufferSize
  | _ => True

instance (track : Track) (action : Action) : Decidable (Delivers track action) :=
  match action with
  | .advance _ => inferInstanceAs (Decidable True)
  | .play _ _ => inferInstanceAs (Decidable (_ ∧ _))
  | .decoderWrite _ _ _ _ => inferInstanceAs (Decidable True)

/-- What was taken is the first part of what was decoded, and the buffer has the rest. -/
structure Invariant (given : SoundDetails) (track : Track) : Prop where
  details : track.soundDets = { given with
    currentSamplesWrittenToSoundBuffer := track.soundDets.currentSamplesWrittenToSoundBuffer }
  content : ∃ content, Holds track.buffer content ∧ track.decoded = track.taken ++ content

/-- The ring has what was taken, and the end was reported when the counter reached it. -/
structure Sounding (track : Track) : Prop where
  sounds : Sounds track.sound
  written : track.sound.written = track.taken
  reported : track.reported = true ↔
    track.soundDets.currentSamplesWrittenToSoundBuffer = track.soundDets.totalSamples

/-- The bytes that were taken and are not counted. -/
def uncounted (given : SoundDetails) (track : Track) : Int :=
  track.taken.length - (track.soundDets.currentSamplesWrittenToSoundBuffer -
    given.currentSamplesWrittenToSoundBuffer) * frameBytes given

section Steps

variable {given : SoundDetails} {track next : Track} {action : Action}

/-- What a step does. -/
theorem step_cases (taken : step track action = some next) :
    (∃ bytes sound, action = .advance bytes ∧
        DsoundMemory.step track.sound (.advance bytes) = some sound ∧
        next = { track with sound := sound }) ∨
      (∃ locks unlocks, action = .play locks unlocks ∧ track.copies locks = some none ∧
        next = track) ∨
      (∃ locks unlocks regions buffer sound, action = .play locks unlocks ∧
        track.copies locks = some (some (regions, buffer)) ∧
        DsoundMemory.step track.sound (.play track.buffer locks unlocks) = some sound ∧
        next = track.copied sound regions buffer unlocks) ∨
      (∃ oneSampleToByte totalSamples currentSamplesWritten bytes buffer,
        action = .decoderWrite oneSampleToByte totalSamples currentSamplesWritten bytes ∧
        DecoderPluginsManager.writeFrame oneSampleToByte totalSamples currentSamplesWritten bytes
          track.buffer = some buffer ∧
        next = { track with buffer := buffer, decoded := track.decoded ++ bytes }) := by
  cases action with
  | advance bytes =>
    obtain ⟨sound, moved, rfl⟩ := Option.map_eq_some_iff.mp taken
    exact .inl ⟨bytes, sound, rfl, moved, rfl⟩
  | play locks unlocks =>
    simp only [step] at taken
    split at taken
    · cases taken
    · obtain ⟨copied, copies, ended⟩ := Option.bind_eq_some_iff.mp taken
      cases copied with
      | none =>
        obtain rfl := Option.some.inj ended
        exact .inr (.inl ⟨locks, unlocks, rfl, copies, rfl⟩)
      | some pair =>
        obtain ⟨regions, buffer⟩ := pair
        obtain ⟨sound, sounded, rfl⟩ := Option.map_eq_some_iff.mp ended
        exact .inr (.inr (.inl
          ⟨locks, unlocks, regions, buffer, sound, rfl, copies, sounded, rfl⟩))
  | decoderWrite oneSampleToByte totalSamples currentSamplesWritten bytes =>
    simp only [step] at taken
    split at taken
    · cases taken
    · obtain ⟨buffer, wrote, rfl⟩ := Option.map_eq_some_iff.mp taken
      exact .inr (.inr (.inr ⟨_, _, _, bytes, buffer, rfl, wrote, rfl⟩))

/-- The copied bytes are the first ones of the buffer. -/
theorem copies_takes {locks : Bool} {regions : List UInt8 × List UInt8} {after : CacheBuffer}
    {content : List UInt8} (holds : Holds track.buffer content)
    (copies : track.copies locks = some (some (regions, after))) :
    ∃ later, content = regions.1 ++ regions.2 ++ later ∧ Holds after later := by
  simp only [Track.copies, playCopies] at copies
  split at copies
  · cases copies
  · rename_i size1 size2 locked
    obtain ⟨⟨first, middle⟩, readFirst, copies⟩ := Option.bind_eq_some_iff.mp copies
    obtain ⟨rest, taken, remains⟩ := holds.write readFirst
    obtain ⟨⟨second, ended⟩, readSecond, pair⟩ := Option.map_eq_some_iff.mp copies
    obtain ⟨rfl, rfl⟩ := Prod.mk.inj (Option.some.inj pair)
    cases size2 with
    | none =>
      obtain ⟨rfl, rfl⟩ := Prod.mk.inj (Option.some.inj readSecond)
      exact ⟨rest, by simp [taken], remains⟩
    | some size2 =>
      obtain ⟨later, others, leaves⟩ := remains.write readSecond
      exact ⟨later, by rw [taken, others, List.append_assoc], leaves⟩

theorem step_invariant (invariant : Invariant given track) (taken : step track action = some next) :
    Invariant given next := by
  obtain ⟨details, content, holds, decoded⟩ := invariant
  rcases step_cases taken with ⟨_, _, _, _, rfl⟩ | ⟨_, _, _, _, rfl⟩ |
    ⟨locks, _, regions, buffer, _, _, copies, _, rfl⟩ | ⟨_, _, _, bytes, buffer, _, wrote, rfl⟩
  · exact ⟨details, content, holds, decoded⟩
  · exact ⟨details, content, holds, decoded⟩
  · obtain ⟨later, split, remains⟩ := copies_takes holds copies
    refine ⟨?_, later, remains, ?_⟩
    · simp only [Track.copied, SoundDetails.addSamples]
      rw [details]
    · simp only [Track.copied]
      rw [decoded, split, ← List.append_assoc track.taken]
  · exact ⟨details, content ++ bytes, writeFrame_holds holds wrote,
      by rw [decoded, List.append_assoc]⟩

theorem Invariant.frameBytes (invariant : Invariant given track) :
    frameBytes track.soundDets = AlsaFrames.frameBytes given := by
  rw [invariant.details]
  rfl

/-- A call counts the whole samples. -/
theorem bytesToSamples_eq (whole : WholeBytes given) (count : Nat) :
    given.bytesToSamples count = (count / frameBytes given : Nat) := by
  rw [SoundDetails.bytesToSamples, whole.frame.2]
  split
  · rename_i none
    have zero : count = 0 := by omega
    rw [zero, Nat.zero_div]
    rfl
  · exact Int.ofNat_tdiv count _

/-- A call that copies leaves a rest of its bytes uncounted. -/
theorem uncounted_copied (whole : WholeBytes given) (invariant : Invariant given track)
    (sound : DsoundMemory.State) (regions : List UInt8 × List UInt8) (buffer : CacheBuffer)
    (unlocks : Bool) :
    uncounted given (track.copied sound regions buffer unlocks) = uncounted given track +
      ((regions.1.length + regions.2.length) % frameBytes given : Nat) := by
  have samples : track.soundDets.bytesToSamples (regions.1.length + regions.2.length : Nat) =
      ((regions.1.length + regions.2.length) / frameBytes given : Nat) := by
    rw [← bytesToSamples_eq whole, invariant.details]
    rfl
  rw [Int.natCast_add] at samples
  have counted := Nat.div_add_mod (regions.1.length + regions.2.length) (frameBytes given)
  simp only [uncounted, Track.copied, SoundDetails.addSamples, samples, List.length_append]
  generalize (regions.1.length + regions.2.length) / frameBytes given = quotient at counted ⊢
  generalize (regions.1.length + regions.2.length) % frameBytes given = rest at counted ⊢
  rw [Int.natCast_add, Int.natCast_add, ← Int.natCast_add regions.1.length, ← counted]
  have grown : track.soundDets.currentSamplesWrittenToSoundBuffer + (quotient : Int) -
      given.currentSamplesWrittenToSoundBuffer =
        track.soundDets.currentSamplesWrittenToSoundBuffer -
          given.currentSamplesWrittenToSoundBuffer + quotient := by omega
  rw [grown, Int.add_mul, Int.natCast_add, Int.natCast_mul, Int.mul_comm (quotient : Int)]
  omega

/-- No step counts a byte again, and the uncounted bytes stay as many when a call takes whole
samples. -/
theorem uncounted_step (whole : WholeBytes given) (invariant : Invariant given track)
    (taken : step track action = some next) :
    uncounted given track ≤ uncounted given next ∧
      (uncounted given next = uncounted given track ↔ WholeSamples track action) := by
  rcases step_cases taken with ⟨_, _, rfl, _, rfl⟩ | ⟨_, _, rfl, copies, rfl⟩ |
    ⟨locks, unlocks, regions, buffer, sound, rfl, copies, _, rfl⟩ | ⟨_, _, _, _, _, rfl, _, rfl⟩
  · exact ⟨Int.le_refl _, iff_of_true rfl trivial⟩
  · refine ⟨Int.le_refl _, iff_of_true rfl ?_⟩
    simp only [WholeSamples, copies]
    exact fun _ member => by cases member
  · rw [uncounted_copied whole invariant]
    have same : WholeSamples track (.play locks unlocks) ↔
        frameBytes given ∣ regions.1.length + regions.2.length := by
      simp only [WholeSamples, copies, invariant.frameBytes]
      exact ⟨fun each => each _ rfl, fun divides _ member => by
        obtain rfl := Option.some.inj member
        exact divides⟩
    rw [same, Nat.dvd_iff_mod_eq_zero]
    omega
  · exact ⟨Int.le_refl _, iff_of_true rfl trivial⟩

/-- A call that delivers finds the room that the ring needs. -/
theorem Delivers.findsRoom {locks unlocks : Bool} (delivers : Delivers track (.play locks unlocks))
    (invariant : Invariant given track) :
    DsoundMemory.FindsRoom track.sound (.play track.buffer locks unlocks) := by
  obtain ⟨content, holds, _⟩ := invariant.content
  refine ⟨?_, delivers.2⟩
  rw [CacheBuffer.totalBytesInBufferGuess, holds.counted]
  exact Int.natCast_nonneg _

/-- What `play` wrote into the ring. -/
theorem written_copied {locks : Bool} {regions : List UInt8 × List UInt8} {buffer : CacheBuffer}
    {sound : DsoundMemory.State} (copies : track.copies locks = some (some (regions, buffer)))
    (sounded : DsoundMemory.step track.sound (.play track.buffer locks true) = some sound) :
    sound.written = track.sound.written ++ (regions.1 ++ regions.2) := by
  rw [Track.copies] at copies
  simp only [DsoundMemory.step, copies, Option.bind_some, if_true] at sounded
  obtain ⟨ring, _, rfl⟩ := Option.map_eq_some_iff.mp sounded
  rfl

theorem step_sounding (sounding : Sounding track) (invariant : Invariant given track)
    (delivers : Delivers track action) (taken : step track action = some next) :
    Sounding next := by
  obtain ⟨sounds, written, reported⟩ := sounding
  rcases step_cases taken with ⟨bytes, sound, rfl, moved, rfl⟩ | ⟨_, _, rfl, copies, rfl⟩ |
    ⟨locks, unlocks, regions, buffer, sound, rfl, copies, sounded, rfl⟩ |
    ⟨_, _, _, _, _, rfl, _, rfl⟩
  · have room : DsoundMemory.FindsRoom track.sound (.advance bytes) := trivial
    refine ⟨DsoundMemory.step_preserves _ _ _ sounds room moved, ?_, reported⟩
    obtain ⟨ring, _, rfl⟩ := Option.map_eq_some_iff.mp moved
    exact written
  · exact ⟨sounds, written, reported⟩
  · have room := delivers.findsRoom invariant
    obtain rfl : unlocks = true := delivers.1
    refine ⟨DsoundMemory.step_preserves _ _ _ sounds room sounded, ?_, ?_⟩
    · simp only [Track.copied]
      rw [written_copied copies sounded, written]
    · simp only [Track.copied, Bool.true_and, beq_iff_eq]
  · exact ⟨sounds, written, reported⟩

/-- The ring after a call that copies. -/
theorem device_copied {locks unlocks : Bool} {regions : List UInt8 × List UInt8}
    {buffer : CacheBuffer} {sound : DsoundMemory.State}
    (copies : track.copies locks = some (some (regions, buffer)))
    (sounded : DsoundMemory.step track.sound (.play track.buffer locks unlocks) = some sound) :
    sound.ring.device = if unlocks then moveWriteOffset track.sound.ring.device
      (regions.1.length + regions.2.length) else track.sound.ring.device := by
  rw [Track.copies] at copies
  simp only [DsoundMemory.step, copies, Option.bind_some] at sounded
  cases unlocks with
  | false =>
    obtain rfl := Option.some.inj sounded
    rfl
  | true =>
    obtain ⟨ring, moved, rfl⟩ := Option.map_eq_some_iff.mp sounded
    rcases DsoundRing.step_cases moved with ⟨_, same, _⟩ | ⟨written, writes, _, _, rfl⟩
    · cases same
    · obtain rfl := Option.some.inj writes
      rfl

/-- Once the bytes are unlocked the ring moves on, and the end of the track is looked for. -/
theorem unlocked_front (env : DsoundEnv) (played : SoundDetails) (totalWrittenBytes : Int)
    (state : OutputPlugin DsoundDevice) :
    ∃ reached, reached.soundDetailsQueue = state.soundDetailsQueue ∧
      reached.buffers = state.buffers ∧
      reached.device = moveWriteOffset state.device totalWrittenBytes ∧
      if played.currentSamplesWrittenToSoundBuffer == played.totalSamples then
        unlocked env played totalWrittenBytes state =
          (finishTrack env played reached).map (fun ended =>
            if ended.isNoJob then { ended with currentState := .stop } else ended)
      else unlocked env played totalWrittenBytes state = some reached := by
  let moved := { state with
    device := moveWriteOffset state.device totalWrittenBytes }.callProgress played
  simp only [unlocked, beq_iff_eq]
  split
  · exact ⟨moved, rfl, rfl, rfl, rfl⟩
  · refine ⟨if moved.isNoJob then { moved with currentState := .stop } else moved,
      ?_, ?_, ?_, rfl⟩ <;> split <;> rfl

/-- `play` of the plugin does to its front track what a call does here: the track has the same
counter and buffer, and the ring is the same, until the end of the track is looked for. -/
theorem playData_of_play {plugin : OutputPlugin DsoundDevice} {rest : List SoundDetails}
    {address : Nat} {env : DsoundEnv} {locks : Bool}
    (front : plugin.soundDetailsQueue = track.soundDets :: rest)
    (buffered : plugin.buffers address = track.buffer)
    (device : plugin.device = track.sound.ring.device)
    (lock : env.lock = ringLock track.sound.ring.device.dsoundBufferSize locks)
    (playOffset : env.playOffset = track.sound.ring.playOffset)
    (taken : step track (.play locks env.unlock) = some next) :
    ∃ reached, reached.soundDetailsQueue = next.soundDets :: rest ∧
      reached.buffers address = next.buffer ∧ reached.device = next.sound.ring.device ∧
      if next.reported then
        playData env track.soundDets address plugin =
          (finishTrack env next.soundDets reached).map (fun ended =>
            if ended.isNoJob then { ended with currentState := .stop } else ended)
      else playData env track.soundDets address plugin = some reached := by
  have plays : playCopies env.lock env.playOffset plugin.device (plugin.buffers address) =
      track.copies locks := by
    rw [lock, playOffset, device, buffered]
    rfl
  have active : track.reported = false := by
    by_contra reported
    simp [step, reported] at taken
  rw [DsoundMemory.playData_copies, plays]
  rcases step_cases taken with ⟨_, _, same, _⟩ | ⟨_, _, same, copies, rfl⟩ |
    ⟨_, _, regions, buffer, sound, same, copies, sounded, rfl⟩ | ⟨_, _, _, _, _, same, _⟩
  · cases same
  · obtain ⟨rfl, _⟩ := Action.play.inj same
    refine ⟨plugin, front, buffered, device, ?_⟩
    rw [copies, active]
    rfl
  · obtain ⟨rfl, unlocks⟩ := Action.play.inj same
    have moved := device_copied copies sounded
    rw [← unlocks] at moved ⊢
    simp only [copies, Option.bind_some]
    cases unlocked : env.unlock with
    | false =>
      rw [unlocked] at moved
      refine ⟨_, ?_, ?_, ?_, rfl⟩
      · simp [OutputPlugin.setBuffer, OutputPlugin.setTop, front, Track.copied]
      · simp [OutputPlugin.setBuffer, Track.copied]
      · exact device.trans moved.symm
    | true =>
      rw [unlocked] at moved
      obtain ⟨reached, queue, buffers, ring, ended⟩ := unlocked_front env
        (track.soundDets.addSamples
          (track.soundDets.bytesToSamples (regions.1.length + regions.2.length)))
        (regions.1.length + regions.2.length)
        ((plugin.setTop (track.soundDets.addSamples
          (track.soundDets.bytesToSamples (regions.1.length + regions.2.length)))).setBuffer
            address buffer)
      refine ⟨reached, ?_, ?_, ?_, ended⟩
      · rw [queue]
        simp [OutputPlugin.setBuffer, OutputPlugin.setTop, front, Track.copied]
      · rw [buffers]
        simp [OutputPlugin.setBuffer, Track.copied]
      · rw [ring]
        exact (congrArg (moveWriteOffset · _) device).trans moved.symm
  · cases same

end Steps

/-- Four samples of two bytes. -/
def fourSamples : SoundDetails := ⟨true, 4, 0, 1, 44100, false, 16, 1, some 0⟩

/-- Two samples are decoded and fill the ring of four bytes. The device plays some of them before
the other two are taken out. -/
def twoByTwo (played : Int) : List Action :=
  [.decoderWrite 2 4 2 [1, 2, 3, 4], .play true true, .advance played,
    .decoderWrite 2 4 4 [5, 6, 7, 8], .play true true, .advance 3, .play true true]

end Mprt.DsoundTrack
