import Mprt.DecoderPluginsManager
import Mprt.FlacSamples
import Mprt.LabelledRuns

/-!
# The blocks of a FLAC stream in the output buffers

For each decoded block `write_callback` goes through the output buffers of the
track. It enlarges the front cache chunk where the block does not fit, pushes the
samples frame by frame, and puts the chunk back, rotated at the end of the song or
when no further frame fits.

Every output gets the block whole and behind what it has, and only whole frames go
to a data queue. The counter of written samples is raised in the loop over the
outputs, so that a block counts once for each of them: it follows the stream exactly
when there is one output at each block. Otherwise the song seems to end elsewhere,
and its total number of samples is corrected although it was right.
-/

namespace Mprt

/-- A decoded block: the number of its samples, and the samples of each channel. -/
structure FlacBlock where
  blocksize : Nat
  buffer : Nat → Nat → BitVec 32

namespace FlacTrack

open DecoderPluginsManager (writeFrame fillFrame)

/-- The two loops over the samples of a block. -/
def pushSamples (track : FlacTrack) (block : FlacBlock) (chunk : Chunk) : Chunk :=
  (List.range block.blocksize).foldl (fun filling index =>
    (List.range track.soundDetails.channels.toNat).foldl (fun filling channel =>
      filling.append (track.pushed (block.buffer channel index))) filling) chunk

/-- What `write_callback` does for one output; there is no result while its buffer
has no chunk. -/
def writeOutput (track : FlacTrack) (block : FlacBlock) (output : CacheBuffer) :
    Option (CacheBuffer × FlacTrack) :=
  let oneSampleToByte := track.soundDetails.samplesToBytes 1
  let totalBytesToWrite := oneSampleToByte * block.blocksize
  output.getCachePtr.map (fun found =>
    let counted :=
      { track with currentSamplesWritten := track.currentSamplesWritten + block.blocksize }
    let filled := counted.pushSamples block (FrameWrite.enlarge totalBytesToWrite found.1)
    (FrameWrite.putFilled oneSampleToByte counted.soundDetails.totalSamples
      counted.currentSamplesWritten filled found.2, counted))

/-- The loop over the outputs. -/
def writeOutputs (block : FlacBlock) :
    List CacheBuffer → FlacTrack → Option (List CacheBuffer × FlacTrack)
  | [], track => some ([], track)
  | output :: rest, track =>
    (track.writeOutput block output).bind (fun written =>
      (writeOutputs block rest written.2).map (fun further =>
        (written.1 :: further.1, further.2)))

def writeCallback (track : FlacTrack) (block : FlacBlock) : Option FlacTrack :=
  (writeOutputs block track.outputBufList track).map (fun written =>
    { written.2 with outputBufList := written.1 })

/-- The part of `finish_decode_internal_single` about the track itself. -/
def finishDecode (track : FlacTrack) : FlacTrack :=
  { track with
    soundDetails := FrameWrite.correctTotal track.currentSamplesWritten track.soundDetails
    outputBufList := track.outputBufList.map CacheBuffer.syncCache }

/-- The bytes of a frame. -/
def frameBytes (track : FlacTrack) : Nat := (track.soundDetails.samplesToBytes 1).toNat

/-- The bytes of a block, interleaved by frames. -/
def blockBytes (track : FlacTrack) (block : FlacBlock) : List UInt8 :=
  Interleaving.frames block.blocksize track.soundDetails.channels.toNat
    (fun index channel => track.pushed (block.buffer channel index))

/-- The format that `metadata_callback` announces: samples of a width that the union
has, and that all pushed samples have. -/
structure Announced (track : FlacTrack) (width : Nat) : Prop where
  bps : track.soundDetails.bps = 8 * width
  fits : width ≤ 4
  shifted : track.origBps = 24 → width = 4
  channels : 0 ≤ track.soundDetails.channels

/-- The opening of a stream announces its format. -/
theorem metadataCallback_announced (track : FlacTrack) (info : StreamInfo)
    (most : info.bitsPerSample ≤ 32) :
    ∃ width, (track.metadataCallback info).Announced width := by
  by_cases three : info.bitsPerSample = 24
  · have announced : (track.metadataCallback info).soundDetails.bps = 8 * (4 : Nat) := by
      rw [metadataCallback, three]
      rfl
    exact ⟨4, announced, Nat.le_refl 4, fun _ => rfl, Int.natCast_nonneg _⟩
  · obtain ⟨width, fits, announced, _⟩ := announced_width track info most three
    have unshifted : (track.metadataCallback info).origBps ≠ 24 := by
      simp only [metadataCallback]
      exact_mod_cast three
    exact ⟨width, announced, fits, fun shifted => absurd shifted unshifted,
      Int.natCast_nonneg _⟩

section Announced

variable {track : FlacTrack} {width : Nat}

/-- A sample is written in the announced number of bytes. -/
theorem pushed_length (announced : track.Announced width) (sample : BitVec 32) :
    (track.pushed sample).length = width := by
  rw [pushed]
  split
  · rename_i shifted
    exact (announced.shifted shifted).symm
  · have bytes : ((8 : Int) * width).tdiv 8 = width := Int.mul_tdiv_cancel_left _ (by decide)
    rw [pushFuncCall, announced.bps, bytes, Int.toNat_natCast, List.length_take, sampleBytes,
      ByteOrder.littleEndian_length]
    exact Nat.min_eq_left announced.fits

/-- A frame has the announced width for each channel. -/
theorem oneSample_eq (announced : track.Announced width) :
    track.soundDetails.samplesToBytes 1 =
      ((track.soundDetails.channels.toNat * width : Nat) : Int) := by
  have bytes := FrameWrite.samplesToBytes_whole announced.bps 1
  rw [Int.natCast_one, Int.one_mul] at bytes
  rw [bytes, Int.natCast_mul, Int.toNat_of_nonneg announced.channels]

/-- A frame has the announced bytes for each channel. -/
theorem frameBytes_eq (announced : track.Announced width) :
    track.frameBytes = track.soundDetails.channels.toNat * width := by
  rw [frameBytes, oneSample_eq announced, Int.toNat_natCast]

/-- A block has as many bytes as its frames. -/
theorem blockBytes_length (announced : track.Announced width) (block : FlacBlock) :
    (track.blockBytes block).length = block.blocksize * track.frameBytes := by
  rw [frameBytes_eq announced]
  exact Interleaving.frames_length (fun index _ channel _ => pushed_length announced _)

/-- The loops append the bytes of the block. -/
theorem pushSamples_eq {block : FlacBlock} {chunk : Chunk}
    (fits : (track.blockBytes block).length ≤ chunk.second.reserve) :
    track.pushSamples block chunk = chunk.append (track.blockBytes block) :=
  FrameWrite.foldl_append (fun _ _ _ left => FrameWrite.foldl_append (fun _ _ _ _ => rfl) left) fits

/-- The count of samples does not change what is pushed. -/
theorem pushSamples_counted (track : FlacTrack) (written : Int) (block : FlacBlock)
    (chunk : Chunk) : ({ track with currentSamplesWritten := written } : FlacTrack).pushSamples
      block chunk = track.pushSamples block chunk := rfl

/-- The enlarged chunk takes the block whole. -/
theorem pushSamples_enlarged (track : FlacTrack) (block : FlacBlock) (chunk : Chunk) :
    track.pushSamples block (FrameWrite.enlarge (track.blockBytes block).length chunk) =
      fillFrame (track.blockBytes block) chunk := by
  rw [fillFrame]
  exact pushSamples_eq (FrameWrite.enlarge_reserve _ chunk)

/-- For one output a block is a frame of the decoding libraries. -/
theorem writeOutput_eq (announced : track.Announced width) (block : FlacBlock)
    (output : CacheBuffer) : track.writeOutput block output =
      (writeFrame (track.soundDetails.samplesToBytes 1) track.soundDetails.totalSamples
        (track.currentSamplesWritten + block.blocksize) (track.blockBytes block) output).map
        (fun written => (written,
          { track with
            currentSamplesWritten := track.currentSamplesWritten + block.blocksize })) := by
  have total : track.soundDetails.samplesToBytes 1 * block.blocksize =
      ((track.blockBytes block).length : Int) := by
    rw [oneSample_eq announced, blockBytes_length announced, frameBytes_eq announced,
      Nat.mul_comm block.blocksize, Int.natCast_mul _ block.blocksize]
  rw [writeOutput, writeFrame, Option.map_map, total]
  apply Option.map_congr
  intro found _
  simp only [Function.comp_apply, pushSamples_counted, pushSamples_enlarged]

end Announced

end FlacTrack

namespace FlacWrite

open FrameWrite

/-- A track, with the number of samples decoded so far as history. -/
structure State where
  track : FlacTrack
  decoded : Nat

/-- An output attaches a buffer, a block is decoded, an output takes frames from the
front data chunk of its buffer, and the decoding is finished. -/
inductive Action where
  | attach (empty : EmptyBuffer)
  | block (block : FlacBlock)
  | take (output frames : Nat) (rotate : Bool)
  | finish

/-- A block waits until each output has a chunk for it. -/
def step (state : State) : Action → Option State
  | .attach empty =>
    some { state with
      track := { state.track with
        outputBufList := state.track.outputBufList ++ [empty.buffer] } }
  | .block block =>
    (state.track.writeCallback block).map (fun written =>
      ⟨written, state.decoded + block.blocksize⟩)
  | .take output frames rotate =>
    some { state with
      track := { state.track with
        outputBufList := state.track.outputBufList.modify output
          (takeFrames state.track.frameBytes frames rotate) } }
  | .finish => some { state with track := state.track.finishDecode }

/-- The stream has been opened. -/
def start (details : SoundDetails) (info : StreamInfo) : State :=
  ⟨(FlacTrack.mk details (-1) (-1) []).metadataCallback info, 0⟩

/-- Data chunks hold whole frames. Each output receives a block, whose samples are
counted once, and at the end the total is the number of the decoded samples. -/
def Accounted (before : State) (action : Action) (after : State) : Prop :=
  (∀ output ∈ after.track.outputBufList, ∀ chunk ∈ output.dataBuffer.items,
    after.track.frameBytes ∣ chunk.second.size) ∧
  match action with
  | .block block =>
    ((before.track.blockBytes block).length : Int) =
      block.blocksize * before.track.soundDetails.channels * before.track.soundDetails.bps / 8 ∧
    List.Forall₂ (Received (before.track.blockBytes block)) before.track.outputBufList
      after.track.outputBufList ∧
    after.track.currentSamplesWritten = before.track.currentSamplesWritten + block.blocksize
  | .finish => after.track.soundDetails.totalSamples = before.decoded
  | _ => True

/-- A block that is not empty is decoded for one output. -/
def OneOutput (state : State) : Action → Prop
  | .block block => block.blocksize = 0 ∨ state.track.outputBufList.length = 1
  | _ => True

instance (state : State) (action : Action) : Decidable (OneOutput state action) := by
  cases action <;> unfold OneOutput <;> infer_instance

/-! ## The outputs of a track -/

/-- What was announced does not depend on how many samples are counted. -/
theorem announced_counted {track : FlacTrack} {width : Nat} (announced : track.Announced width)
    (written : Int) :
    ({ track with currentSamplesWritten := written } : FlacTrack).Announced width :=
  ⟨announced.bps, announced.fits, announced.shifted, announced.channels⟩

/-- Each output receives the block, and each counts its samples. -/
theorem writeOutputs_received {block : FlacBlock} {outputs written : List CacheBuffer}
    {track after : FlacTrack} {width : Nat} (announced : track.Announced width)
    (framed : ∀ output ∈ outputs, Framed track.frameBytes output)
    (wrote : FlacTrack.writeOutputs block outputs track = some (written, after)) :
    after = { track with
      currentSamplesWritten := track.currentSamplesWritten + outputs.length * block.blocksize } ∧
      (∀ output ∈ written, Framed track.frameBytes output) ∧
      List.Forall₂ (Received (track.blockBytes block)) outputs written := by
  induction outputs generalizing track written after with
  | nil =>
    obtain ⟨rfl, rfl⟩ := Prod.mk.inj (Option.some.inj wrote)
    exact ⟨by simp, by simp, List.Forall₂.nil⟩
  | cons output rest inductionHypothesis =>
    rw [FlacTrack.writeOutputs, Option.bind_eq_some_iff] at wrote
    obtain ⟨first, written_first, further⟩ := wrote
    obtain ⟨⟨others, last⟩, written_rest, same⟩ := Option.map_eq_some_iff.mp further
    obtain ⟨rfl, rfl⟩ := Prod.mk.inj same
    rw [FlacTrack.writeOutput_eq announced, Option.map_eq_some_iff] at written_first
    obtain ⟨buffer, framesWritten, rfl⟩ := written_first
    have whole : track.frameBytes ∣ (track.blockBytes block).length := by
      rw [FlacTrack.blockBytes_length announced]
      exact Nat.dvd_mul_left _ _
    obtain ⟨outputFramed, received⟩ := DecoderPluginsManager.writeFrame_received
      (framed output List.mem_cons_self) whole framesWritten
    obtain ⟨counted, restFramed, restReceived⟩ := inductionHypothesis
      (announced_counted announced (track.currentSamplesWritten + block.blocksize))
      (fun other member => framed other (List.mem_cons_of_mem output member)) written_rest
    refine ⟨?_, List.forall_mem_cons.mpr ⟨outputFramed, restFramed⟩,
      List.Forall₂.cons received restReceived⟩
    rw [counted, List.length_cons]
    simp only [FlacTrack.mk.injEq, true_and, and_true]
    push_cast
    ring

/-- The format of the track is announced, and its outputs hold whole frames. -/
structure Sound (width : Nat) (track : FlacTrack) : Prop where
  announced : track.Announced width
  framed : ∀ output ∈ track.outputBufList, Framed track.frameBytes output

/-- The outputs of a sound track may be exchanged for others with whole frames. -/
theorem Sound.exchange {width : Nat} {track : FlacTrack} (sound : Sound width track)
    {outputs : List CacheBuffer} {written : Int}
    (framed : ∀ output ∈ outputs, Framed track.frameBytes output) :
    Sound width { track with currentSamplesWritten := written, outputBufList := outputs } :=
  ⟨⟨sound.announced.bps, sound.announced.fits, sound.announced.shifted,
    sound.announced.channels⟩, framed⟩

/-- A block is received by all outputs and counted once for each of them. -/
theorem writeCallback_received {width : Nat} {track after : FlacTrack} {block : FlacBlock}
    (sound : Sound width track) (wrote : track.writeCallback block = some after) :
    Sound width after ∧
      List.Forall₂ (Received (track.blockBytes block)) track.outputBufList after.outputBufList ∧
      after.soundDetails = track.soundDetails ∧
      after.currentSamplesWritten =
        track.currentSamplesWritten + track.outputBufList.length * block.blocksize := by
  rw [FlacTrack.writeCallback, Option.map_eq_some_iff] at wrote
  obtain ⟨⟨written, counted⟩, wroteOutputs, rfl⟩ := wrote
  obtain ⟨rfl, framed, received⟩ :=
    writeOutputs_received sound.announced sound.framed wroteOutputs
  exact ⟨sound.exchange framed, received, rfl, rfl⟩

/-- The end of the decoding announces what has been counted. -/
theorem finishDecode_total (track : FlacTrack) :
    track.finishDecode.soundDetails =
      { track.soundDetails with totalSamples := track.currentSamplesWritten } :=
  FrameWrite.correctTotal_eq track.currentSamplesWritten track.soundDetails

/-- The end of the decoding corrects the total and leaves the buffers as they are. -/
theorem finishDecode_sound {width : Nat} {track : FlacTrack} (sound : Sound width track) :
    Sound width track.finishDecode := by
  have details := finishDecode_total track
  have frame : track.finishDecode.frameBytes = track.frameBytes := by
    rw [FlacTrack.frameBytes, details]
    rfl
  obtain ⟨bps, fits, shifted, channels⟩ := sound.announced
  refine ⟨⟨?_, fits, shifted, ?_⟩, ?_⟩
  · rw [details]
    exact bps
  · rw [details]
    exact channels
  · rw [frame]
    intro output member
    obtain ⟨earlier, among, rfl⟩ := List.mem_map.mp member
    exact syncCache_framed (sound.framed earlier among)

/-- A change of one element keeps what it keeps of each. -/
theorem forall_mem_modify {Item : Type} {property : Item → Prop} {change : Item → Item}
    {items : List Item} (kept : ∀ item, property item → property (change item))
    (each : ∀ item ∈ items, property item) (index : Nat) :
    ∀ item ∈ items.modify index change, property item := by
  rw [List.forall_mem_iff_getElem]
  intro position below
  rw [List.getElem_modify]
  rw [List.length_modify] at below
  have present := each _ (List.getElem_mem below)
  split
  · exact kept _ present
  · exact present

/-- Every action keeps the track sound. -/
theorem step_sound {width : Nat} {before after : State} {action : Action}
    (sound : Sound width before.track) (taken : step before action = some after) :
    Sound width after.track := by
  cases action with
  | attach empty =>
    obtain rfl := Option.some.inj taken
    exact sound.exchange (List.forall_mem_append.mpr
      ⟨sound.framed, List.forall_mem_singleton.mpr (empty.framed _)⟩)
  | block block =>
    obtain ⟨written, wrote, rfl⟩ := Option.map_eq_some_iff.mp taken
    exact (writeCallback_received sound wrote).1
  | take output frames rotate =>
    obtain rfl := Option.some.inj taken
    exact sound.exchange (forall_mem_modify
      (fun _ framed => takeFrames_framed framed frames rotate) sound.framed output)
  | finish =>
    obtain rfl := Option.some.inj taken
    exact finishDecode_sound sound

/-! ## The frames of the manager's jobs -/

/-- The front track of the manager as the callbacks of the library see it. -/
def ofManager (state : DecoderPluginsManager) (front : Nat) (origBps : Int) : FlacTrack where
  soundDetails := (state.details front).soundDetails
  origBps := origBps
  currentSamplesWritten := (state.details front).currentSamplesWritten
  outputBufList := (state.details front).outputBufList.map state.buffers

/-- What the manager's job writes to distinct buffers is what the callback writes. -/
theorem writeFrames_writeOutputs {front : Nat} {block : FlacBlock} {outputs : List Nat}
    {state after : DecoderPluginsManager} {track : FlacTrack} {width : Nat}
    (announced : track.Announced width) (distinct : outputs.Nodup)
    (details : track.soundDetails = (state.details front).soundDetails)
    (counted : track.currentSamplesWritten = (state.details front).currentSamplesWritten)
    (wrote : DecoderPluginsManager.writeFrames front true block.blocksize
      (track.blockBytes block) outputs state = some after) :
    FlacTrack.writeOutputs block (outputs.map state.buffers) track =
      some (outputs.map after.buffers,
        { track with currentSamplesWritten := (after.details front).currentSamplesWritten }) ∧
      (after.details front).soundDetails = (state.details front).soundDetails ∧
      (after.details front).outputBufList = (state.details front).outputBufList ∧
      ∀ other, other ∉ outputs → after.buffers other = state.buffers other := by
  induction outputs generalizing state track with
  | nil =>
    obtain rfl := Option.some.inj wrote
    refine ⟨?_, rfl, rfl, fun _ _ => rfl⟩
    rw [← counted]
    rfl
  | cons address rest inductionHypothesis =>
    obtain ⟨outside, others⟩ := List.nodup_cons.mp distinct
    rw [DecoderPluginsManager.writeFrames, Option.bind_eq_some_iff] at wrote
    obtain ⟨buffer, wroteOne, wroteRest⟩ := wrote
    simp only [if_true] at wroteOne wroteRest
    rw [← details, ← counted] at wroteOne
    obtain ⟨writtenRest, sameDetails, sameList, sameBuffers⟩ := inductionHypothesis
      (announced_counted announced (track.currentSamplesWritten + block.blocksize)) others
      (by simp [DecoderPluginsManager.modifyBuffer, DecoderPluginsManager.setDetails, details])
      (by simp [DecoderPluginsManager.modifyBuffer, DecoderPluginsManager.setDetails, counted])
      wroteRest
    have first : after.buffers address = buffer := by
      rw [sameBuffers address outside]
      simp [DecoderPluginsManager.modifyBuffer]
    have unwritten : rest.map
        ((state.setDetails front { state.details front with
          currentSamplesWritten := (state.details front).currentSamplesWritten +
            block.blocksize }).modifyBuffer (fun _ => buffer) address).buffers =
        rest.map state.buffers := by
      apply List.map_congr_left
      intro other member
      have different : other ≠ address := fun same => outside (same ▸ member)
      simp [DecoderPluginsManager.modifyBuffer, DecoderPluginsManager.setDetails, different]
    refine ⟨?_, ?_, ?_, ?_⟩
    · rw [unwritten] at writtenRest
      rw [List.map_cons, List.map_cons, FlacTrack.writeOutputs, FlacTrack.writeOutput_eq announced,
        wroteOne, first]
      simp only [Option.map_some, Option.bind_some, writtenRest]
    · simpa [DecoderPluginsManager.modifyBuffer, DecoderPluginsManager.setDetails] using sameDetails
    · simpa [DecoderPluginsManager.modifyBuffer, DecoderPluginsManager.setDetails] using sameList
    · intro other absent
      obtain ⟨different, missing⟩ := not_or.mp (mt List.mem_cons.mpr absent)
      rw [sameBuffers other missing]
      simp [DecoderPluginsManager.modifyBuffer, DecoderPluginsManager.setDetails, different]

/-- A frame that a decoder which counts for each buffer delivers to the manager is a
block of the callback. -/
theorem decodeFrames_writeCallback {front : Nat} {block : FlacBlock}
    {state after : DecoderPluginsManager} {origBps : Int} {width : Nat}
    (announced : (ofManager state front origBps).Announced width)
    (distinct : (state.details front).outputBufList.Nodup)
    (counts : (state.plugins (state.details front).currentDecoderPlugin).countsPerBuffer = true)
    (decoded : DecoderPluginsManager.decodeFrames front
      [(block.blocksize, (ofManager state front origBps).blockBytes block)] state = some after) :
    (ofManager state front origBps).writeCallback block =
      some (ofManager after front origBps) := by
  have unchanged : state.setDetails front (state.details front) = state := by
    simp only [DecoderPluginsManager.setDetails]
    congr 1
    funext other
    split
    · rename_i same
      rw [same]
    · rfl
  rw [DecoderPluginsManager.decodeFrames, counts] at decoded
  simp only [if_true, Int.add_zero, unchanged] at decoded
  obtain ⟨written, wrote, last⟩ := Option.bind_eq_some_iff.mp decoded
  obtain rfl := Option.some.inj last
  obtain ⟨outputs, sameDetails, sameList, _⟩ :=
    writeFrames_writeOutputs announced distinct rfl rfl wrote
  have started : (ofManager state front origBps).outputBufList =
      (state.details front).outputBufList.map state.buffers := rfl
  rw [FlacTrack.writeCallback, started, outputs, Option.map_some, ofManager, ofManager,
    sameDetails, sameList]

/-- The samples are counted as the stream has them. -/
structure Invariant (width : Nat) (state : State) : Prop where
  sound : Sound width state.track
  counted : state.track.currentSamplesWritten = state.decoded

/-- Nothing has been decoded or attached in the beginning, and the width is that of the announced
bits. -/
theorem start_invariant (details : SoundDetails) {info : StreamInfo}
    (most : info.bitsPerSample ≤ 32) : ∃ width, Invariant width (start details info) := by
  obtain ⟨width, announced⟩ :=
    FlacTrack.metadataCallback_announced (FlacTrack.mk details (-1) (-1) []) info most
  exact ⟨width, ⟨⟨announced, fun _ member => by cases member⟩, rfl⟩⟩

/-- The bytes of a block are as many as its samples have. -/
theorem blockBytes_count {track : FlacTrack} {width : Nat} (announced : track.Announced width)
    (block : FlacBlock) : ((track.blockBytes block).length : Int) =
      block.blocksize * track.soundDetails.channels * track.soundDetails.bps / 8 := by
  have channels := Int.toNat_of_nonneg announced.channels
  have bits : (block.blocksize : Int) * track.soundDetails.channels * (8 * width) =
      8 * (block.blocksize * track.soundDetails.channels * width) := by ring
  rw [FlacTrack.blockBytes_length announced, FlacTrack.frameBytes_eq announced, announced.bps,
    bits, Int.mul_ediv_cancel_left _ (by decide)]
  push_cast
  rw [channels, mul_assoc]

/-- Once for each output is once when there is one, or nothing to count. -/
theorem counted_once_iff (written : Int) (outputs blocksize : Nat) :
    written + outputs * blocksize = written + blocksize ↔ blocksize = 0 ∨ outputs = 1 := by
  constructor
  · intro same
    have times : outputs * blocksize = 1 * blocksize := by
      rw [Nat.one_mul]
      exact_mod_cast (add_left_cancel same)
    rcases Nat.eq_zero_or_pos blocksize with zero | positive
    · exact Or.inl zero
    · exact Or.inr (Nat.eq_of_mul_eq_mul_right positive times)
  · rintro (rfl | rfl)
    · rw [Int.natCast_zero, mul_zero]
    · rw [Int.natCast_one, one_mul]

/-- A step has the claimed effect exactly when it decodes no block, or an empty one, or has one
output for it. -/
theorem step_accounted_iff {width : Nat} {before after : State} {action : Action}
    (invariant : Invariant width before) (taken : step before action = some after) :
    Accounted before action after ↔ OneOutput before action := by
  have sound := step_sound invariant.sound taken
  have whole : ∀ output ∈ after.track.outputBufList, ∀ chunk ∈ output.dataBuffer.items,
      after.track.frameBytes ∣ chunk.second.size :=
    fun output member => (sound.framed output member).dataWhole
  cases action with
  | attach empty => exact iff_of_true ⟨whole, trivial⟩ trivial
  | take output frames rotate => exact iff_of_true ⟨whole, trivial⟩ trivial
  | block block =>
    obtain ⟨written, wrote, rfl⟩ := Option.map_eq_some_iff.mp taken
    obtain ⟨_, received, _, counted⟩ := writeCallback_received invariant.sound wrote
    have count := blockBytes_count invariant.sound.announced block
    simp only [Accounted, OneOutput, counted, counted_once_iff]
    exact ⟨fun accounted => accounted.2.2.2, fun one => ⟨whole, count, received, one⟩⟩
  | finish =>
    obtain rfl := Option.some.inj taken
    refine iff_of_true ⟨whole, ?_⟩ trivial
    exact (congrArg SoundDetails.totalSamples (finishDecode_total before.track)).trans
      invariant.counted

/-- While this is so, the counter is the number of decoded samples. -/
theorem step_invariant {width : Nat} {before after : State} {action : Action}
    (invariant : Invariant width before) (taken : step before action = some after)
    (accounted : Accounted before action after) : Invariant width after := by
  refine ⟨step_sound invariant.sound taken, ?_⟩
  cases action with
  | attach empty =>
    obtain rfl := Option.some.inj taken
    exact invariant.counted
  | take output frames rotate =>
    obtain rfl := Option.some.inj taken
    exact invariant.counted
  | block block =>
    obtain ⟨written, _, rfl⟩ := Option.map_eq_some_iff.mp taken
    have counted := accounted.2.2.2
    rw [invariant.counted] at counted
    exact counted
  | finish =>
    obtain rfl := Option.some.inj taken
    exact invariant.counted

/-- A stream of one sample in one channel of 16 bits. -/
def oneSample : StreamInfo := ⟨1, 1, 44100, 16⟩

/-- Its sample is decoded as one block. -/
def sampleBlock : FlacBlock := ⟨1, fun _ _ => 513#32⟩

end FlacWrite

end Mprt
