import Mprt.FrameWrite

/-!
# The frames of the FFmpeg library in the output buffers

`decode_new` copies each sample of a decoded frame through a union of four bytes to
the output buffers. The width of a sample comes from the sample format, while the
room for a frame is reserved by the number of bits that `init_ffmpeg` announced: 32
for the two float formats and for packed 32-bit integers, 16 for all others. In a
planar frame each channel has a plane of its own. In a packed one the samples of all
channels follow one another, and the loop looks for them as if there were two.

A frame is therefore interleaved when its channels and its width are the announced
ones and it is planar or has two channels; a packed frame of another number of channels
only where the samples at the wrong places happen to be the right ones. The container
announces the channels and the codec the width, when the track is opened; a frame has
those it was decoded with.
-/

namespace Mprt

/-- What the library knows about its sample formats, with the formats that the plugin
knows by name. -/
structure SampleFormats (Format : Type) where
  getBytesPerSample : Format → Nat
  isPlanar : Format → Bool
  flt : Format
  fltp : Format
  s32 : Format

/-- A decoded frame: the number of samples and the bytes of each plane, without what
pads them. -/
structure AVFrame where
  nbSamples : Nat
  extendedData : List (List UInt8)

/-- The details of a track that the plugin uses, with the buffers of its outputs. -/
structure FfmpegTrack where
  soundDetails : SoundDetails
  currentSamplesWritten : Int
  outputBufList : List CacheBuffer

namespace FfmpegFrames

open FrameWrite

variable {Format : Type}

/-- What `init_ffmpeg` writes into the details when it succeeds. -/
def announce [DecidableEq Format] (library : SampleFormats Format) (sampleFmt : Format)
    (channels sampleRate : Int) (soundDetails : SoundDetails) : SoundDetails :=
  let isFloat := sampleFmt == library.fltp || sampleFmt == library.flt
  { soundDetails with
    ok := true
    totalSamples := 2 ^ 63 - 1
    currentSamplesWrittenToSoundBuffer := 0
    channels := channels
    isFloat := isFloat
    bps := if isFloat then 8 * 4 else if sampleFmt = library.s32 then 32 else 16
    sampleRate := sampleRate }

/-- The loop that copies the bytes of a sample to the union. There is no result where
an index leaves the plane or the union. -/
def copySample (plane : List UInt8) (place : Nat) : Nat → Option (List UInt8)
  | 0 => some []
  | count + 1 =>
    (copySample plane place count).bind (fun copied =>
      if count < 4 then plane[place + count]?.map (fun byte => copied ++ [byte]) else none)

/-- The bytes that are copied for a sample of a channel. -/
def readSample (library : SampleFormats Format) (sampleFmt : Format) (frame : AVFrame)
    (index channel : Nat) : Option (List UInt8) :=
  let sampleWidth := library.getBytesPerSample sampleFmt
  if library.isPlanar sampleFmt then
    frame.extendedData[channel]?.bind (fun plane =>
      copySample plane (index * sampleWidth) sampleWidth)
  else
    frame.extendedData[0]?.bind (fun plane =>
      copySample plane ((2 * index + channel) * sampleWidth) sampleWidth)

/-- The two loops over the samples of a frame. -/
def pushFrame (library : SampleFormats Format) (sampleFmt : Format) (soundDetails : SoundDetails)
    (frame : AVFrame) (chunk : Chunk) : Option Chunk :=
  (List.range frame.nbSamples).foldlM (fun filling index =>
    (List.range soundDetails.channels.toNat).foldlM (fun filling channel =>
      (readSample library sampleFmt frame index channel).map filling.append) filling) chunk

/-- What is done for one output. There is also no result while its buffer has no
chunk. -/
def writeOutput (library : SampleFormats Format) (sampleFmt : Format) (frame : AVFrame)
    (soundDetails : SoundDetails) (currentSamplesWritten : Int) (output : CacheBuffer) :
    Option CacheBuffer :=
  let oneSampleToByte := soundDetails.samplesToBytes 1
  let totalBytesToWrite := oneSampleToByte * frame.nbSamples
  output.getCachePtr.bind (fun found =>
    (pushFrame library sampleFmt soundDetails frame (enlarge totalBytesToWrite found.1)).map
      (fun filled => putFilled oneSampleToByte soundDetails.totalSamples currentSamplesWritten
        filled found.2))

/-- The loop over the outputs. -/
def writeOutputs (library : SampleFormats Format) (sampleFmt : Format) (frame : AVFrame)
    (soundDetails : SoundDetails) (currentSamplesWritten : Int) :
    List CacheBuffer → Option (List CacheBuffer)
  | [] => some []
  | output :: rest =>
    (writeOutput library sampleFmt frame soundDetails currentSamplesWritten output).bind
      (fun written =>
        (writeOutputs library sampleFmt frame soundDetails currentSamplesWritten rest).map
          (fun further => written :: further))

/-- `decode_new` for a frame that it has received. -/
def decodeNew (library : SampleFormats Format) (sampleFmt : Format) (frame : AVFrame)
    (track : FfmpegTrack) : Option FfmpegTrack :=
  let currentSamplesWritten := track.currentSamplesWritten + frame.nbSamples
  (writeOutputs library sampleFmt frame track.soundDetails currentSamplesWritten
    track.outputBufList).map (fun written =>
      { track with
        currentSamplesWritten := currentSamplesWritten
        outputBufList := written })

/-- The bytes at a place of a plane. -/
def bytesAt (frame : AVFrame) (plane place width : Nat) : List UInt8 :=
  ((frame.extendedData.getD plane []).drop (place * width)).take width

/-- The frame's own sample of a channel. -/
def frameSample (library : SampleFormats Format) (sampleFmt : Format) (channels : Nat)
    (frame : AVFrame) (index channel : Nat) : List UInt8 :=
  if library.isPlanar sampleFmt then
    bytesAt frame channel index (library.getBytesPerSample sampleFmt)
  else bytesAt frame 0 (index * channels + channel) (library.getBytesPerSample sampleFmt)

/-- The planes have the bytes of all samples. -/
def HasSamples (library : SampleFormats Format) (sampleFmt : Format) (channels : Nat)
    (frame : AVFrame) : Prop :=
  if library.isPlanar sampleFmt then
    frame.extendedData.length = channels ∧ ∀ plane ∈ frame.extendedData,
      plane.length = frame.nbSamples * library.getBytesPerSample sampleFmt
  else
    ∃ plane, frame.extendedData = [plane] ∧
      plane.length = frame.nbSamples * channels * library.getBytesPerSample sampleFmt

/-- All bytes that the loops push for an output. -/
def pushedBytes (library : SampleFormats Format) (sampleFmt : Format)
    (soundDetails : SoundDetails) (frame : AVFrame) : List UInt8 :=
  Interleaving.frames frame.nbSamples soundDetails.channels.toNat (fun index channel =>
    (readSample library sampleFmt frame index channel).getD [])

/-- No index leaves the planes or the union. Each output receives all bytes that are
pushed behind its earlier ones, as many as were reserved, and each sample of the frame's
channels stands at its own place. -/
def Interleaved (library : SampleFormats Format) (sampleFmt : Format) (channels : Nat)
    (frame : AVFrame) (track : FfmpegTrack) : Prop :=
  ∃ after bytes, decodeNew library sampleFmt frame track = some after ∧
    List.Forall₂ (Received bytes) track.outputBufList after.outputBufList ∧
    bytes = pushedBytes library sampleFmt track.soundDetails frame ∧
    bytes.length = frame.nbSamples * channels * library.getBytesPerSample sampleFmt ∧
    (bytes.length : Int) = track.soundDetails.samplesToBytes frame.nbSamples ∧
    ∀ index < frame.nbSamples, ∀ channel < channels,
      (bytes.drop ((index * channels + channel) * library.getBytesPerSample sampleFmt)).take
        (library.getBytesPerSample sampleFmt) =
          frameSample library sampleFmt channels frame index channel

/-- The frame is empty, or has the announced number of channels. -/
def ChannelsAnnounced (channels : Nat) (frame : AVFrame) (soundDetails : SoundDetails) : Prop :=
  frame.nbSamples = 0 ∨ soundDetails.channels = channels

/-- The frame is empty, or its samples have the announced width and it is planar, or
has the bytes of each sample where they are for two channels. -/
def InPlace (library : SampleFormats Format) (sampleFmt : Format) (channels : Nat)
    (frame : AVFrame) (soundDetails : SoundDetails) : Prop :=
  frame.nbSamples = 0 ∨
    8 * (library.getBytesPerSample sampleFmt : Int) = soundDetails.bps ∧
      (library.isPlanar sampleFmt = true ∨
        ∀ index < frame.nbSamples, ∀ channel < channels,
          bytesAt frame 0 (2 * index + channel) (library.getBytesPerSample sampleFmt) =
            bytesAt frame 0 (index * channels + channel) (library.getBytesPerSample sampleFmt))

/-! ## Reading a sample -/

/-- Inside the plane and the union the bytes of the sample are copied. -/
theorem copySample_inside {plane : List UInt8} {place count : Nat} (fits : count ≤ 4)
    (inside : place + count ≤ plane.length) :
    copySample plane place count = some ((plane.drop place).take count) := by
  induction count with
  | zero => rw [copySample, List.take_zero]
  | succ count inductionHypothesis =>
    have below : place + count < plane.length := inside
    have free : count < 4 := fits
    rw [copySample, inductionHypothesis (by omega) (by omega), Option.bind_some, if_pos free,
      List.getElem?_eq_getElem below, Option.map_some, List.take_add_one, List.getElem?_drop,
      List.getElem?_eq_getElem below]
    rfl

/-- What is copied are the bytes of the sample, all of them inside the plane. -/
theorem copySample_some {plane copied : List UInt8} {place count : Nat}
    (copies : copySample plane place count = some copied) :
    copied = (plane.drop place).take count ∧ copied.length = count := by
  induction count generalizing copied with
  | zero =>
    obtain rfl := Option.some.inj copies
    exact ⟨rfl, rfl⟩
  | succ count inductionHypothesis =>
    rw [copySample, Option.bind_eq_some_iff] at copies
    obtain ⟨earlier, before, last⟩ := copies
    obtain ⟨same, length⟩ := inductionHypothesis before
    split at last
    · obtain ⟨byte, found, rfl⟩ := Option.map_eq_some_iff.mp last
      constructor
      · rw [List.take_add_one, List.getElem?_drop, found, same]
        rfl
      · rw [List.length_append, length, List.length_singleton]
    · cases last

variable {library : SampleFormats Format} {sampleFmt : Format} {channels : Nat} {frame : AVFrame}

/-- The bytes at a place of a plane that is there. -/
theorem bytesAt_eq {plane : List UInt8} {index : Nat} (found : frame.extendedData[index]? =
    some plane) (place width : Nat) :
    bytesAt frame index place width = (plane.drop (place * width)).take width := by
  rw [bytesAt, List.getD_eq_getElem?_getD, found, Option.getD_some]

/-- What is read for a sample. -/
theorem readSample_some {index channel : Nat} {copied : List UInt8}
    (reads : readSample library sampleFmt frame index channel = some copied) :
    copied.length = library.getBytesPerSample sampleFmt ∧
      copied = if library.isPlanar sampleFmt then
        bytesAt frame channel index (library.getBytesPerSample sampleFmt)
      else bytesAt frame 0 (2 * index + channel) (library.getBytesPerSample sampleFmt) := by
  rw [readSample] at reads
  split at reads
  · rename_i planar
    obtain ⟨plane, found, copies⟩ := Option.bind_eq_some_iff.mp reads
    obtain ⟨same, length⟩ := copySample_some copies
    exact ⟨length, by rw [if_pos planar, bytesAt_eq found, same]⟩
  · rename_i packed
    obtain ⟨plane, found, copies⟩ := Option.bind_eq_some_iff.mp reads
    obtain ⟨same, length⟩ := copySample_some copies
    exact ⟨length, by rw [if_neg packed, bytesAt_eq found, same]⟩

/-- A place within a plane has all its bytes. -/
theorem bytesAt_length {plane : List UInt8} {index place width : Nat}
    (found : frame.extendedData[index]? = some plane) (inside : (place + 1) * width ≤ plane.length) :
    (bytesAt frame index place width).length = width := by
  rw [Nat.succ_mul] at inside
  rw [bytesAt_eq found, List.length_take, List.length_drop]
  omega

/-- The plane and the place of a frame's own sample. -/
theorem sample_inside (samples : HasSamples library sampleFmt channels frame)
    {index channel : Nat} (below : index < frame.nbSamples) (among : channel < channels) :
    ∃ planeIndex place plane, frame.extendedData[planeIndex]? = some plane ∧
      (place + 1) * library.getBytesPerSample sampleFmt ≤ plane.length ∧
      frameSample library sampleFmt channels frame index channel =
        bytesAt frame planeIndex place (library.getBytesPerSample sampleFmt) ∧
      (library.isPlanar sampleFmt = true → planeIndex = channel ∧ place = index) := by
  rw [HasSamples] at samples
  split at samples
  · rename_i planar
    have there : channel < frame.extendedData.length := samples.1 ▸ among
    refine ⟨channel, index, frame.extendedData[channel], List.getElem?_eq_getElem there, ?_, ?_,
      fun _ => ⟨rfl, rfl⟩⟩
    · rw [samples.2 _ (List.getElem_mem there)]
      exact Nat.mul_le_mul_right _ below
    · rw [frameSample, if_pos planar]
  · rename_i packed
    obtain ⟨plane, data, length⟩ := samples
    have place : index * channels + channel + 1 ≤ frame.nbSamples * channels :=
      calc index * channels + channel + 1 ≤ (index + 1) * channels := by
            rw [Nat.succ_mul]
            exact Nat.add_le_add_left among _
        _ ≤ frame.nbSamples * channels := Nat.mul_le_mul_right channels below
    refine ⟨0, index * channels + channel, plane, by rw [data]; rfl, ?_, ?_,
      fun planar => absurd planar packed⟩
    · rw [length]
      exact Nat.mul_le_mul_right _ place
    · rw [frameSample, if_neg packed]

theorem frameSample_length (samples : HasSamples library sampleFmt channels frame)
    {index channel : Nat} (below : index < frame.nbSamples) (among : channel < channels) :
    (frameSample library sampleFmt channels frame index channel).length =
      library.getBytesPerSample sampleFmt := by
  obtain ⟨_, _, _, found, inside, same, _⟩ := sample_inside samples below among
  rw [same, bytesAt_length found inside]

/-- A place with all its bytes is read whole. -/
theorem copySample_bytesAt {plane : List UInt8} {index place width : Nat}
    (found : frame.extendedData[index]? = some plane) (fits : width ≤ 4) (positive : 0 < width)
    (whole : (bytesAt frame index place width).length = width) :
    copySample plane (place * width) width = some (bytesAt frame index place width) := by
  have length := whole
  rw [bytesAt_eq found, List.length_take, List.length_drop] at length
  rw [copySample_inside fits (by omega), bytesAt_eq found]

/-- A sample is read right where its bytes are where the loop looks for them. -/
theorem readSample_frameSample (samples : HasSamples library sampleFmt channels frame)
    {index channel : Nat} (below : index < frame.nbSamples) (among : channel < channels)
    (fits : library.getBytesPerSample sampleFmt ≤ 4)
    (positive : 0 < library.getBytesPerSample sampleFmt)
    (place : library.isPlanar sampleFmt = true ∨
      bytesAt frame 0 (2 * index + channel) (library.getBytesPerSample sampleFmt) =
        bytesAt frame 0 (index * channels + channel) (library.getBytesPerSample sampleFmt)) :
    readSample library sampleFmt frame index channel =
      some (frameSample library sampleFmt channels frame index channel) := by
  have length := frameSample_length samples below among
  rw [frameSample] at length ⊢
  rw [readSample]
  cases planar : library.isPlanar sampleFmt with
  | true =>
    obtain ⟨_, _, plane, found, _, _, places⟩ := sample_inside samples below among
    obtain ⟨rfl, rfl⟩ := places planar
    rw [planar, if_pos rfl] at length
    simp only [if_true, found, Option.bind_some]
    exact copySample_bytesAt found fits positive length
  | false =>
    rw [HasSamples, planar] at samples
    obtain ⟨plane, data, _⟩ := samples
    have found : frame.extendedData[0]? = some plane := by
      rw [data]
      rfl
    have same := place.resolve_left (by rw [planar]; exact Bool.false_ne_true)
    rw [planar, if_neg Bool.false_ne_true, ← same] at length
    simp only [Bool.false_eq_true, if_false, found, Option.bind_some, ← same]
    exact copySample_bytesAt found fits positive length

/-! ## The loops -/

section Loops

variable {State : Type} {step : State → Nat → Option State} {count : Nat}

theorem foldlM_succ (step : State → Nat → Option State) (count : Nat) (state : State) :
    (List.range (count + 1)).foldlM step state =
      ((List.range count).foldlM step state).bind (fun last => step last count) := by
  rw [List.range_succ, List.foldlM_append]
  cases (List.range count).foldlM step state with
  | none => rfl
  | some last => simp

/-- A loop whose steps have results is the loop of the results. -/
theorem foldlM_some {result : State → Nat → State}
    (results : ∀ index < count, ∀ state, step state index = some (result state index))
    (state : State) :
    (List.range count).foldlM step state = some ((List.range count).foldl result state) := by
  induction count with
  | zero => rfl
  | succ count inductionHypothesis =>
    rw [foldlM_succ, inductionHypothesis (fun index below =>
        results index (Nat.lt_succ_of_lt below)), Option.bind_some,
      results count (Nat.lt_succ_self count), List.range_succ, List.foldl_append]
    rfl

/-- In a loop that has a result each step had one. -/
theorem foldlM_steps {state last : State} (ends : (List.range count).foldlM step state = some last) :
    ∀ index < count, ∃ before after, step before index = some after := by
  induction count generalizing last with
  | zero =>
    intro index below
    omega
  | succ count inductionHypothesis =>
    rw [foldlM_succ, Option.bind_eq_some_iff] at ends
    obtain ⟨middle, earlier, now⟩ := ends
    intro index below
    rcases Nat.lt_succ_iff_lt_or_eq.mp below with before | rfl
    · exact inductionHypothesis earlier index before
    · exact ⟨middle, last, now⟩

end Loops

variable {soundDetails : SoundDetails} {item : Nat → Nat → List UInt8} {chunk filled : Chunk}

/-- The samples that are read are appended in turn. -/
theorem pushFrame_append (announced : soundDetails.channels = channels)
    (reads : ∀ index < frame.nbSamples, ∀ channel < channels,
      readSample library sampleFmt frame index channel = some (item index channel))
    (fits : (Interleaving.frames frame.nbSamples channels item).length ≤ chunk.second.reserve) :
    pushFrame library sampleFmt soundDetails frame chunk =
      some (chunk.append (Interleaving.frames frame.nbSamples channels item)) := by
  rw [pushFrame, announced, Int.toNat_natCast]
  have rows : ∀ index < frame.nbSamples, ∀ filling : Chunk,
      (List.range channels).foldlM (fun filling channel =>
        (readSample library sampleFmt frame index channel).map filling.append) filling =
      some ((List.range channels).foldl (fun filling channel =>
        filling.append (item index channel)) filling) := by
    intro index below
    apply foldlM_some
    intro channel among filling
    rw [reads index below channel among, Option.map_some]
  rw [foldlM_some rows, foldl_append (fun _ _ _ left =>
    foldl_append (fun _ _ _ _ => rfl) left) fits]
  rfl

/-- Every sample of a frame that is pushed has been read. -/
theorem pushFrame_reads (announced : soundDetails.channels = channels)
    (pushed : pushFrame library sampleFmt soundDetails frame chunk = some filled) :
    ∀ index < frame.nbSamples, ∀ channel < channels,
      ∃ copied, readSample library sampleFmt frame index channel = some copied := by
  rw [pushFrame, announced, Int.toNat_natCast] at pushed
  intro index below channel among
  obtain ⟨_, _, row⟩ := foldlM_steps pushed index below
  obtain ⟨_, _, entry⟩ := foldlM_steps row channel among
  obtain ⟨copied, reads, _⟩ := Option.map_eq_some_iff.mp entry
  exact ⟨copied, reads⟩

/-! ## The outputs -/

section Outputs

variable {width : Nat} {output : CacheBuffer} {currentSamplesWritten : Int}

/-- An output with a chunk receives a frame whose samples can be read and have the
announced width. -/
theorem writeOutput_received (announced : soundDetails.channels = channels)
    (bps : soundDetails.bps = 8 * width)
    (widths : ∀ index < frame.nbSamples, ∀ channel < channels, (item index channel).length = width)
    (reads : ∀ index < frame.nbSamples, ∀ channel < channels,
      readSample library sampleFmt frame index channel = some (item index channel))
    (framed : Framed 1 output) (ready : output.cacheBuffer.items ≠ []) :
    ∃ after, writeOutput library sampleFmt frame soundDetails currentSamplesWritten output =
        some after ∧
      Received (Interleaving.frames frame.nbSamples channels item) output after := by
  have length := Interleaving.frames_length widths
  have total : soundDetails.samplesToBytes 1 * frame.nbSamples =
      ((Interleaving.frames frame.nbSamples channels item).length : Int) := by
    have one := samplesToBytes_whole bps 1
    rw [Int.natCast_one, Int.one_mul] at one
    rw [one, length, announced]
    push_cast
    ring
  rw [writeOutput]
  cases got : output.getCachePtr with
  | none => exact absurd (CacheBuffer.getCachePtr_none got) ready
  | some found =>
    obtain ⟨chunk, held⟩ := found
    have pushed := pushFrame_append announced reads (enlarge_reserve _ chunk)
    have items := CircularBuffer.append_items
      (enlarge_reserve (Interleaving.frames frame.nbSamples channels item).length chunk)
    rw [enlarge_items] at items
    rw [Option.bind_some, total, pushed, Option.map_some]
    exact ⟨_, rfl, (putFilled_received framed got items (Nat.one_dvd _) _ _ _).2⟩

/-- All outputs receive it. -/
theorem writeOutputs_received (announced : soundDetails.channels = channels)
    (bps : soundDetails.bps = 8 * width)
    (widths : ∀ index < frame.nbSamples, ∀ channel < channels, (item index channel).length = width)
    (reads : ∀ index < frame.nbSamples, ∀ channel < channels,
      readSample library sampleFmt frame index channel = some (item index channel))
    {outputs : List CacheBuffer} (framed : ∀ output ∈ outputs, Framed 1 output)
    (ready : ∀ output ∈ outputs, output.cacheBuffer.items ≠ []) :
    ∃ written, writeOutputs library sampleFmt frame soundDetails currentSamplesWritten outputs =
        some written ∧
      List.Forall₂ (Received (Interleaving.frames frame.nbSamples channels item)) outputs
        written := by
  induction outputs with
  | nil => exact ⟨[], rfl, List.Forall₂.nil⟩
  | cons output rest inductionHypothesis =>
    obtain ⟨outputFramed, restFramed⟩ := List.forall_mem_cons.mp framed
    obtain ⟨outputReady, restReady⟩ := List.forall_mem_cons.mp ready
    obtain ⟨after, wrote, received⟩ :=
      writeOutput_received announced bps widths reads outputFramed outputReady
    obtain ⟨others, wroteRest, restReceived⟩ := inductionHypothesis restFramed restReady
    refine ⟨after :: others, ?_, List.Forall₂.cons received restReceived⟩
    rw [writeOutputs, wrote, Option.bind_some, wroteRest, Option.map_some]

/-- A frame that is written to some output has been read. -/
theorem writeOutputs_reads (announced : soundDetails.channels = channels)
    {outputs written : List CacheBuffer} (attached : outputs ≠ [])
    (wrote : writeOutputs library sampleFmt frame soundDetails currentSamplesWritten outputs =
      some written) :
    ∀ index < frame.nbSamples, ∀ channel < channels,
      ∃ copied, readSample library sampleFmt frame index channel = some copied := by
  cases outputs with
  | nil => exact absurd rfl attached
  | cons output rest =>
    rw [writeOutputs, Option.bind_eq_some_iff] at wrote
    obtain ⟨_, first, _⟩ := wrote
    rw [writeOutput, Option.bind_eq_some_iff] at first
    obtain ⟨_, _, putBack⟩ := first
    obtain ⟨_, pushed, _⟩ := Option.map_eq_some_iff.mp putBack
    exact pushFrame_reads announced pushed

end Outputs

/-- The announced bits are those of two or four bytes. -/
theorem announce_bps [DecidableEq Format] (library : SampleFormats Format) (sampleFmt : Format)
    (channels sampleRate : Int) (soundDetails : SoundDetails) :
    ∃ width : Nat, 0 < width ∧ width ≤ 4 ∧
      (announce library sampleFmt channels sampleRate soundDetails).bps = 8 * width := by
  simp only [announce]
  split
  · exact ⟨4, by decide, by decide, rfl⟩
  · split
    · exact ⟨4, by decide, by decide, rfl⟩
    · exact ⟨2, by decide, by decide, rfl⟩

/-- Each sample of a frame in place is read right, and has the announced width. -/
theorem inPlace_read {width : Nat} (fits : width ≤ 4) (positive : 0 < width)
    (bps : soundDetails.bps = 8 * width) (samples : HasSamples library sampleFmt channels frame)
    (inPlace : InPlace library sampleFmt channels frame soundDetails) {index channel : Nat}
    (below : index < frame.nbSamples) (among : channel < channels) :
    (frameSample library sampleFmt channels frame index channel).length = width ∧
      readSample library sampleFmt frame index channel =
        some (frameSample library sampleFmt channels frame index channel) := by
  obtain ⟨bits, places⟩ := inPlace.resolve_left (Nat.ne_zero_of_lt below)
  have same : library.getBytesPerSample sampleFmt = width := by omega
  constructor
  · rw [frameSample_length samples below among, same]
  · exact readSample_frameSample samples below among (same ▸ fits) (same ▸ positive)
      (places.imp_right (fun each => each index below channel among))

/-- What the loops push of a frame whose samples are read, and how many bytes that is. -/
theorem pushedBytes_length {announced width : Nat}
    (channelsAnnounced : soundDetails.channels = announced)
    (reads : ∀ index < frame.nbSamples, ∀ channel < announced,
      ∃ copied, readSample library sampleFmt frame index channel = some copied)
    (sameWidth : frame.nbSamples = 0 ∨ library.getBytesPerSample sampleFmt = width) :
    (pushedBytes library sampleFmt soundDetails frame).length =
      frame.nbSamples * (announced * width) := by
  rw [pushedBytes, channelsAnnounced, Int.toNat_natCast]
  apply Interleaving.frames_length
  intro index below channel among
  obtain ⟨copied, read⟩ := reads index below channel among
  rw [read, Option.getD_some, (readSample_some read).1]
  exact sameWidth.resolve_left (Nat.ne_zero_of_lt below)

/-- A frame whose samples are read is received as it is pushed. -/
theorem writeOutputs_pushed {announced width : Nat} {outputs : List CacheBuffer}
    (channelsAnnounced : soundDetails.channels = announced) (bps : soundDetails.bps = 8 * width)
    (reads : ∀ index < frame.nbSamples, ∀ channel < announced,
      ∃ copied, readSample library sampleFmt frame index channel = some copied)
    (sameWidth : frame.nbSamples = 0 ∨ library.getBytesPerSample sampleFmt = width)
    (framed : ∀ output ∈ outputs, Framed 1 output)
    (ready : ∀ output ∈ outputs, output.cacheBuffer.items ≠ []) (currentSamplesWritten : Int) :
    ∃ written, writeOutputs library sampleFmt frame soundDetails currentSamplesWritten outputs =
        some written ∧
      List.Forall₂ (Received (pushedBytes library sampleFmt soundDetails frame)) outputs
        written := by
  have item : ∀ index < frame.nbSamples, ∀ channel < announced,
      readSample library sampleFmt frame index channel =
        some ((readSample library sampleFmt frame index channel).getD []) := by
    intro index below channel among
    obtain ⟨copied, read⟩ := reads index below channel among
    rw [read, Option.getD_some]
  have widths : ∀ index < frame.nbSamples, ∀ channel < announced,
      ((readSample library sampleFmt frame index channel).getD []).length = width := by
    intro index below channel among
    rw [(readSample_some (item index below channel among)).1]
    exact sameWidth.resolve_left (Nat.ne_zero_of_lt below)
  rw [pushedBytes, channelsAnnounced, Int.toNat_natCast]
  exact writeOutputs_received channelsAnnounced bps widths item framed ready

/-- A frame that is in place and has the announced channels is interleaved. -/
theorem interleaved_of_inPlace {track : FfmpegTrack} {announced width : Nat} (fits : width ≤ 4)
    (positive : 0 < width) (channelsAnnounced : track.soundDetails.channels = announced)
    (bps : track.soundDetails.bps = 8 * width)
    (samples : HasSamples library sampleFmt channels frame)
    (framed : ∀ output ∈ track.outputBufList, Framed 1 output)
    (ready : ∀ output ∈ track.outputBufList, output.cacheBuffer.items ≠ [])
    (sameChannels : ChannelsAnnounced channels frame track.soundDetails)
    (inPlace : InPlace library sampleFmt channels frame track.soundDetails) :
    Interleaved library sampleFmt channels frame track := by
  have equal : frame.nbSamples = 0 ∨ announced = channels :=
    sameChannels.imp_right (fun same => by rw [channelsAnnounced] at same; exact_mod_cast same)
  have sameWidth : frame.nbSamples = 0 ∨ library.getBytesPerSample sampleFmt = width :=
    inPlace.imp_right (fun regular => by have bits := regular.1; omega)
  have reads : ∀ index < frame.nbSamples, ∀ channel < announced,
      readSample library sampleFmt frame index channel =
        some (frameSample library sampleFmt channels frame index channel) := by
    intro index below channel among
    rw [equal.resolve_left (Nat.ne_zero_of_lt below)] at among
    exact (inPlace_read fits positive bps samples inPlace below among).2
  have read : ∀ index < frame.nbSamples, ∀ channel < announced,
      ∃ copied, readSample library sampleFmt frame index channel = some copied :=
    fun index below channel among => ⟨_, reads index below channel among⟩
  obtain ⟨written, wrote, received⟩ := writeOutputs_pushed channelsAnnounced bps read sameWidth
    framed ready (track.currentSamplesWritten + frame.nbSamples)
  have length := pushedBytes_length channelsAnnounced read sameWidth
  refine ⟨_, _, by rw [decodeNew, wrote, Option.map_some], received, rfl, ?_, ?_, ?_⟩
  · rcases Nat.eq_zero_or_pos frame.nbSamples with empty | some
    · rw [length, empty, Nat.zero_mul, Nat.zero_mul, Nat.zero_mul]
    · rw [length, equal.resolve_left (Nat.ne_of_gt some),
        sameWidth.resolve_left (Nat.ne_of_gt some), Nat.mul_assoc]
  · rw [length, samplesToBytes_whole bps, channelsAnnounced]
    push_cast
    rfl
  · intro index below channel among
    obtain rfl := equal.resolve_left (Nat.ne_zero_of_lt below)
    obtain rfl := sameWidth.resolve_left (Nat.ne_zero_of_lt below)
    rw [pushedBytes, channelsAnnounced, Int.toNat_natCast, Interleaving.frames_slice _ below among,
      reads index below channel among, Option.getD_some]
    intro index below channel among
    rw [reads index below channel among, Option.getD_some,
      frameSample_length samples below among]

/-- An interleaved frame has the announced channels and is in place. -/
theorem inPlace_of_interleaved {track : FfmpegTrack} {announced width : Nat}
    (someChannel : 0 < channels) (sized : 0 < library.getBytesPerSample sampleFmt)
    (channelsAnnounced : track.soundDetails.channels = announced)
    (bps : track.soundDetails.bps = 8 * width) (attached : track.outputBufList ≠ [])
    (interleaved : Interleaved library sampleFmt channels frame track) :
    ChannelsAnnounced channels frame track.soundDetails ∧
      InPlace library sampleFmt channels frame track.soundDetails := by
  obtain ⟨after, bytes, decoded, _, pushed, count, reserved, places⟩ := interleaved
  rcases Nat.eq_zero_or_pos frame.nbSamples with empty | positive
  · exact ⟨Or.inl empty, Or.inl empty⟩
  · rw [decodeNew, Option.map_eq_some_iff] at decoded
    obtain ⟨written, wrote, rfl⟩ := decoded
    have read := writeOutputs_reads channelsAnnounced attached wrote
    have length := pushedBytes_length channelsAnnounced read (Or.inr rfl)
    -- All that is pushed is received, so the loops ran over the channels of the frame.
    obtain rfl : announced = channels := by
      rw [← pushed, count, Nat.mul_assoc] at length
      have widths := Nat.eq_of_mul_eq_mul_left positive length
      exact (Nat.eq_of_mul_eq_mul_right sized widths).symm
    have sameWidth : library.getBytesPerSample sampleFmt = width := by
      rw [samplesToBytes_whole bps, channelsAnnounced, count] at reserved
      have products : frame.nbSamples * announced * library.getBytesPerSample sampleFmt =
          frame.nbSamples * announced * width := by
        rw [Nat.mul_assoc frame.nbSamples announced width]
        exact_mod_cast reserved
      exact Nat.eq_of_mul_eq_mul_left (Nat.mul_pos positive someChannel) products
    refine ⟨Or.inr channelsAnnounced, Or.inr ⟨by rw [sameWidth, bps], ?_⟩⟩
    cases planar : library.isPlanar sampleFmt with
    | true => exact Or.inl rfl
    | false =>
      refine Or.inr ?_
      intro index below channel among
      have place := places index below channel among
      obtain ⟨copied, reads⟩ := read index below channel among
      rw [pushed, pushedBytes, channelsAnnounced, Int.toNat_natCast,
        Interleaving.frames_slice _ below among, reads, Option.getD_some, (readSample_some reads).2,
        frameSample, planar, if_neg Bool.false_ne_true, if_neg Bool.false_ne_true] at place
      · exact place
      · intro index below channel among
        obtain ⟨other, readsOther⟩ := read index below channel among
        rw [readsOther, Option.getD_some, (readSample_some readsOther).1]

/-- With the announced width all packed frames of one shape are in place exactly when
they have two channels, or at most one sample. -/
theorem packed_inPlace_iff {count : Nat} (packed : library.isPlanar sampleFmt = false)
    (someChannel : 0 < channels) (positive : 0 < library.getBytesPerSample sampleFmt)
    (bps : 8 * (library.getBytesPerSample sampleFmt : Int) = soundDetails.bps) :
    (∀ frame : AVFrame, frame.nbSamples = count → HasSamples library sampleFmt channels frame →
      InPlace library sampleFmt channels frame soundDetails) ↔ count ≤ 1 ∨ channels = 2 := by
  constructor
  · intro all
    by_contra neither
    obtain ⟨several, other⟩ := not_or.mp neither
    -- Only the first byte of the second sample of the first channel is not zero.
    let data := (List.range (count * channels * library.getBytesPerSample sampleFmt)).map
      (fun place => if place = channels * library.getBytesPerSample sampleFmt then (1 : UInt8)
        else 0)
    have samples : HasSamples library sampleFmt channels ⟨count, [data]⟩ := by
      rw [HasSamples, if_neg (by rw [packed]; exact Bool.false_ne_true)]
      exact ⟨data, rfl, by simp [data]⟩
    have first : ∀ place, (bytesAt ⟨count, [data]⟩ 0 place
        (library.getBytesPerSample sampleFmt))[0]? =
          data[place * library.getBytesPerSample sampleFmt]? := by
      intro place
      rw [bytesAt_eq rfl, List.getElem?_take_of_lt positive, List.getElem?_drop, Nat.add_zero]
    rcases all ⟨count, [data]⟩ rfl samples with empty | ⟨_, planar | places⟩
    · exact several (Nat.le_of_eq empty |>.trans (Nat.zero_le 1))
    · rw [packed] at planar
      exact Bool.false_ne_true planar
    · have same := congrArg (fun bytes => bytes[0]?)
        (places 1 (Nat.not_le.mp several) 0 someChannel)
      have inside : channels * library.getBytesPerSample sampleFmt <
          count * channels * library.getBytesPerSample sampleFmt := by
        apply Nat.mul_lt_mul_of_pos_right _ positive
        exact (Nat.lt_mul_iff_one_lt_left someChannel).mpr (Nat.not_le.mp several)
      have elsewhere : 2 * library.getBytesPerSample sampleFmt ≠
          channels * library.getBytesPerSample sampleFmt :=
        fun equal => other (Nat.eq_of_mul_eq_mul_right positive equal).symm
      simp only [first, Nat.mul_one, Nat.add_zero, Nat.one_mul, data, List.getElem?_map,
        List.getElem?_range inside, Option.map_some, if_true] at same
      obtain ⟨place, found, one⟩ := Option.map_eq_some_iff.mp same
      obtain ⟨_, rfl⟩ := List.getElem?_eq_some_iff.mp found
      rw [List.getElem_range, if_neg elsewhere] at one
      exact absurd one (by decide)
  · rintro small frame rfl _
    refine Or.inr ⟨bps, Or.inr ?_⟩
    intro index below channel among
    rcases small with one | rfl
    · have first : index = 0 := by omega
      rw [first, Nat.mul_zero, Nat.zero_mul]
    · rw [Nat.mul_comm]

/-- A frame is interleaved in all outputs exactly when it has the announced channels and
its samples are where the loops look for them, in the announced width. -/
theorem decodeNew_interleaved_iff [DecidableEq Format] (library : SampleFormats Format)
    (announcedFmt sampleFmt : Format) (announced : Nat) {channels : Nat}
    (someChannel : 0 < channels) (sized : 0 < library.getBytesPerSample sampleFmt)
    (sampleRate written : Int) (soundDetails : SoundDetails) {outputs : List CacheBuffer}
    (attached : outputs ≠ []) (framed : ∀ output ∈ outputs, Framed 1 output)
    (ready : ∀ output ∈ outputs, output.cacheBuffer.items ≠ []) {frame : AVFrame}
    (samples : HasSamples library sampleFmt channels frame) :
    Interleaved library sampleFmt channels frame
        ⟨announce library announcedFmt announced sampleRate soundDetails, written, outputs⟩ ↔
      ChannelsAnnounced channels frame
          (announce library announcedFmt announced sampleRate soundDetails) ∧
        InPlace library sampleFmt channels frame
          (announce library announcedFmt announced sampleRate soundDetails) := by
  obtain ⟨width, positive, fits, bps⟩ :=
    announce_bps library announcedFmt announced sampleRate soundDetails
  constructor
  · exact inPlace_of_interleaved someChannel sized rfl bps attached
  · rintro ⟨sameChannels, inPlace⟩
    exact interleaved_of_inPlace fits positive rfl bps samples framed ready sameChannels inPlace

/-- The sample formats of the library. -/
inductive AVSampleFormat where
  | u8 | s16 | s32 | flt | dbl | u8p | s16p | s32p | fltp | dblp | s64 | s64p
deriving DecidableEq

def avSampleFormats : SampleFormats AVSampleFormat where
  getBytesPerSample
    | .u8 | .u8p => 1
    | .s16 | .s16p => 2
    | .s32 | .s32p | .flt | .fltp => 4
    | .dbl | .dblp | .s64 | .s64p => 8
  isPlanar
    | .u8 | .s16 | .s32 | .flt | .dbl | .s64 => false
    | .u8p | .s16p | .s32p | .fltp | .dblp | .s64p => true
  flt := .flt
  fltp := .fltp
  s32 := .s32

/-- A new output buffer. -/
def newOutput : CacheBuffer := (EmptyBuffer.made 8 4 0 0).buffer

theorem stereo_sample_interleaved :
    Interleaved avSampleFormats .s16 2 ⟨1, [[1, 0, 2, 0]]⟩
      ⟨announce avSampleFormats .s16 (2 : Nat) 44100 .default, 0, [newOutput]⟩ := by
  have samples : HasSamples avSampleFormats .s16 2 ⟨1, [[1, 0, 2, 0]]⟩ := ⟨_, rfl, rfl⟩
  have framed : ∀ output ∈ [newOutput], Framed 1 output :=
    List.forall_mem_singleton.mpr ((EmptyBuffer.made 8 4 0 0).framed 1)
  have ready : ∀ output ∈ [newOutput], output.cacheBuffer.items ≠ [] :=
    List.forall_mem_singleton.mpr (List.cons_ne_nil _ _)
  have places : ∀ index < 1, ∀ channel < 2,
      bytesAt ⟨1, [[1, 0, 2, 0]]⟩ 0 (2 * index + channel) 2 =
        bytesAt ⟨1, [[1, 0, 2, 0]]⟩ 0 (index * 2 + channel) 2 := by decide
  exact (decodeNew_interleaved_iff avSampleFormats .s16 .s16 2 (by decide) (by decide) 44100 0
    .default (List.cons_ne_nil _ _) framed ready samples).mpr
    ⟨Or.inr rfl, Or.inr ⟨rfl, Or.inr places⟩⟩

/-- In a packed frame of one channel the second sample is looked for behind the frame,
a sample of eight bytes does not fit the union, and a frame of one channel has no second
plane where two channels were announced. -/
theorem mono_and_wide_frames_fail :
    ¬ Interleaved avSampleFormats .s16 1 ⟨2, [[1, 0, 2, 0]]⟩
        ⟨announce avSampleFormats .s16 (1 : Nat) 44100 .default, 0, [newOutput]⟩ ∧
      ¬ Interleaved avSampleFormats .dblp 1 ⟨1, [[1, 2, 3, 4, 5, 6, 7, 8]]⟩
        ⟨announce avSampleFormats .dblp (1 : Nat) 44100 .default, 0, [newOutput]⟩ ∧
      ¬ Interleaved avSampleFormats .s16p 1 ⟨1, [[1, 0]]⟩
        ⟨announce avSampleFormats .s16p (2 : Nat) 44100 .default, 0, [newOutput]⟩ := by
  refine ⟨?_, ?_, ?_⟩
  · rintro ⟨after, _, decoded, _⟩
    cases decoded
  · rintro ⟨after, _, decoded, _⟩
    cases decoded
  · rintro ⟨after, _, decoded, _⟩
    cases decoded

end FfmpegFrames

end Mprt
