import Mprt.FfmpegFrames
import Mprt.FlacWrite

/-!
# A whole track of the FFmpeg plugin

`decode` reads a packet of the track and writes the frames that it holds to the outputs.
At the end of the file the frames that the library has kept come out, and the track is
finished: the number of samples is known now, and the chunks that are being filled go to
the data queues.

So an output hears the samples of the track in their order, each once, while its buffer
holds the ones between it and the decoder, and the number of samples that is announced at
the end is that of the bytes that it has got. The frames are the ones that `decode_new`
interleaves.
-/

namespace Mprt

namespace FfmpegTrack

variable {Format : Type}

/-- The loop of `decode_new`, until there is no frame to receive. -/
def receiveFrames (library : SampleFormats Format) (sampleFmt : Format) :
    List AVFrame → FfmpegTrack → Option FfmpegTrack
  | [], track => some track
  | frame :: rest, track =>
    (FfmpegFrames.decodeNew library sampleFmt frame track).bind
      (receiveFrames library sampleFmt rest)

/-- The part of `finish_decode_internal_single` about the track itself. -/
def finishDecode (track : FfmpegTrack) : FfmpegTrack :=
  { track with
    soundDetails := FrameWrite.correctTotal track.currentSamplesWritten track.soundDetails
    outputBufList := track.outputBufList.map CacheBuffer.syncCache }

end FfmpegTrack

namespace FfmpegDecode

open FfmpegFrames
open FrameWrite

variable {Format : Type}

/-- What `av_read_frame` finds, with the frames that the library has for it. -/
inductive ReadFrame where
  | packet (frames : List AVFrame)
  | endOfFile (frames : List AVFrame)
  | failed

def ReadFrame.frames : ReadFrame → List AVFrame
  | .packet frames | .endOfFile frames => frames
  | .failed => []

/-- `decode`. -/
def decode (library : SampleFormats Format) (sampleFmt : Format) (read : ReadFrame)
    (track : FfmpegTrack) : Option FfmpegTrack :=
  match read with
  | .packet frames => track.receiveFrames library sampleFmt frames
  | .endOfFile frames =>
    (track.receiveFrames library sampleFmt frames).map FfmpegTrack.finishDecode
  | .failed => some track

/-- What has been sent to an output, and what it has heard. -/
structure Ledger where
  sent : List UInt8
  heard : List UInt8
deriving DecidableEq

/-- The track, with the histories of its outputs and the number of decoded samples. A track
that is finished has left the list of the decoder. -/
structure State where
  track : FfmpegTrack
  ledgers : List Ledger
  decoded : Nat
  finished : Bool

/-- The decoder reads, or an output takes frames from the front data chunk of its buffer. -/
inductive Action where
  | decode (read : ReadFrame)
  | take (output frames : Nat)

/-- The bytes of a frame as they belong: the samples of all channels, one after another. -/
def frameBytes (library : SampleFormats Format) (sampleFmt : Format) (channels : Nat)
    (frame : AVFrame) : List UInt8 :=
  Interleaving.frames frame.nbSamples channels (frameSample library sampleFmt channels frame)

/-- The bytes of the front data chunk that an output takes. -/
def takenBytes (frameSize frames : Nat) (output : CacheBuffer) : List UInt8 :=
  match output.getDataPtr with
  | none => []
  | some (chunk, _) => chunk.second.items.take (min (frames * frameSize) chunk.second.size)

/-- One action. A read waits until each output has a chunk for each frame. -/
def step (library : SampleFormats Format) (sampleFmt : Format) (state : State) :
    Action → Option State
  | .decode read =>
    if state.finished then none
    else
      let bytes := read.frames.flatMap
        (frameBytes library sampleFmt state.track.soundDetails.channels.toNat)
      (decode library sampleFmt read state.track).map (fun decoded =>
        { track := decoded
          ledgers := state.ledgers.map (fun ledger => { ledger with sent := ledger.sent ++ bytes })
          decoded := state.decoded + (read.frames.map (·.nbSamples)).sum
          finished := match read with | .endOfFile _ => true | _ => false })
  | .take output frames =>
    let frameSize := (state.track.soundDetails.samplesToBytes 1).toNat
    some { state with
      track := { state.track with
        outputBufList := state.track.outputBufList.modify output
          (takeFrames frameSize frames false) }
      ledgers := match state.track.outputBufList[output]? with
        | none => state.ledgers
        | some buffer => state.ledgers.modify output (fun ledger =>
            { ledger with heard := ledger.heard ++ takenBytes frameSize frames buffer }) }

/-- A track that has been opened, with a new buffer for each output. -/
def opened [DecidableEq Format] (library : SampleFormats Format) (sampleFmt : Format)
    (channels : Nat) (sampleRate : Int) (soundDetails : SoundDetails)
    (outputs : List EmptyBuffer) : State where
  track := ⟨announce library sampleFmt channels sampleRate soundDetails, 0,
    outputs.map (·.buffer)⟩
  ledgers := outputs.map (fun _ => ⟨[], []⟩)
  decoded := 0
  finished := false

/-- The frames of a read are whole and in place. -/
def Regular (library : SampleFormats Format) (sampleFmt : Format) (state : State) :
    Action → Prop
  | .decode read => ∀ frame ∈ read.frames,
      HasSamples library sampleFmt state.track.soundDetails.channels.toNat frame ∧
        InPlace library sampleFmt state.track.soundDetails.channels.toNat frame
          state.track.soundDetails
  | .take _ _ => True

/-! ## One output -/

/-- The buffer of an output holds what has been sent and not been heard. -/
structure Balanced (ledger : Ledger) (output : CacheBuffer) : Prop where
  framed : Framed 1 output
  sent : ledger.sent = ledger.heard ++ (output.dataBytes ++ output.frontBytes)

section Output

variable {library : SampleFormats Format} {sampleFmt : Format} {channels width : Nat}
  {frame : AVFrame} {soundDetails : SoundDetails} {output after : CacheBuffer}
  {currentSamplesWritten : Int}

/-- The bytes of a regular frame are those that the announced width and channels give. -/
theorem frameBytes_length (announced : soundDetails.channels = channels)
    (bps : soundDetails.bps = 8 * width) (fits : width ≤ 4) (positive : 0 < width)
    (samples : HasSamples library sampleFmt channels frame)
    (inPlace : InPlace library sampleFmt channels frame soundDetails) :
    ((frameBytes library sampleFmt channels frame).length : Int) =
      soundDetails.samplesToBytes frame.nbSamples := by
  have length : (frameBytes library sampleFmt channels frame).length =
      frame.nbSamples * (channels * width) := Interleaving.frames_length
    (fun _ below _ among => (inPlace_read fits positive bps samples inPlace below among).1)
  rw [length, samplesToBytes_whole bps, announced]
  push_cast
  rfl

/-- A regular frame that is written to an output is received. -/
theorem writeOutput_keeps (announced : soundDetails.channels = channels)
    (bps : soundDetails.bps = 8 * width) (fits : width ≤ 4) (positive : 0 < width)
    (samples : HasSamples library sampleFmt channels frame)
    (inPlace : InPlace library sampleFmt channels frame soundDetails) (framed : Framed 1 output)
    (wrote : writeOutput library sampleFmt frame soundDetails currentSamplesWritten output =
      some after) :
    Framed 1 after ∧ Received (frameBytes library sampleFmt channels frame) output after := by
  have reads : ∀ index < frame.nbSamples, ∀ channel < channels,
      readSample library sampleFmt frame index channel =
        some (frameSample library sampleFmt channels frame index channel) :=
    fun _ below _ among => (inPlace_read fits positive bps samples inPlace below among).2
  have total : soundDetails.samplesToBytes 1 * frame.nbSamples =
      ((frameBytes library sampleFmt channels frame).length : Int) := by
    have one := samplesToBytes_whole bps 1
    rw [frameBytes_length announced bps fits positive samples inPlace, samplesToBytes_whole bps]
    rw [Int.natCast_one, Int.one_mul] at one
    rw [one, Int.mul_comm]
  rw [writeOutput, total] at wrote
  obtain ⟨⟨chunk, held⟩, got, wrote⟩ := Option.bind_eq_some_iff.mp wrote
  have room := enlarge_reserve (frameBytes library sampleFmt channels frame).length chunk
  have items := CircularBuffer.append_items room
  rw [enlarge_items] at items
  rw [pushFrame_append announced reads room] at wrote
  obtain rfl := Option.some.inj wrote
  exact putFilled_received framed got items (Nat.one_dvd _) _ _ _

/-- Taking frames moves their bytes from the buffer to the output. -/
theorem takeFrames_moves (framed : Framed 1 output) (frameSize frames : Nat) :
    Framed 1 (takeFrames frameSize frames false output) ∧
      (takeFrames frameSize frames false output).frontBytes = output.frontBytes ∧
      takenBytes frameSize frames output ++ (takeFrames frameSize frames false output).dataBytes =
        output.dataBytes := by
  cases got : output.getDataPtr with
  | none =>
    simp only [takeFrames, takenBytes, got, List.nil_append]
    exact ⟨framed, trivial, trivial⟩
  | some found =>
    obtain ⟨chunk, held⟩ := found
    obtain ⟨⟨rest, front⟩, cache, data⟩ := CacheBuffer.getDataPtr_some got
    simp only [takeFrames, takenBytes, got]
    generalize min (frames * frameSize) chunk.second.size = count
    have heldFront : held.dataBuffer.items = chunk :: rest := data ▸ front
    have erasedFront : (held.modifyData (·.eraseBegin count)).dataBuffer.items =
        chunk.eraseBegin count :: rest := BoundedQueue.modifyFront_cons heldFront _
    have erased : Framed 1 (held.modifyData (·.eraseBegin count)) :=
      modifyData_framed (held_framed framed cache data).1 heldFront (Nat.one_dvd _)
    have room := erased.cacheRoom
    rw [erasedFront, List.length_cons] at room
    obtain ⟨_, _, _, moved⟩ := CacheBuffer.putDataPtr_queues erasedFront (by omega) false
    refine ⟨putDataPtr_framed erased erasedFront false, ?_⟩
    have split : chunk.second.items = chunk.second.items.take count ++
        (chunk.eraseBegin count).second.items := (List.take_append_drop count _).symm
    have sameCache : (held.modifyData (·.eraseBegin count)).cacheBuffer = output.cacheBuffer := cache
    have before : output.dataBytes = chunk.second.items.take count ++
        ((chunk.eraseBegin count).second.items ++ CacheBuffer.queueBytes rest) := by
      rw [CacheBuffer.dataBytes, front, CacheBuffer.queueBytes_cons, ← List.append_assoc, ← split]
    rcases moved with ⟨_, left, same⟩ | ⟨emptied, left, returned⟩
    · rw [before, CacheBuffer.dataBytes, CacheBuffer.frontBytes, left, same, sameCache,
        CacheBuffer.queueBytes_cons]
      exact ⟨rfl, rfl⟩
    · have none := emptied.resolve_left Bool.false_ne_true
      have front : CacheBuffer.queueBytes
          ((output.cacheBuffer.items ++ [(chunk.eraseBegin count).clear]).take 1) =
            output.frontBytes := by
        rw [CacheBuffer.frontBytes]
        cases output.cacheBuffer.items <;> rfl
      rw [before, CacheBuffer.dataBytes, CacheBuffer.frontBytes, left, returned, sameCache, none,
        front, List.nil_append]
      exact ⟨rfl, rfl⟩

/-- A rotation takes the front chunk out of the cache queue. -/
theorem putCachePtr_rotates {chunk : Chunk} {rest : List Chunk}
    (front : output.cacheBuffer.items = chunk :: rest) :
    (output.putCachePtr true).cacheBuffer.items = rest := by
  have found := BoundedQueue.front_eq_some_iff.mpr ⟨rest, front⟩
  obtain ⟨remaining, read, items, _⟩ := BoundedQueue.read_cons front
  simp only [CacheBuffer.putCachePtr, CacheBuffer.putGenPtr, CacheBuffer.putGenPtrSize, found,
    Bool.or_true, if_true, CacheBuffer.rotateCache, CacheBuffer.rotateCacheRead, read,
    Option.map_some, CacheBuffer.rotateCacheWrite]
  split <;> exact items

/-- At the end nothing stays in the chunk that is being filled. -/
theorem syncCache_moves (framed : Framed 1 output) :
    Framed 1 output.syncCache ∧ output.syncCache.frontBytes = [] ∧
      output.syncCache.dataBytes = output.dataBytes ++ output.frontBytes := by
  refine ⟨syncCache_framed framed, ?_⟩
  rw [CacheBuffer.syncCache]
  cases got : output.getCachePtr with
  | none =>
    have none : output.frontBytes = [] := by
      rw [CacheBuffer.frontBytes, CacheBuffer.getCachePtr_none got]
      rfl
    exact ⟨none, by rw [none, List.append_nil]⟩
  | some found =>
    obtain ⟨chunk, held⟩ := found
    obtain ⟨⟨rest, front⟩, cache, data⟩ := CacheBuffer.getCachePtr_some got
    rw [← cache] at front
    obtain ⟨heldFramed, same⟩ := held_framed framed cache data
    have put := (same.trans (putCachePtr_framed heldFramed front true).2).stream
    have none : (held.putCachePtr true).frontBytes = [] := by
      rw [CacheBuffer.frontBytes, putCachePtr_rotates front]
      exact heldFramed.rest_bytes front
    rw [none, List.append_nil, List.append_nil] at put
    exact ⟨none, by simpa using put⟩

end Output

/-! ## The track -/

/-- Bytes are sent to an output. -/
def Ledger.send (bytes : List UInt8) (ledger : Ledger) : Ledger :=
  { ledger with sent := ledger.sent ++ bytes }

section Frames

variable {library : SampleFormats Format} {sampleFmt : Format} {channels width : Nat}
  {track after : FfmpegTrack} {ledgers : List Ledger}

/-- What a regular frame needs of the track. -/
structure Fits (library : SampleFormats Format) (sampleFmt : Format) (channels : Nat)
    (soundDetails : SoundDetails) (frame : AVFrame) : Prop where
  samples : HasSamples library sampleFmt channels frame
  inPlace : InPlace library sampleFmt channels frame soundDetails

theorem writeOutputs_balanced {frame : AVFrame} {soundDetails : SoundDetails}
    {currentSamplesWritten : Int} (announced : soundDetails.channels = channels)
    (bps : soundDetails.bps = 8 * width) (fits : width ≤ 4) (positive : 0 < width)
    (regular : Fits library sampleFmt channels soundDetails frame)
    {outputs written : List CacheBuffer} (balanced : List.Forall₂ Balanced ledgers outputs)
    (wrote : writeOutputs library sampleFmt frame soundDetails currentSamplesWritten outputs =
      some written) :
    List.Forall₂ Balanced
      (ledgers.map (Ledger.send (frameBytes library sampleFmt channels frame))) written := by
  induction balanced generalizing written with
  | nil =>
    obtain rfl := Option.some.inj wrote
    exact .nil
  | cons one others inductionHypothesis =>
    obtain ⟨first, wroteFirst, wrote⟩ := Option.bind_eq_some_iff.mp wrote
    obtain ⟨rest, wroteRest, rfl⟩ := Option.map_eq_some_iff.mp wrote
    obtain ⟨framed, received⟩ := writeOutput_keeps announced bps fits positive regular.samples
      regular.inPlace one.framed wroteFirst
    refine .cons ⟨framed, ?_⟩ (inductionHypothesis wroteRest)
    rw [Ledger.send, received.stream, one.sent]
    simp only [List.append_assoc]

/-- The frames of a packet are sent in turn. The induction is on them. -/
theorem receiveFrames_balanced {frames : List AVFrame}
    (received : track.receiveFrames library sampleFmt frames = some after)
    (announced : track.soundDetails.channels = channels)
    (bps : track.soundDetails.bps = 8 * width) (fits : width ≤ 4) (positive : 0 < width)
    (regular : ∀ frame ∈ frames, Fits library sampleFmt channels track.soundDetails frame)
    (balanced : List.Forall₂ Balanced ledgers track.outputBufList) :
    after.soundDetails = track.soundDetails ∧
      after.currentSamplesWritten =
        track.currentSamplesWritten + (frames.map (·.nbSamples)).sum ∧
      List.Forall₂ Balanced
        (ledgers.map (Ledger.send (frames.flatMap (frameBytes library sampleFmt channels))))
        after.outputBufList := by
  induction frames generalizing track ledgers with
  | nil =>
    obtain rfl := Option.some.inj received
    refine ⟨rfl, by simp, ?_⟩
    have nothing : Ledger.send [] = id := by
      funext ledger
      rw [Ledger.send, List.append_nil, id]
    rw [List.flatMap_nil, nothing, List.map_id]
    exact balanced
  | cons frame rest inductionHypothesis =>
    obtain ⟨now, later⟩ := List.forall_mem_cons.mp regular
    obtain ⟨middle, decoded, received⟩ := Option.bind_eq_some_iff.mp received
    obtain ⟨written, wrote, rfl⟩ := Option.map_eq_some_iff.mp decoded
    obtain ⟨details, count, others⟩ := inductionHypothesis received announced bps later
      (writeOutputs_balanced announced bps fits positive now balanced wrote)
    refine ⟨details, ?_, ?_⟩
    · rw [count, List.map_cons, List.sum_cons]
      push_cast
      ring
    · rw [List.map_map] at others
      have joined : Ledger.send (rest.flatMap (frameBytes library sampleFmt channels)) ∘
          Ledger.send (frameBytes library sampleFmt channels frame) =
            Ledger.send ((frame :: rest).flatMap (frameBytes library sampleFmt channels)) := by
        funext ledger
        simp only [Function.comp_apply, Ledger.send, List.flatMap_cons, List.append_assoc]
      rw [← joined]
      exact others

end Frames

/-! ## Runs -/

/-- The format is announced, and every output has been sent the decoded samples, which its
buffer balances. At the end of the track their number is the total. -/
structure Sound (width channels : Nat) (state : State) : Prop where
  bps : state.track.soundDetails.bps = 8 * width
  channels : state.track.soundDetails.channels = channels
  counted : state.track.currentSamplesWritten = state.decoded
  balanced : List.Forall₂ Balanced state.ledgers state.track.outputBufList
  lengths : ∀ ledger ∈ state.ledgers,
    (ledger.sent.length : Int) = state.track.soundDetails.samplesToBytes state.decoded
  finished : state.finished = true → state.track.soundDetails.totalSamples = state.decoded ∧
    ∀ output ∈ state.track.outputBufList, output.frontBytes = []

section Runs

variable {library : SampleFormats Format} {sampleFmt : Format} {channels width : Nat}
  {state next : State}

theorem balanced_framed {ledgers : List Ledger} {outputs : List CacheBuffer}
    (balanced : List.Forall₂ Balanced ledgers outputs) :
    ∀ output ∈ outputs, Framed 1 output := by
  induction balanced with
  | nil => simp
  | cons one _ inductionHypothesis =>
    exact List.forall_mem_cons.mpr ⟨one.framed, inductionHypothesis⟩

/-- What has been sent, with nothing in the chunks that are being filled at the end. -/
theorem balanced_hears {ledgers : List Ledger} {outputs : List CacheBuffer} {ended : Prop}
    (balanced : List.Forall₂ Balanced ledgers outputs)
    (fronts : ended → ∀ output ∈ outputs, output.frontBytes = []) :
    List.Forall₂ (fun ledger output =>
      ledger.sent = ledger.heard ++ (output.dataBytes ++ output.frontBytes) ∧
        (ended → ledger.sent = ledger.heard ++ output.dataBytes)) ledgers outputs := by
  induction balanced with
  | nil => exact .nil
  | cons one _ inductionHypothesis =>
    refine .cons ⟨one.sent, fun finished => ?_⟩ (inductionHypothesis (fun finished output member =>
      fronts finished output (List.mem_cons_of_mem _ member)))
    rw [one.sent, fronts finished _ List.mem_cons_self, List.append_nil]

/-- The end of the track leaves the buffers balanced. -/
theorem synced_balanced {ledgers : List Ledger} {outputs : List CacheBuffer}
    (balanced : List.Forall₂ Balanced ledgers outputs) :
    List.Forall₂ Balanced ledgers (outputs.map CacheBuffer.syncCache) ∧
      ∀ output ∈ outputs.map CacheBuffer.syncCache, output.frontBytes = [] := by
  induction balanced with
  | nil => exact ⟨.nil, by simp⟩
  | cons one _ inductionHypothesis =>
    obtain ⟨framed, none, all⟩ := syncCache_moves one.framed
    refine ⟨.cons ⟨framed, ?_⟩ inductionHypothesis.1,
      List.forall_mem_cons.mpr ⟨none, inductionHypothesis.2⟩⟩
    rw [none, all, List.append_nil]
    exact one.sent

/-- An output that takes frames hears the bytes that leave its buffer. -/
theorem taken_balanced {ledgers : List Ledger} {outputs : List CacheBuffer}
    (balanced : List.Forall₂ Balanced ledgers outputs) {output frameSize frames : Nat}
    {buffer : CacheBuffer} (there : outputs[output]? = some buffer) :
    List.Forall₂ Balanced
      (ledgers.modify output (fun ledger =>
        { ledger with heard := ledger.heard ++ takenBytes frameSize frames buffer }))
      (outputs.modify output (takeFrames frameSize frames false)) := by
  induction balanced generalizing output with
  | nil => cases there
  | cons one others inductionHypothesis =>
    cases output with
    | zero =>
      obtain rfl := Option.some.inj there
      obtain ⟨framed, front, moved⟩ := takeFrames_moves one.framed frameSize frames
      refine .cons ⟨framed, ?_⟩ others
      rw [List.append_assoc, ← List.append_assoc (takenBytes _ _ _), moved, front]
      exact one.sent
    | succ output => exact .cons one (inductionHypothesis there)

/-- The bytes of regular frames are as many as their samples give. -/
theorem flatMap_length {soundDetails : SoundDetails} (announced : soundDetails.channels = channels)
    (bps : soundDetails.bps = 8 * width) (fits : width ≤ 4) (positive : 0 < width)
    {frames : List AVFrame}
    (regular : ∀ frame ∈ frames, Fits library sampleFmt channels soundDetails frame) :
    ((frames.flatMap (frameBytes library sampleFmt channels)).length : Int) =
      soundDetails.samplesToBytes ((frames.map (·.nbSamples)).sum : Nat) := by
  induction frames with
  | nil => rw [samplesToBytes_whole bps]; simp
  | cons frame rest inductionHypothesis =>
    obtain ⟨now, later⟩ := List.forall_mem_cons.mp regular
    rw [List.flatMap_cons, List.length_append, List.map_cons, List.sum_cons, Nat.cast_add,
      frameBytes_length announced bps fits positive now.samples now.inPlace,
      inductionHypothesis later]
    simp only [samplesToBytes_whole bps]
    push_cast
    ring

/-- Frames are sent to all outputs. -/
theorem Sound.receive (sound : Sound width channels state) (fits : width ≤ 4)
    (positive : 0 < width) {frames : List AVFrame} {after : FfmpegTrack}
    (regular : ∀ frame ∈ frames,
      Fits library sampleFmt channels state.track.soundDetails frame)
    (received : state.track.receiveFrames library sampleFmt frames = some after) :
    Sound width channels
      { track := after
        ledgers := state.ledgers.map
          (Ledger.send (frames.flatMap (frameBytes library sampleFmt channels)))
        decoded := state.decoded + (frames.map (·.nbSamples)).sum
        finished := false } := by
  obtain ⟨details, count, balanced⟩ := receiveFrames_balanced received sound.channels sound.bps
    fits positive regular sound.balanced
  refine ⟨details ▸ sound.bps, details ▸ sound.channels, ?_, balanced, ?_, fun ended => ?_⟩
  · rw [count, sound.counted]
    push_cast
    rfl
  · intro ledger member
    obtain ⟨before, known, rfl⟩ := List.mem_map.mp member
    rw [details, Ledger.send, List.length_append, Nat.cast_add, sound.lengths before known,
      flatMap_length sound.channels sound.bps fits positive regular]
    simp only [samplesToBytes_whole sound.bps]
    push_cast
    ring
  · cases ended

/-- The end of the track announces the number of samples. -/
theorem Sound.finish {track : FfmpegTrack} {ledgers : List Ledger} {decoded : Nat}
    (sound : Sound width channels ⟨track, ledgers, decoded, false⟩) :
    Sound width channels ⟨track.finishDecode, ledgers, decoded, true⟩ := by
  obtain ⟨balanced, fronts⟩ := synced_balanced sound.balanced
  have total : track.finishDecode.soundDetails.totalSamples = decoded ∧
      track.finishDecode.soundDetails.bps = track.soundDetails.bps ∧
      track.finishDecode.soundDetails.channels = track.soundDetails.channels := by
    have counted : track.currentSamplesWritten = decoded := sound.counted
    have details : track.finishDecode.soundDetails =
        { track.soundDetails with totalSamples := track.currentSamplesWritten } :=
      correctTotal_eq track.currentSamplesWritten track.soundDetails
    rw [details]
    exact ⟨counted, rfl, rfl⟩
  have bps := total.2.1.trans sound.bps
  refine ⟨bps, total.2.2.trans sound.channels, sound.counted, balanced, ?_,
    fun _ => ⟨total.1, fronts⟩⟩
  intro ledger member
  rw [sound.lengths ledger member, samplesToBytes_whole bps, samplesToBytes_whole sound.bps,
    total.2.2]

theorem step_sound (fits : width ≤ 4) (positive : 0 < width) (state : State) (action : Action)
    (next : State) (sound : Sound width channels state)
    (regular : Regular library sampleFmt state action)
    (taken : step library sampleFmt state action = some next) : Sound width channels next := by
  have whole : state.track.soundDetails.channels.toNat = channels := by
    rw [sound.channels, Int.toNat_natCast]
  cases action with
  | decode read =>
    simp only [Regular, whole] at regular
    have each : ∀ frame ∈ read.frames,
        Fits library sampleFmt channels state.track.soundDetails frame :=
      fun frame member => ⟨(regular frame member).1, (regular frame member).2⟩
    simp only [step, whole] at taken
    split at taken
    · cases taken
    · obtain ⟨after, decoded, rfl⟩ := Option.map_eq_some_iff.mp taken
      cases read with
      | packet frames => exact sound.receive fits positive each decoded
      | endOfFile frames =>
        obtain ⟨middle, received, rfl⟩ := Option.map_eq_some_iff.mp decoded
        exact (sound.receive fits positive each received).finish
      | failed =>
        obtain rfl := Option.some.inj decoded
        exact sound.receive fits positive each rfl
  | take output frames =>
    obtain rfl := Option.some.inj taken
    cases there : state.track.outputBufList[output]? with
    | none =>
      have same : ∀ change : CacheBuffer → CacheBuffer,
          state.track.outputBufList.modify output change = state.track.outputBufList :=
        fun change => List.modify_eq_self (List.getElem?_eq_none_iff.mp there)
      simp only [same]
      exact sound
    | some buffer =>
      refine ⟨sound.bps, sound.channels, sound.counted, taken_balanced sound.balanced there, ?_, ?_⟩
      · refine FlacWrite.forall_mem_modify ?_ sound.lengths output
        exact fun _ length => length
      · intro ended
        obtain ⟨total, fronts⟩ := sound.finished ended
        refine ⟨total, ?_⟩
        have none : ∀ buffer ∈ state.track.outputBufList,
            Framed 1 buffer ∧ buffer.frontBytes = [] := fun buffer member =>
          ⟨balanced_framed sound.balanced buffer member, fronts buffer member⟩
        intro buffer member
        refine (FlacWrite.forall_mem_modify ?_ none output buffer member).2
        rintro other ⟨framed, front⟩
        obtain ⟨still, same, _⟩ := takeFrames_moves framed
          (state.track.soundDetails.samplesToBytes 1).toNat frames
        exact ⟨still, same.trans front⟩

/-- A track is opened with nothing sent. -/
theorem opened_sound [DecidableEq Format] (library : SampleFormats Format) (sampleFmt : Format)
    (channels : Nat) (sampleRate : Int) (soundDetails : SoundDetails)
    (outputs : List EmptyBuffer) :
    ∃ width, 0 < width ∧ width ≤ 4 ∧ Sound width channels
      (opened library sampleFmt channels sampleRate soundDetails outputs) := by
  obtain ⟨width, positive, fits, bps⟩ :=
    announce_bps library sampleFmt channels sampleRate soundDetails
  refine ⟨width, positive, fits, bps, rfl, rfl, ?_, ?_, fun ended => by cases ended⟩
  · rw [opened, List.forall₂_map_left_iff, List.forall₂_map_right_iff, List.forall₂_same]
    intro empty _
    have vacant : empty.buffer.dataBytes ++ empty.buffer.frontBytes = [] := by
      rw [CacheBuffer.dataBytes, CacheBuffer.frontBytes,
        CacheBuffer.queueBytes_of_empty empty.dataEmpty, CacheBuffer.queueBytes_of_empty
          (fun chunk member => empty.cacheEmpty chunk (List.mem_of_mem_take member)),
        List.append_nil]
    exact ⟨empty.framed 1, by rw [vacant]; rfl⟩
  · intro ledger member
    obtain ⟨_, _, rfl⟩ := List.mem_map.mp member
    rw [opened, samplesToBytes_whole bps]
    simp

end Runs

/-- In every run of a track whose frames are whole and in place, each output has heard the
samples that it has been sent, in their order, but for those that its buffer holds. When the
track is finished they are all in the data queue, and the total that is announced is the number
of the samples. -/
theorem outputs_hear [DecidableEq Format] (library : SampleFormats Format) (sampleFmt : Format)
    (channels : Nat) (sampleRate : Int) (soundDetails : SoundDetails)
    (outputs : List EmptyBuffer) (actions : List Action) (finish : State)
    (regular : LabelledRuns.Meets (step library sampleFmt) (Regular library sampleFmt)
      (opened library sampleFmt channels sampleRate soundDetails outputs) actions)
    (ran : LabelledRuns.run (step library sampleFmt)
      (opened library sampleFmt channels sampleRate soundDetails outputs) actions = some finish) :
    List.Forall₂ (fun ledger output =>
        ledger.sent = ledger.heard ++ (output.dataBytes ++ output.frontBytes) ∧
          (finish.finished = true → ledger.sent = ledger.heard ++ output.dataBytes))
      finish.ledgers finish.track.outputBufList ∧
    (∀ ledger ∈ finish.ledgers, (ledger.sent.length : Int) =
      finish.track.soundDetails.samplesToBytes finish.decoded) ∧
    (finish.finished = true → finish.track.soundDetails.totalSamples = finish.decoded) := by
  obtain ⟨width, positive, fits, initial⟩ :=
    opened_sound library sampleFmt channels sampleRate soundDetails outputs
  have sound := LabelledRuns.run_preserves_under (step_sound fits positive) initial regular ran
  exact ⟨balanced_hears sound.balanced (fun ended => (sound.finished ended).2), sound.lengths,
    fun ended => (sound.finished ended).1⟩

/-- Two samples of two channels. -/
def stereoFrame : AVFrame := ⟨2, [[1, 0, 2, 0, 3, 0, 4, 0]]⟩

theorem stereoFrame_regular (state : State) (channels : state.track.soundDetails.channels = 2)
    (bps : state.track.soundDetails.bps = 16) :
    Regular avSampleFormats .s16 state (.decode (.packet [stereoFrame])) := by
  intro frame member
  obtain rfl := List.mem_singleton.mp member
  rw [channels]
  refine ⟨⟨_, rfl, rfl⟩, Or.inr ⟨by rw [bps]; rfl, Or.inr (fun index _ channel _ => ?_)⟩⟩
  rw [Nat.mul_comm]
  rfl

/-- The frame is decoded, its first sample is heard, and the track ends. -/
theorem outputs_hear_stereo : ∃ finish,
    LabelledRuns.run (step avSampleFormats .s16)
      (opened avSampleFormats .s16 2 44100 .default [.made 8 4 0 0])
      [.decode (.packet [stereoFrame]), .take 0 1, .decode (.endOfFile [])] = some finish ∧
      finish.finished = true ∧ finish.track.soundDetails.totalSamples = finish.decoded := by
  refine ⟨_, rfl, rfl, ?_⟩
  have regular : LabelledRuns.Meets (step avSampleFormats .s16) (Regular avSampleFormats .s16)
      (opened avSampleFormats .s16 2 44100 .default [.made 8 4 0 0])
      [.decode (.packet [stereoFrame]), .take 0 1, .decode (.endOfFile [])] :=
    (LabelledRuns.meets_cons rfl).mpr ⟨stereoFrame_regular _ rfl rfl,
      (LabelledRuns.meets_cons rfl).mpr ⟨trivial,
        (LabelledRuns.meets_cons rfl).mpr ⟨(fun _ member => by cases member), trivial⟩⟩⟩
  exact (outputs_hear avSampleFormats .s16 2 44100 .default [.made 8 4 0 0] _ _ regular rfl).2.2 rfl

end FfmpegDecode

end Mprt
