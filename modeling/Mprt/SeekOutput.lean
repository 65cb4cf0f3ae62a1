import Mprt.LabelledRuns
import Mprt.Circulation
import Mprt.DecoderPluginsManager
import Mprt.SeekHandshake

/-!
# A seek between decoder and output

On a seek the decoder thread clears the cache chunk it is filling, posts five
jobs to the output plugin, and decodes on from the new position. One of the jobs
clears the data queue, which held what was decoded before the seek. The output
thread runs its jobs in order and plays from the same buffer whenever its timer
fires.

Nothing makes the decoder wait for that job. A chunk that it fills and rotates
before the job has cleared the data queue is cleared with the old ones. When the
job is always done before the next chunk with samples is rotated, what is played
after it is the newly decoded stream from its first sample.

A step of either thread is one access to what they share. The model has one
track and one output plugin. A library that writes frames while it seeks does so
before the seek's first step. The device, which pauses and is filled with
silence by three of the jobs, takes the samples that it is said to take.
-/

namespace Mprt.SeekOutput

open CacheBufferThreads hiding State Action step start
open Circulation
open CacheBuffer (queueBytes)

/-- What the output thread is doing with the buffer: nothing, the `clear_data` of
the job `clear_play_data`, or that of a buffer it gives back. -/
inductive OutputTask where
  | idle
  | clearPlayData
  | giveBack
deriving DecidableEq

/-- The track in the decoder, with the jobs that its seek has still to post; the
jobs of the output plugin; the entry of the track in the queue of the plugin, if
it is there. As history, whether there was a seek, what has been decoded since,
and what has been played since the data queue was last cleared. -/
structure State where
  buffer : CacheBuffer
  producer : Producer
  soundDetails : SoundDetails
  currentSamplesWritten : Int
  posting : List OutputRequest
  jobs : List OutputRequest
  consumer : Consumer OutputTask
  queued : Option SoundDetails
  sought : Bool
  decoded : List UInt8
  played : List UInt8
deriving DecidableEq

/-- How a call of `play` for the track ends, when it does not return early: it
cannot be initialised, its decoder writes nothing, or the device takes samples. -/
inductive PlayOutcome where
  | refused
  | starved
  | written (samples : Int)
deriving DecidableEq

inductive Action where
  | seekDuration (seekDurationMs : Int)
  | addJob
  | decode (samples : Int) (bytes : List UInt8)
  | finishDecode
  | decoderAdvance
  | job
  | play (outcome : PlayOutcome)
  | outputAdvance
deriving DecidableEq

/-- The jobs that `seek_duration` posts to an output plugin. -/
def seekRequests (urlId seekDurationMs : Int) : List OutputRequest :=
  [.pausePlay, .clearPlayData urlId, .fillDrain, .setSeekDurationMs urlId seekDurationMs,
    .resumeClearPlay]

/-- `seek_duration` up to its first `add_job`. -/
def seekStep (state : State) (seekDurationMs : Int) : Option State :=
  (producerStep state.buffer .ready .clearCache).map (fun cleared =>
    { state with
      buffer := cleared.1
      producer := cleared.2
      currentSamplesWritten := state.soundDetails.timeDurationToSamples (seekDurationMs * 1000)
      posting := seekRequests state.soundDetails.urlId seekDurationMs
      sought := true
      decoded := []
      played := [] })

/-- `write_callback` up to the read of its rotation; it waits for a cache chunk. -/
def decodeStep (state : State) (samples : Int) (bytes : List UInt8) : Option State :=
  match state.buffer.getCachePtr with
  | none => none
  | some (chunk, held) =>
    let currentSamplesWritten := state.currentSamplesWritten + samples
    let filled := DecoderPluginsManager.fillFrame bytes chunk
    let put := producerPut (held.modifyCache (fun _ => filled))
      (currentSamplesWritten == state.soundDetails.totalSamples ||
        filled.second.reserve < state.soundDetails.samplesToBytes 1)
    some { state with
      buffer := put.1
      producer := put.2
      currentSamplesWritten := currentSamplesWritten
      decoded := state.decoded ++ bytes }

/-- `finish_decode_internal_single`: a wrong total is corrected, and the last chunk
rotated. -/
def finishStep (state : State) : Option State :=
  (producerStep state.buffer .ready .syncCache).map (fun synced =>
    let ended := { state with buffer := synced.1, producer := synced.2 }
    if state.currentSamplesWritten ≠ state.soundDetails.totalSamples then
      { ended with
        soundDetails :=
          { state.soundDetails with totalSamples := state.currentSamplesWritten }
        jobs := state.jobs ++
          [.updateTotalSamples state.soundDetails.urlId state.currentSamplesWritten] }
    else ended)

/-- A job of the output plugin. Its clear has nothing to do when the track has left
the queue. -/
def runJob (state : State) : OutputRequest → State
  | .updateTotalSamples _ totalSamples =>
      { state with queued :=
          state.queued.map (fun track => { track with totalSamples := totalSamples }) }
  | .setSeekDurationMs _ durationMs =>
      { state with queued :=
          state.queued.map (fun track =>
            { track with currentSamplesWrittenToSoundBuffer :=
                track.timeDurationToSamples (durationMs * 1000) }) }
  | .clearPlayData _ =>
      if state.queued.isSome then { state with consumer := .ready .clearPlayData }
      else { state with played := [] }
  | .pausePlay | .fillDrain | .resumeClearPlay => state

/-- A pass of the loop of `clear_data`. -/
def clearStep (state : State) (task : OutputTask) : State :=
  match state.buffer.getDataPtr with
  | none =>
      { state with
        consumer := .ready .idle
        played := if task = .clearPlayData then [] else state.played }
  | some (_, held) =>
    let put := consumerPut (held.modifyData Chunk.clear) true task
    { state with buffer := put.1, consumer := put.2 }

/-- `play` for the track from the end of its wait up to the read of a rotation. -/
def playStep (state : State) (current : SoundDetails) : PlayOutcome → Option State
  | .refused => some { state with queued := none, consumer := .ready .giveBack }
  | .starved => if state.buffer.isDataEmpty then some { state with queued := none } else none
  | .written samples =>
    match state.buffer.getDataPtr with
    | none => none
    | some (chunk, held) =>
      let writtenBytes := (current.samplesToBytes samples).toNat
      if samples < 0 ∨ chunk.second.size < writtenBytes then none
      else
        let advanced := current.addSamples samples
        let isPlayFinished :=
          advanced.currentSamplesWrittenToSoundBuffer == advanced.totalSamples
        let put := consumerPut (held.modifyData (·.eraseBegin writtenBytes)) isPlayFinished
          (if isPlayFinished then OutputTask.giveBack else .idle)
        some { state with
          buffer := put.1
          consumer := put.2
          queued := if isPlayFinished then none else some advanced
          played := state.played ++ chunk.second.items.take writtenBytes }

/-- The decoder thread starts a job when the one before has ended, and writes only
when a seek has posted its jobs. The output thread starts a job or a call of
`play` when the one before has ended. -/
def step (state : State) : Action → Option State
  | .seekDuration seekDurationMs =>
      if state.producer = .ready ∧ state.posting = [] then seekStep state seekDurationMs else none
  | .addJob =>
      match state.producer, state.posting with
      | .ready, request :: rest =>
          some { state with posting := rest, jobs := state.jobs ++ [request] }
      | _, _ => none
  | .decode samples bytes =>
      if state.producer = .ready ∧ state.posting = [] then decodeStep state samples bytes else none
  | .finishDecode =>
      if state.producer = .ready ∧ state.posting = [] then finishStep state else none
  | .decoderAdvance =>
      (producerStep state.buffer state.producer .advance).map (fun moved =>
        { state with buffer := moved.1, producer := moved.2 })
  | .job =>
      match state.consumer, state.jobs with
      | .ready .idle, request :: rest => some (runJob { state with jobs := rest } request)
      | _, _ => none
  | .play outcome =>
      match state.consumer, state.queued with
      | .ready .idle, some current => playStep state current outcome
      | _, _ => none
  | .outputAdvance =>
      match state.consumer with
      | .ready .idle => none
      | .ready task => some (clearStep state task)
      | moving => (consumerRotate state.buffer moving).map (fun moved =>
          { state with buffer := moved.1, consumer := moved.2 })

def isClear : OutputRequest → Bool
  | .clearPlayData _ => true
  | _ => false

/-- A job that clears the data queue is still to be posted, posted or running. -/
def ClearPending (state : State) : Prop :=
  (state.posting.any isClear || state.jobs.any isClear) = true ∨
    taskOf state.consumer = .clearPlayData

instance (state : State) : Decidable (ClearPending state) := by
  unfold ClearPending
  infer_instance

/-- When no clear is pending any more, what has been played since is the stream
decoded since the seek, from its first sample, and while the track is queued the
rest of that stream is in the buffer. -/
def Delivers (state : State) : Prop :=
  state.sought = true → ¬ ClearPending state →
    state.played <+: state.decoded ∧
      (state.queued.isSome = true →
        state.played ++ pending state.buffer state.producer = state.decoded)

/-- While a clear is pending for a queued track, the decoder rotates no chunk with
samples into the data queue. -/
def ClearsFirst (state : State) : Action → Prop
  | .decoderAdvance =>
      match state.producer with
      | .carrying val =>
          state.queued.isSome = true → ClearPending state → val.second.items = []
      | _ => True
  | _ => True

instance (state : State) (action : Action) : Decidable (ClearsFirst state action) := by
  unfold ClearsFirst
  split
  · split <;> infer_instance
  · infer_instance

/-- The chunks circulate, the track is queued and there was no seek yet. -/
structure Unsought (state : State) : Prop where
  circulates : Circulates state.buffer state.producer state.consumer
  queued : state.queued.isSome = true
  task : taskOf state.consumer ≠ .giveBack
  sought : state.sought = false

/-- What holds while the track is queued: after a seek, all that was decoded since
is on the decoder's side until the data queue has been cleared. -/
structure Sounds (state : State) : Prop where
  circulates : Circulates state.buffer state.producer state.consumer
  task : taskOf state.consumer ≠ .giveBack
  clearing : state.sought = true → ClearPending state →
    queueBytes (producerSide state.buffer state.producer) = state.decoded
  cleared : state.sought = true → ¬ ClearPending state →
    state.played ++ pending state.buffer state.producer = state.decoded

/-- The invariant of runs in which each clear is done before the next chunk with
samples is rotated. -/
structure Invariant (state : State) : Prop where
  sounds : state.queued.isSome = true → Sounds state
  ended : state.queued = none → state.sought = true → ¬ ClearPending state →
    state.played <+: state.decoded

/-- `put_cache_ptr` without interruption is its first half and the rotation it enters. -/
theorem putCachePtr_eq (buffer : CacheBuffer) (rotate : Bool) :
    buffer.putCachePtr rotate =
      if (producerPut buffer rotate).2 = .rotating then (producerPut buffer rotate).1.rotateCache
      else (producerPut buffer rotate).1 := by
  have ends : buffer.putCachePtr rotate =
      if (buffer.putCachePtrSize rotate).2 then (buffer.putCachePtrSize rotate).1.rotateCache
      else (buffer.putCachePtrSize rotate).1 := rfl
  rw [ends]
  cases rotates : (buffer.putCachePtrSize rotate).2 with
  | true => simp [producerPut, rotates]
  | false => simp [producerPut, rotates]

/-- A write that is not interrupted is that of the decoder plugins manager. -/
theorem decodeStep_writeFrame {state next : State} {samples : Int} {bytes : List UInt8}
    (taken : decodeStep state samples bytes = some next) :
    DecoderPluginsManager.writeFrame (state.soundDetails.samplesToBytes 1)
        state.soundDetails.totalSamples (state.currentSamplesWritten + samples) bytes state.buffer =
      some (if next.producer = .rotating then next.buffer.rotateCache else next.buffer) := by
  rw [DecoderPluginsManager.writeFrame]
  simp only [decodeStep] at taken
  cases found : state.buffer.getCachePtr with
  | none => simp [found] at taken
  | some result =>
    obtain ⟨chunk, held⟩ := result
    simp only [found, Option.some.injEq] at taken
    subst taken
    exact congrArg some (putCachePtr_eq _ _)

/-- A clear is pending as before when the jobs with a clear are the same and neither
state runs one. -/
theorem clearPending_congr {state next : State}
    (requests : (next.posting.any isClear || next.jobs.any isClear) =
      (state.posting.any isClear || state.jobs.any isClear))
    (task : taskOf next.consumer = .clearPlayData ↔ taskOf state.consumer = .clearPlayData) :
    ClearPending next ↔ ClearPending state := by
  rw [ClearPending, ClearPending, requests, task]

/-- Steps that touch neither the buffer nor the history keep the invariant. -/
theorem Invariant.of_same {state next : State} (invariant : Invariant state)
    (buffer : next.buffer = state.buffer) (producer : next.producer = state.producer)
    (consumer : next.consumer = state.consumer)
    (queued : next.queued.isSome = state.queued.isSome) (sought : next.sought = state.sought)
    (decoded : next.decoded = state.decoded) (played : next.played = state.played)
    (pending : ClearPending next ↔ ClearPending state) : Invariant next := by
  refine ⟨?_, ?_⟩
  · intro present
    obtain ⟨circulates, task, clearing, cleared⟩ := invariant.sounds (queued ▸ present)
    refine ⟨?_, ?_, ?_, ?_⟩
    · rw [buffer, producer, consumer]
      exact circulates
    · rw [consumer]
      exact task
    · rw [sought, pending, buffer, producer, decoded]
      exact clearing
    · rw [sought, pending, played, buffer, producer, decoded]
      exact cleared
  · intro absent
    have before : state.queued = none := by
      rw [absent] at queued
      exact Option.isNone_iff_eq_none.mp (by simpa using queued.symm)
    rw [sought, pending, played, decoded]
    exact invariant.ended before

/-- A seek leaves the decoder's side without samples, and its clear is to be posted. -/
theorem seekStep_preserves {state next : State} {seekDurationMs : Int}
    (invariant : Invariant state) (ready : state.producer = .ready)
    (taken : seekStep state seekDurationMs = some next) : Invariant next := by
  simp only [seekStep, Option.map_eq_some_iff] at taken
  obtain ⟨⟨after, producer⟩, cleared, rfl⟩ := taken
  have posts : (seekRequests state.soundDetails.urlId seekDurationMs).any isClear = true := rfl
  refine ⟨?_, ?_⟩
  · intro present
    obtain ⟨circulates, task, _, _⟩ := invariant.sounds present
    rw [ready] at circulates
    obtain ⟨circulating, _, side⟩ := SeekHandshake.clearCache_effect circulates cleared
    refine ⟨circulating, task, ?_, ?_⟩
    · intro _ _
      change queueBytes (producerSide after producer) = []
      rw [← queueBytes_occupied, side]
      rfl
    · intro _ nothing
      exact absurd (.inl (by simp [posts])) nothing
  · intro _ _ nothing
    exact absurd (.inl (by simp [posts])) nothing

/-- What is decoded goes behind all that the decoder has on its side. -/
theorem decodeStep_preserves {state next : State} {samples : Int} {bytes : List UInt8}
    (invariant : Invariant state) (ready : state.producer = .ready)
    (taken : decodeStep state samples bytes = some next) : Invariant next := by
  simp only [decodeStep] at taken
  cases found : state.buffer.getCachePtr with
  | none => simp [found] at taken
  | some result =>
    obtain ⟨chunk, held⟩ := result
    obtain ⟨⟨rest, front⟩, cache, data⟩ := CacheBuffer.getCachePtr_some found
    simp only [found, Option.some.injEq] at taken
    subst taken
    let filled := DecoderPluginsManager.fillFrame bytes chunk
    let rotate := state.currentSamplesWritten + samples == state.soundDetails.totalSamples ||
      filled.second.reserve < state.soundDetails.samplesToBytes 1
    let put := producerPut (held.modifyCache (fun _ => filled)) rotate
    have putCache : put.1.cacheBuffer = state.buffer.cacheBuffer.modifyFront (fun _ => filled) := by
      rw [← cache]
      exact CacheBuffer.putCachePtrSize_cache _ rotate
    have putData : put.1.dataBuffer = state.buffer.dataBuffer :=
      (CacheBuffer.putCachePtrSize_data _ rotate).trans data
    have following : put.2 = .ready ∨ put.2 = .rotating := by
      simp only [put, producerPut]
      split <;> simp
    have side : queueBytes (producerSide put.1 put.2) =
        queueBytes (producerSide state.buffer state.producer) ++ bytes := by
      have idle : producerHeld put.2 = [] := by
        rcases following with still | rotates
        · rw [still]
          rfl
        · rw [rotates]
          rfl
      rw [producerSide, producerSide, idle, ready, putCache, BoundedQueue.modifyFront_cons front,
        front]
      simp [producerHeld, filled, DecoderPluginsManager.fillFrame_items]
    refine ⟨?_, ?_⟩
    · intro present
      obtain ⟨circulates, task, clearing, cleared⟩ := invariant.sounds present
      rw [ready] at circulates
      refine ⟨circulates.change_front _ following putCache putData, task, ?_, ?_⟩
      · intro sought waiting
        exact side.trans (congrArg (· ++ bytes) (clearing sought waiting))
      · intro sought nothing
        change state.played ++ pending put.1 put.2 = state.decoded ++ bytes
        rw [← cleared sought nothing, pending_eq, pending_eq, CacheBuffer.dataBytes, putData, side]
        simp only [CacheBuffer.dataBytes, List.append_assoc]
    · intro absent sought nothing
      exact (invariant.ended absent sought nothing).trans (List.prefix_append _ _)

/-- `sync_cache` leaves both queues as they are and may enter a rotation. -/
theorem syncCache_effect {Task : Type} {before after : CacheBuffer} {consumer : Consumer Task}
    {next : Producer} (circulates : Circulates before .ready consumer)
    (synced : producerStep before .ready .syncCache = some (after, next)) :
    Circulates after next consumer ∧ after.dataBuffer = before.dataBuffer ∧
      producerSide after next = producerSide before .ready := by
  cases found : before.getCachePtr with
  | none =>
    simp only [producerStep, found, Option.some.injEq, Prod.mk.injEq] at synced
    obtain ⟨rfl, rfl⟩ := synced
    exact ⟨circulates, rfl, rfl⟩
  | some result =>
    obtain ⟨chunk, held⟩ := result
    obtain ⟨_, cache, data⟩ := CacheBuffer.getCachePtr_some found
    simp only [producerStep, found, producerPut, Option.some.injEq, Prod.mk.injEq] at synced
    obtain ⟨rfl, ended⟩ := synced
    have sameCache := (CacheBuffer.putCachePtrSize_cache held true).trans cache
    have sameData := (CacheBuffer.putCachePtrSize_data held true).trans data
    have following : next = .ready ∨ next = .rotating := by
      rw [← ended]
      split <;> simp
    have idle : producerHeld next = [] := by rcases following with rfl | rfl <;> rfl
    refine ⟨circulates.change_front (fun chunk => chunk) following
      (sameCache.trans (modifyFront_id _).symm) sameData, sameData, ?_⟩
    rw [producerSide, idle, sameCache]
    rfl

/-- The end of the stream decodes nothing more. -/
theorem finishStep_preserves {state next : State} (invariant : Invariant state)
    (ready : state.producer = .ready) (taken : finishStep state = some next) : Invariant next := by
  simp only [finishStep, Option.map_eq_some_iff] at taken
  obtain ⟨⟨after, producer⟩, synced, taken⟩ := taken
  have rotated : Invariant { state with buffer := after, producer := producer } := by
    refine ⟨?_, invariant.ended⟩
    intro present
    obtain ⟨circulates, task, clearing, cleared⟩ := invariant.sounds present
    rw [ready] at circulates
    obtain ⟨circulating, data, side⟩ := syncCache_effect circulates synced
    refine ⟨circulating, task, ?_, ?_⟩
    · intro sought waiting
      change queueBytes (producerSide after producer) = _
      rw [side, ← ready]
      exact clearing sought waiting
    · intro sought nothing
      change state.played ++ pending after producer = _
      rw [← cleared sought nothing, pending_eq, pending_eq, CacheBuffer.dataBytes, data, side, ready]
      rfl
  split at taken
  · subst taken
    apply rotated.of_same
    case pending => exact clearPending_congr (by simp [isClear]) Iff.rfl
    all_goals rfl
  · subst taken
    exact rotated

/-- A rotation of the decoder moves no samples to the data queue while a clear is
pending. -/
theorem decoderAdvance_preserves {state : State} {after : CacheBuffer} {producer : Producer}
    (invariant : Invariant state) (condition : ClearsFirst state .decoderAdvance)
    (taken : producerStep state.buffer state.producer .advance = some (after, producer)) :
    Invariant { state with buffer := after, producer := producer } := by
  refine ⟨?_, invariant.ended⟩
  intro present
  obtain ⟨circulates, task, clearing, cleared⟩ := invariant.sounds present
  obtain ⟨circulating, more, data, _, side⟩ := circulates.producer_moves taken
  refine ⟨circulating, task, ?_, ?_⟩
  · intro sought waiting
    have still : after.dataBuffer.items = state.buffer.dataBuffer.items := by
      generalize start : state.producer = moving at taken
      have effect := producer_step_effect taken
      cases effect with
      | kept | entered => simp [producerStep] at taken
      | missed empty same => rw [same]
      | read cache data => rw [data]
      | dropped empty same => rw [same]
      | queued filled cache data =>
        simp only [ClearsFirst, start] at condition
        exact absurd (condition present waiting) filled
    rw [still] at data
    have nothing : more = [] := List.self_eq_append_right.mp data
    rw [nothing, List.nil_append] at side
    change queueBytes (producerSide after producer) = _
    rw [← queueBytes_occupied, side, queueBytes_occupied]
    exact clearing sought waiting
  · intro sought nothing
    change state.played ++ pending after producer = _
    rw [(circulates.producer_rotates taken).2]
    exact cleared sought nothing

/-- A job touches no samples, and a clear that it starts is still pending. -/
theorem runJob_preserves {state : State} {request : OutputRequest} {rest : List OutputRequest}
    (invariant : Invariant state) (idle : state.consumer = .ready .idle)
    (jobs : state.jobs = request :: rest) :
    Invariant (runJob { state with jobs := rest } request) := by
  have quiet : isClear request = false → ∀ next : State, next.posting = state.posting →
      next.jobs = rest → next.consumer = state.consumer →
        (ClearPending next ↔ ClearPending state) := by
    intro other next posting remaining consumer
    exact clearPending_congr (by simp [posting, remaining, jobs, other]) (by rw [consumer])
  cases request with
  | updateTotalSamples urlId totalSamples =>
    exact invariant.of_same rfl rfl rfl Option.isSome_map rfl rfl rfl (quiet rfl _ rfl rfl rfl)
  | setSeekDurationMs urlId durationMs =>
    exact invariant.of_same rfl rfl rfl Option.isSome_map rfl rfl rfl (quiet rfl _ rfl rfl rfl)
  | pausePlay => exact invariant.of_same rfl rfl rfl rfl rfl rfl rfl (quiet rfl _ rfl rfl rfl)
  | fillDrain => exact invariant.of_same rfl rfl rfl rfl rfl rfl rfl (quiet rfl _ rfl rfl rfl)
  | resumeClearPlay => exact invariant.of_same rfl rfl rfl rfl rfl rfl rfl (quiet rfl _ rfl rfl rfl)
  | clearPlayData urlId =>
    have waiting : ClearPending state := .inl (by simp [jobs, isClear])
    simp only [runJob]
    split
    · rename_i present
      refine ⟨?_, ?_⟩
      · intro _
        obtain ⟨circulates, _, clearing, _⟩ := invariant.sounds present
        rw [idle] at circulates
        refine ⟨circulates.takes_up _, by simp [taskOf], fun sought _ => clearing sought waiting, ?_⟩
        intro _ nothing
        exact absurd (.inr rfl) nothing
      · intro absent
        have gone : state.queued = none := absent
        simp [gone] at present
    · rename_i absent
      refine ⟨fun present => absurd present absent, ?_⟩
      intro _ _ _
      exact List.nil_prefix

/-- When `clear_data` finds no chunk, all that was decoded since the seek is on the
decoder's side. -/
theorem clearEnds_preserves {state : State} {task : OutputTask} (invariant : Invariant state)
    (clears : state.consumer = .ready task) (busy : task ≠ .idle)
    (vacant : state.buffer.dataBuffer.items = []) :
    Invariant { state with
      consumer := .ready .idle
      played := if task = .clearPlayData then [] else state.played } := by
  have running : taskOf state.consumer = task := by
    rw [clears]
    rfl
  cases task with
  | idle => contradiction
  | giveBack =>
    refine ⟨fun present => absurd running (invariant.sounds present).task, ?_⟩
    intro absent sought nothing
    apply invariant.ended absent sought
    rintro (requests | clearing)
    · exact nothing (.inl requests)
    · rw [running] at clearing
      contradiction
  | clearPlayData =>
    refine ⟨?_, fun _ _ _ => List.nil_prefix⟩
    intro present
    obtain ⟨circulates, _, clearing, _⟩ := invariant.sounds present
    rw [clears] at circulates
    have all : state.sought = true →
        queueBytes (producerSide state.buffer state.producer) = state.decoded :=
      fun sought => clearing sought (.inr running)
    refine ⟨circulates.takes_up _, by simp [taskOf], fun sought _ => all sought, ?_⟩
    intro sought _
    change [] ++ pending state.buffer state.producer = state.decoded
    rw [List.nil_append, pending_eq, CacheBuffer.dataBytes, vacant, all sought]
    rfl

/-- A pass of `clear_data` throws away samples of the data queue only. -/
theorem clearPass_preserves {state : State} {task : OutputTask} {chunk : Chunk}
    {held after : CacheBuffer} {consumer : Consumer OutputTask} (invariant : Invariant state)
    (clears : state.consumer = .ready task) (busy : task ≠ .idle)
    (found : state.buffer.getDataPtr = some (chunk, held))
    (moved : consumerPut (held.modifyData Chunk.clear) true task = (after, consumer)) :
    Invariant { state with buffer := after, consumer := consumer } := by
  have running : taskOf state.consumer = task := by
    rw [clears]
    rfl
  have following : taskOf consumer = task := by
    simp only [consumerPut, Prod.mk.injEq] at moved
    obtain ⟨_, rfl⟩ := moved
    split <;> rfl
  have same : ClearPending { state with buffer := after, consumer := consumer } ↔
      ClearPending state :=
    clearPending_congr rfl (by rw [running, following])
  refine ⟨?_, ?_⟩
  · intro present
    obtain ⟨circulates, other, clearing, cleared⟩ := invariant.sounds present
    rw [clears] at circulates
    obtain ⟨circulating, _, _, cache⟩ := circulates.put_data Chunk.clear found (fun _ => rfl) moved
    refine ⟨circulating, fun gives => other (running.trans (following.symm.trans gives)), ?_, ?_⟩
    · intro sought waiting
      change queueBytes (producerSide after state.producer) = state.decoded
      rw [producerSide_congr _ cache]
      exact clearing sought (same.mp waiting)
    · intro _ nothing
      cases task with
      | idle => contradiction
      | giveBack => exact absurd running other
      | clearPlayData => exact absurd (.inr following) nothing
  · intro absent sought nothing
    exact invariant.ended absent sought (fun waiting => nothing (same.mpr waiting))

/-- A rotation of the output thread moves an empty chunk while the track is queued. -/
theorem rotation_preserves {state : State} {after : CacheBuffer} {consumer : Consumer OutputTask}
    (invariant : Invariant state)
    (rotated : consumerRotate state.buffer state.consumer = some (after, consumer)) :
    Invariant { state with buffer := after, consumer := consumer } := by
  have task := rotates_task rotated
  have same : ClearPending { state with buffer := after, consumer := consumer } ↔
      ClearPending state :=
    clearPending_congr rfl (by rw [task])
  refine ⟨?_, ?_⟩
  · intro present
    obtain ⟨circulates, other, clearing, cleared⟩ := invariant.sounds present
    obtain ⟨circulating, _, side⟩ := circulates.consumer_moves rotated
    refine ⟨circulating, fun gives => other (task.symm.trans gives), ?_, ?_⟩
    · intro sought waiting
      change queueBytes (producerSide after state.producer) = state.decoded
      rw [← queueBytes_occupied, side, queueBytes_occupied]
      exact clearing sought (same.mp waiting)
    · intro sought nothing
      change state.played ++ pending after state.producer = state.decoded
      rw [(circulates.consumer_rotates rotated).2]
      exact cleared sought (fun waiting => nothing (same.mpr waiting))
  · intro absent sought nothing
    exact invariant.ended absent sought (fun waiting => nothing (same.mpr waiting))

/-- A track that leaves the queue has played the first of the samples decoded since
the seek. -/
theorem Sounds.left {state next : State} (sounds : Sounds state) (gone : next.queued = none)
    (sought : next.sought = state.sought) (decoded : next.decoded = state.decoded)
    (pending : ClearPending next ↔ ClearPending state)
    (played : ∃ taken rest, next.played = state.played ++ taken ∧
      Circulation.pending state.buffer state.producer = taken ++ rest) : Invariant next := by
  refine ⟨fun present => by simp [gone] at present, ?_⟩
  intro _ seeks nothing
  obtain ⟨taken, rest, more, bytes⟩ := played
  rw [more, decoded, ← sounds.cleared (sought ▸ seeks) (fun waiting => nothing (pending.mpr waiting)),
    bytes, ← List.append_assoc]
  exact List.prefix_append _ _

/-- What the device takes goes off the head of the samples in the buffer; at its end
the track leaves the queue. -/
theorem written_preserves {state next : State} {current advanced : SoundDetails} {chunk : Chunk}
    {held after : CacheBuffer} {consumer : Consumer OutputTask} {count : Nat} {ends : Bool}
    (invariant : Invariant state) (idle : state.consumer = .ready .idle)
    (queued : state.queued = some current)
    (found : state.buffer.getDataPtr = some (chunk, held))
    (moved : consumerPut (held.modifyData (·.eraseBegin count)) ends
      (if ends then OutputTask.giveBack else .idle) = (after, consumer))
    (reached : next = { state with
      buffer := after
      consumer := consumer
      queued := if ends then none else some advanced
      played := state.played ++ chunk.second.items.take count }) : Invariant next := by
  have sounds := invariant.sounds (by rw [queued]; rfl)
  have quiet : taskOf state.consumer ≠ .clearPlayData := by
    rw [idle]
    simp [taskOf]
  obtain ⟨_, cache, data⟩ := CacheBuffer.getDataPtr_some found
  have put := moved
  simp only [consumerPut, Prod.mk.injEq] at put
  obtain ⟨sizes, goesOn⟩ := put
  have sameCache : after.cacheBuffer = state.buffer.cacheBuffer := by
    rw [← sizes]
    exact (CacheBuffer.putDataPtrSize_cache _ ends).trans cache
  have sameData : after.dataBuffer = state.buffer.dataBuffer.modifyFront (·.eraseBegin count) := by
    rw [← sizes, ← data]
    exact CacheBuffer.putDataPtrSize_data _ ends
  have bytes := pending_erase count state.producer found sameCache sameData
  subst reached
  cases ends with
  | true =>
    have gives : taskOf consumer = .giveBack := by
      rw [← goesOn]
      split <;> rfl
    exact sounds.left rfl rfl rfl (clearPending_congr rfl (iff_of_false (by simp [gives]) quiet))
      ⟨_, _, rfl, bytes⟩
  | false =>
    obtain ⟨circulates, _, clearing, cleared⟩ := sounds
    rw [idle] at circulates
    obtain ⟨circulating, rests, _, _⟩ :=
      circulates.put_data (·.eraseBegin count) found (by simp) moved
    simp only [Bool.false_eq_true, if_false] at rests
    have same : ClearPending { state with
        buffer := after
        consumer := consumer
        queued := some advanced
        played := state.played ++ chunk.second.items.take count } ↔ ClearPending state :=
      clearPending_congr rfl (iff_of_false (by simp [rests]) quiet)
    refine ⟨fun _ => ⟨circulating, by simp [rests], ?_, ?_⟩, fun absent => by simp at absent⟩
    · intro sought waiting
      change queueBytes (producerSide after state.producer) = state.decoded
      rw [producerSide_congr _ sameCache]
      exact clearing sought (same.mp waiting)
    · intro sought nothing
      change state.played ++ chunk.second.items.take count ++ pending after state.producer = _
      rw [List.append_assoc, ← bytes]
      exact cleared sought (fun waiting => nothing (same.mpr waiting))

/-- A call of `play` keeps the invariant. -/
theorem playStep_preserves {state next : State} {current : SoundDetails} {outcome : PlayOutcome}
    (invariant : Invariant state) (idle : state.consumer = .ready .idle)
    (queued : state.queued = some current) (taken : playStep state current outcome = some next) :
    Invariant next := by
  have sounds := invariant.sounds (by rw [queued]; rfl)
  cases outcome with
  | refused =>
    obtain rfl := Option.some.inj taken
    have quiet : taskOf state.consumer ≠ .clearPlayData := by
      rw [idle]
      simp [taskOf]
    exact sounds.left rfl rfl rfl (clearPending_congr rfl (iff_of_false (by simp [taskOf]) quiet))
      ⟨[], _, (List.append_nil _).symm, rfl⟩
  | starved =>
    simp only [playStep] at taken
    split at taken
    · obtain rfl := Option.some.inj taken
      exact sounds.left rfl rfl rfl (clearPending_congr rfl Iff.rfl)
        ⟨[], _, (List.append_nil _).symm, rfl⟩
    · contradiction
  | written samples =>
    simp only [playStep] at taken
    cases found : state.buffer.getDataPtr with
    | none => simp [found] at taken
    | some result =>
      obtain ⟨chunk, held⟩ := result
      simp only [found] at taken
      split at taken
      · contradiction
      · exact written_preserves invariant idle queued found rfl (Option.some.inj taken).symm

/-- Every step keeps the invariant when each clear is done before the next chunk with
samples is rotated. -/
theorem step_preserves (state : State) (action : Action) (next : State)
    (invariant : Invariant state) (condition : ClearsFirst state action)
    (taken : step state action = some next) : Invariant next := by
  cases action with
  | seekDuration seekDurationMs =>
    simp only [step] at taken
    split at taken
    · rename_i enabled
      exact seekStep_preserves invariant enabled.1 taken
    · contradiction
  | addJob =>
    simp only [step] at taken
    split at taken
    · rename_i request rest ready posting
      obtain rfl := Option.some.inj taken
      apply invariant.of_same
      case pending =>
        exact clearPending_congr (by simp [posting, Bool.or_left_comm, Bool.or_comm]) Iff.rfl
      all_goals rfl
    · contradiction
  | decode samples bytes =>
    simp only [step] at taken
    split at taken
    · rename_i enabled
      exact decodeStep_preserves invariant enabled.1 taken
    · contradiction
  | finishDecode =>
    simp only [step] at taken
    split at taken
    · rename_i enabled
      exact finishStep_preserves invariant enabled.1 taken
    · contradiction
  | decoderAdvance =>
    simp only [step, Option.map_eq_some_iff] at taken
    obtain ⟨⟨after, producer⟩, moved, rfl⟩ := taken
    exact decoderAdvance_preserves invariant condition moved
  | job =>
    simp only [step] at taken
    split at taken
    · rename_i request rest idle jobs
      obtain rfl := Option.some.inj taken
      exact runJob_preserves invariant idle jobs
    · contradiction
  | play outcome =>
    simp only [step] at taken
    split at taken
    · rename_i current idle queued
      exact playStep_preserves invariant idle queued taken
    · contradiction
  | outputAdvance =>
    simp only [step] at taken
    split at taken
    · contradiction
    · rename_i task busy clears
      obtain rfl := Option.some.inj taken
      simp only [clearStep]
      split
      · rename_i found
        have vacant : state.buffer.dataBuffer.items = [] := by
          simpa [CacheBuffer.getDataPtr, CacheBuffer.getGenPtr, BoundedQueue.front_eq_none_iff]
            using found
        exact clearEnds_preserves invariant clears busy vacant
      · rename_i found
        exact clearPass_preserves invariant clears busy found rfl
    · rw [Option.map_eq_some_iff] at taken
      obtain ⟨⟨after, consumer⟩, rotated, rfl⟩ := taken
      exact rotation_preserves invariant rotated

/-- In every interleaving in which each clear is done before the next chunk with
samples is rotated, what is played after the clear is the stream decoded since the
seek, from its first sample on. -/
theorem seek_loses_nothing {start finish : State} {actions : List Action}
    (unsought : Unsought start)
    (condition : LabelledRuns.Meets step ClearsFirst start actions)
    (ran : LabelledRuns.run step start actions = some finish) : Delivers finish := by
  obtain ⟨circulates, queued, task, never⟩ := unsought
  have initial : Invariant start := by
    refine ⟨fun _ => ⟨circulates, task, ?_, ?_⟩, fun absent => by simp [absent] at queued⟩
    · intro sought
      rw [never] at sought
      contradiction
    · intro sought
      rw [never] at sought
      contradiction
  have invariant := LabelledRuns.run_preserves_under step_preserves initial condition ran
  intro sought nothing
  cases present : finish.queued with
  | none => exact ⟨invariant.ended present sought nothing, fun still => by simp at still⟩
  | some current =>
    have stream := (invariant.sounds (by rw [present]; rfl)).cleared sought nothing
    exact ⟨⟨_, stream⟩, fun _ => stream⟩

/-- A track of one channel with one byte a sample, in the queue of the output plugin
with a new buffer. -/
def opened (bufferSize elemSize : Nat) (totalSamples : Int) : State :=
  let soundDetails : SoundDetails :=
    { ok := true
      totalSamples := totalSamples
      currentSamplesWrittenToSoundBuffer := 0
      channels := 1
      sampleRate := 1000
      isFloat := false
      bps := 8
      urlId := 1
      currentCacheBuffer := some 0 }
  { buffer := CacheBuffer.make bufferSize elemSize 0 0
    producer := .ready
    soundDetails := soundDetails
    currentSamplesWritten := 0
    posting := []
    jobs := []
    consumer := .ready .idle
    queued := some soundDetails
    sought := false
    decoded := []
    played := [] }

theorem opened_unsought (bufferSize elemSize : Nat) (totalSamples : Int) :
    Unsought (opened bufferSize elemSize totalSamples) :=
  ⟨(make_circulates bufferSize elemSize 0 0 OutputTask.idle).1, rfl, by simp [opened, taskOf], rfl⟩

/-- Two samples are queued, a seek posts its jobs, and two more are decoded when they
have all run. -/
def seekInOrder : List Action :=
  [.decode 2 [1, 2], .decoderAdvance, .decoderAdvance, .seekDuration 50, .addJob, .addJob, .addJob,
    .addJob, .addJob, .job, .job, .outputAdvance, .outputAdvance, .outputAdvance, .outputAdvance,
    .job, .job, .job, .decode 2 [7, 8], .decoderAdvance, .decoderAdvance, .play (.written 1)]

theorem seek_loses_nothing_in_order : ∃ finish,
    LabelledRuns.run step (opened 4 2 100) seekInOrder = some finish ∧
      finish.jobs = [] ∧ finish.played = [7] ∧ Delivers finish := by
  refine ⟨_, rfl, rfl, rfl, ?_⟩
  exact seek_loses_nothing (opened_unsought 4 2 100)
    (by decide : LabelledRuns.Meets step ClearsFirst _ seekInOrder) rfl

/-- The same seek, with two samples decoded and rotated before the clear runs and two
after. -/
def seekDecodesAhead : List Action :=
  [.decode 2 [1, 2], .decoderAdvance, .decoderAdvance, .seekDuration 50, .addJob, .addJob, .addJob,
    .addJob, .addJob, .decode 2 [7, 8], .decoderAdvance, .decoderAdvance, .job, .job,
    .outputAdvance, .outputAdvance, .outputAdvance, .outputAdvance, .outputAdvance, .outputAdvance,
    .outputAdvance, .job, .job, .job, .decode 2 [9, 10], .decoderAdvance, .decoderAdvance,
    .play (.written 2)]

/-- The clear takes the first two samples after the seek with it. -/
theorem seek_loses_first_samples : Unsought (opened 4 2 100) ∧
    ∃ finish, LabelledRuns.run step (opened 4 2 100) seekDecodesAhead = some finish ∧
      finish.jobs = [] ∧ finish.decoded = [7, 8, 9, 10] ∧ finish.played = [9, 10] ∧
      ¬ Delivers finish := by
  refine ⟨opened_unsought 4 2 100, _, rfl, rfl, rfl, rfl, ?_⟩
  intro delivers
  have first := (delivers rfl (by decide)).1
  revert first
  decide

end Mprt.SeekOutput
