import Mprt.LabelledRuns
import Mprt.Circulation
import Mprt.InputPluginFile
import Mprt.DecoderRead

/-!
# The seek handshake between decoder and input

The decoder thread reads and seeks a track, the input thread fills the same
buffer from the file. A seek that memory cannot serve posts a job to the input
thread and waits: it throws away data chunks until it meets one whose start
position is the seek point. The job clears the chunk being filled and moves the
file, so that the next chunk to be filled is tagged with the seek point.

A step of either thread is one access to what they share. The input thread runs
a job or a read to the end of its rotation before it takes the next one. The
wait is decided by the tag alone: while a job is pending, or when old chunks are
queued that carry the same tag, the decoder can take an old chunk for the
answer. When that does not happen, what is delivered after a seek is the file
from the seek point on.
-/

namespace Mprt.SeekHandshake

open CacheBufferThreads
open Circulation
open CacheBuffer (queueBytes)

/-- What the decoder thread is doing with the input buffer: nothing, waiting for
input in `decoder_read_buffer`, copying or discarding bytes, or waiting for the
chunk that starts at the seek point. -/
inductive DecoderTask where
  | idle
  | waitInput (maxBufSize totalBufData : Int)
  | taking (task : Task)
  | waitSeek (seekPoint : Int)
deriving DecidableEq

/-- One track: its details with the input buffer, the copy of the last read, the
file, whether it is in the list of finished files, the posted seek jobs, and as
history the point of the last seek that waited for the input and has returned,
with the bytes taken since. -/
structure State where
  details : DecoderDetails
  lastReadBuffer : List UInt8
  consumer : Consumer DecoderTask
  file : FileDetails
  finished : Bool
  producer : Producer
  jobs : List Int
  since : Option (Int × List UInt8)
deriving DecidableEq

/-- `giveUp` ends the wait for input after its time limit; `otherTrack` is a
read of another track, which overwrites the shared copy. -/
inductive Action where
  | tryRead (maxFileChunkSize : Nat)
  | seekJob
  | inputAdvance
  | decoderReadBuffer (bufSize : Nat)
  | giveUp
  | updateDecDetailSeek (seekPoint : Int)
  | decoderAdvance
  | otherTrack (bytes : List UInt8)
deriving DecidableEq

def ofTask : Task → DecoderTask
  | .idle => .idle
  | task => .taking task

def State.buffer (state : State) : CacheBuffer := state.details.currentCacheBuf

def State.setBuffer (state : State) (buffer : CacheBuffer) : State :=
  { state with details := { state.details with currentCacheBuf := buffer } }

/-- The loop condition of the wait in `decoder_read_buffer`. -/
def starved (buffer : CacheBuffer) (maxBufSize totalBufData : Int) : Bool :=
  totalBufData < maxBufSize || buffer.isDataEmpty

/-- The end of `try_read`: a finished file rotates its last chunk. -/
def putRead (state : State) (file : FileDetails) (filled : CacheBuffer) (finished : Bool) : State :=
  let put := producerPut filled finished
  { state.setBuffer put.1 with file := file, finished := finished, producer := put.2 }

/-- `try_read` up to the read of its rotation. -/
def tryReadStep (state : State) (maxFileChunkSize : Nat) : State :=
  match InputPluginFile.tryReadFill maxFileChunkSize state.file state.buffer with
  | none => state
  | some (file, filled, finished) => putRead state file filled finished

/-- `seek_callback_internal`: the front chunk is cleared, the file moves, and a
finished file is in turn again. -/
def seekJobStep (state : State) (seekPoint : Int) (rest : List Int) : Option State :=
  (producerStep state.buffer .ready .clearCache).map (fun cleared =>
    { state.setBuffer cleared.1 with
      file := InputPluginFile.seekHelper state.file seekPoint
      finished := false
      producer := cleared.2
      jobs := rest })

/-- The start of `decoder_read_buffer`. -/
def readStep (state : State) (bufSize : Int) : State :=
  let details := state.details
  let maxBufSize := min bufSize (details.streamLength - details.currentStreamPos)
  let task : DecoderTask :=
    if details.currentStreamPos < details.streamLength then
      .waitInput maxBufSize state.buffer.totalBytesInBufferGuess
    else .taking (.write maxBufSize true)
  { state with
    details := { details with lastReadEmpty := true }
    lastReadBuffer := []
    consumer := .ready task }

/-- `update_dec_detail_seek` up to its discard or its callback. -/
def seekStep (state : State) (seekPoint : Int) : State :=
  if seekPoint < 0 ∨ seekPoint > state.details.streamLength then state
  else
    match DecoderPluginsManager.reinsert state.details state.lastReadBuffer seekPoint with
    | none => state
    | some moved =>
      let needPos := seekPoint - moved.currentStreamPos
      if needPos ≥ 0 ∧ needPos - moved.currentCacheBuf.totalBytesInBufferGuess ≤ 0 then
        { state with
          details := { moved with currentStreamPos := seekPoint }
          consumer := .ready (.taking (.discard needPos))
          since := none }
      else
        { state with
          details := moved
          consumer := .ready (.waitSeek seekPoint)
          jobs := state.jobs ++ [seekPoint]
          since := none }

/-- What is copied moves the position and goes to the copy of the last read;
what is discarded does neither. -/
def copied (state : State) (bytes : List UInt8) : Task → State
  | .write _ _ =>
      { state with
        details := { state.details with
          currentStreamPos := state.details.currentStreamPos + bytes.length
          lastReadEmpty := false }
        lastReadBuffer := state.lastReadBuffer ++ bytes }
  | _ => state

/-- A pass of the decoder's task. -/
def decoderStep (state : State) : DecoderTask → Option State
  | .idle => none
  | .waitInput maxBufSize totalBufData =>
      if starved state.buffer maxBufSize totalBufData then
        some { state with
          consumer := .ready (.waitInput maxBufSize state.buffer.totalBytesInBufferGuess) }
      else some { state with consumer := .ready (.taking (.write maxBufSize true)) }
  | .taking task =>
      (taskStep state.buffer task).map (fun taken =>
        { (copied state taken.1 task).setBuffer taken.2.1 with
          consumer := taken.2.2.map ofTask
          since := state.since.map (fun answered => (answered.1, answered.2 ++ taken.1)) })
  | .waitSeek seekPoint =>
      match state.buffer.getDataPtr with
      | none => none
      | some (chunk, held) =>
        if chunk.first ≠ seekPoint then
          let put := consumerPut (held.modifyData Chunk.clear) true (DecoderTask.waitSeek seekPoint)
          some { state.setBuffer put.1 with consumer := put.2 }
        else
          some { state with
            details := { state.details with currentStreamPos := seekPoint, currentCacheBuf := held }
            consumer := .ready .idle
            since := some (seekPoint, []) }

/-- The input thread starts a read or a job between two others; the decoder
thread starts a call when the one before has returned. -/
def step (state : State) : Action → Option State
  | .tryRead maxFileChunkSize =>
      if state.producer = .ready ∧ state.finished = false then
        some (tryReadStep state maxFileChunkSize)
      else none
  | .seekJob =>
      match state.producer, state.jobs with
      | .ready, seekPoint :: rest => seekJobStep state seekPoint rest
      | _, _ => none
  | .inputAdvance =>
      (producerStep state.buffer state.producer .advance).map (fun moved =>
        { state.setBuffer moved.1 with producer := moved.2 })
  | .decoderReadBuffer bufSize =>
      if state.consumer = .ready .idle then some (readStep state bufSize) else none
  | .giveUp =>
      match state.consumer with
      | .ready (.waitInput maxBufSize totalBufData) =>
          if starved state.buffer maxBufSize totalBufData then
            some { state with consumer := .ready .idle }
          else none
      | _ => none
  | .updateDecDetailSeek seekPoint =>
      if state.consumer = .ready .idle then some (seekStep state seekPoint) else none
  | .decoderAdvance =>
      match state.consumer with
      | .ready task => decoderStep state task
      | moving => (consumerRotate state.buffer moving).map (fun moved =>
          { state.setBuffer moved.1 with consumer := moved.2 })
  | .otherTrack bytes =>
      if state.consumer = .ready .idle then some { state with lastReadBuffer := bytes } else none

/-- The file's bytes from a position on. -/
def State.stream (state : State) : List UInt8 := state.file.file.content

/-- The bytes the file will still deliver to the buffer. -/
def State.unread (state : State) : List UInt8 := state.stream.drop state.file.file.position

/-- After a seek that has waited and returned, what has been read since, what
is in the buffer and what is still to be read from the file are the bytes of
the file from the seek point on. -/
def Delivers (state : State) : Prop :=
  ∀ seekPoint delivered, state.since = some (seekPoint, delivered) →
    delivered ++ pending state.buffer state.producer ++ state.unread =
      state.stream.drop seekPoint.toNat

/-- The tag of the chunk that answers a wait tells it from the old ones: while
the job is pending the wait meets no chunk with its tag, and when the job runs
no such chunk is queued. -/
def Distinguishes (state : State) : Action → Prop
  | .decoderAdvance =>
      match state.consumer with
      | .ready (.waitSeek seekPoint) => state.jobs ≠ [] →
          ∀ chunk ∈ state.buffer.dataBuffer.front, chunk.first ≠ seekPoint
      | _ => True
  | .seekJob => ∀ seekPoint ∈ state.jobs.head?,
      ∀ chunk ∈ state.buffer.dataBuffer.items, chunk.first ≠ seekPoint
  | _ => True

instance (state : State) (action : Action) : Decidable (Distinguishes state action) := by
  unfold Distinguishes
  split
  · split <;> infer_instance
  · infer_instance
  · infer_instance

/-- Nothing is under way between the two threads, whatever is in the buffer. -/
structure Rests (state : State) : Prop where
  circulates : Circulates state.buffer state.producer state.consumer
  producer : state.producer = .ready
  consumer : state.consumer = .ready .idle
  jobs : state.jobs = []
  since : state.since = none

/-- While the decoder waits for the answer that the job has prepared: the data
queue holds old chunks with other tags and then new ones with bytes; the new
ones, the producer's side and the rest of the file are the file from the seek
point on, and the first of the new bytes are in a chunk with the tag. -/
structure Answering (state : State) (seekPoint : Int) (old new : List Chunk) : Prop where
  split : state.buffer.dataBuffer.items = old ++ new
  distinct : ∀ chunk ∈ old, chunk.first ≠ seekPoint
  filled : ∀ chunk ∈ new, ¬ Vacant chunk
  bytes : queueBytes (new ++ producerSide state.buffer state.producer) ++ state.unread =
    state.stream.drop seekPoint.toNat
  tagged : ∀ chunk ∈ (occupied (new ++ producerSide state.buffer state.producer)).head?,
    chunk.first = seekPoint

/-- Where a seek is: none is under way, the job is pending, or the job has run. -/
inductive Phase (state : State) : Prop where
  | settled (jobs : state.jobs = []) (task : ∀ seekPoint, taskOf state.consumer ≠ .waitSeek seekPoint)
      (delivers : Delivers state)
  | asked (seekPoint : Int) (reachable : 0 ≤ seekPoint)
      (task : taskOf state.consumer = .waitSeek seekPoint) (jobs : state.jobs = [seekPoint])
      (since : state.since = none)
  | answered (seekPoint : Int) (reachable : 0 ≤ seekPoint)
      (task : taskOf state.consumer = .waitSeek seekPoint) (jobs : state.jobs = [])
      (since : state.since = none) (old new : List Chunk)
      (answering : Answering state seekPoint old new)

/-- The invariant of runs in which the tags distinguish old chunks from new. -/
structure Invariant (state : State) : Prop where
  circulates : Circulates state.buffer state.producer state.consumer
  takes : taskOf state.consumer ≠ .taking .clear
  phase : Phase state

/-- A read fills the front chunk with the next bytes of the file and moves no
other. The producer's side then has those bytes more; its tag, if it had bytes
before, is the same, and otherwise is the position of the new bytes. -/
structure ReadEffect (state next : State) : Prop where
  circulates : Circulates next.buffer next.producer next.consumer
  data : next.buffer.dataBuffer = state.buffer.dataBuffer
  stream : next.stream = state.stream
  fills : ∃ bytes, queueBytes (producerSide next.buffer next.producer) =
    queueBytes (producerSide state.buffer state.producer) ++ bytes ∧
      bytes ++ next.unread = state.unread ∧
      ∀ chunk ∈ (occupied (producerSide next.buffer next.producer)).head?,
        (∃ earlier ∈ (occupied (producerSide state.buffer state.producer)).head?,
          chunk.first = earlier.first) ∨
          (queueBytes (producerSide state.buffer state.producer) = [] ∧ bytes ≠ [] ∧
            chunk.first = state.file.file.position)

/-- `try_read` fills the front chunk, if there is one, and rotates it when the file
is then finished. -/
theorem tryRead_cases (state : State) (maxFileChunkSize : Nat) :
    let next := tryReadStep state maxFileChunkSize
    (state.buffer.cacheBuffer.items = [] ∧ next = state) ∨
      ∃ chunk rest, state.buffer.cacheBuffer.items = chunk :: rest ∧
        next.file = (InputPluginFile.fillChunk maxFileChunkSize state.file chunk).1 ∧
        next.finished = (InputPluginFile.fillChunk maxFileChunkSize state.file chunk).2.2 ∧
        next.details.streamLength = state.details.streamLength ∧
        next.buffer.cacheBuffer = state.buffer.cacheBuffer.modifyFront
          (fun _ => (InputPluginFile.fillChunk maxFileChunkSize state.file chunk).2.1) ∧
        next.buffer.dataBuffer = state.buffer.dataBuffer ∧
        ((next.producer = .ready ∧ next.finished = false) ∨ next.producer = .rotating) ∧
        producerSide next.buffer next.producer =
          [(InputPluginFile.fillChunk maxFileChunkSize state.file chunk).2.1] := by
  intro next
  cases found : InputPluginFile.tryReadFill maxFileChunkSize state.file state.buffer with
  | none =>
    have same : next = state := by simp only [next, tryReadStep, found]
    have vacant : state.buffer.getCachePtr = none := by
      cases pointed : state.buffer.getCachePtr with
      | none => rfl
      | some front => simp [InputPluginFile.tryReadFill, pointed] at found
    exact .inl ⟨CacheBuffer.getCachePtr_none vacant, same⟩
  | some result =>
    obtain ⟨file, filled, finished⟩ := result
    obtain ⟨chunk, rest, front, filledBy, data, _, _⟩ := InputPluginFile.tryReadFill_some found
    simp only [Prod.mk.injEq] at filledBy
    obtain ⟨rfl, cache, rfl⟩ := filledBy
    have put : next =
        putRead state (InputPluginFile.fillChunk maxFileChunkSize state.file chunk).1 filled
          (InputPluginFile.fillChunk maxFileChunkSize state.file chunk).2.2 := by
      simp only [next, tryReadStep, found]
    have sameCache : next.buffer.cacheBuffer = state.buffer.cacheBuffer.modifyFront
        (fun _ => (InputPluginFile.fillChunk maxFileChunkSize state.file chunk).2.1) := by
      rw [put]
      exact (CacheBuffer.putCachePtrSize_cache filled _).trans cache
    have sameData : next.buffer.dataBuffer = state.buffer.dataBuffer := by
      rw [put]
      exact (CacheBuffer.putCachePtrSize_data filled _).trans data
    have following : (next.producer = .ready ∧ next.finished = false) ∨
        next.producer = .rotating := by
      rw [put]
      change (producerPut filled _).2 = _ ∧ (InputPluginFile.fillChunk _ _ _).2.2 = _ ∨
        (producerPut filled _).2 = _
      cases finished : (InputPluginFile.fillChunk maxFileChunkSize state.file chunk).2.2 with
      | true =>
        right
        have fronts : filled.cacheBuffer.front =
            some (InputPluginFile.fillChunk maxFileChunkSize state.file chunk).2.1 := by
          rw [cache, BoundedQueue.front_eq_some_iff]
          exact ⟨rest, BoundedQueue.modifyFront_cons front _⟩
        simp [producerPut, CacheBuffer.putCachePtrSize, CacheBuffer.putGenPtrSize, fronts]
      | false =>
        rw [producerPut]
        split <;> simp
    refine .inr ⟨chunk, rest, front, by rw [put]; rfl, by rw [put]; rfl, by rw [put]; rfl,
      sameCache, sameData, following, ?_⟩
    have held : producerHeld next.producer = [] := by
      rcases following with ⟨still, _⟩ | rotates
      · rw [still]
        rfl
      · rw [rotates]
        rfl
    rw [producerSide, held, sameCache, BoundedQueue.modifyFront_cons front]
    rfl

/-- `try_read` up to the read of its rotation is such a read. -/
theorem tryRead_effect {state : State} {maxFileChunkSize : Nat}
    (circulates : Circulates state.buffer state.producer state.consumer)
    (ready : state.producer = .ready) : ReadEffect state (tryReadStep state maxFileChunkSize) := by
  rcases tryRead_cases state maxFileChunkSize with
    ⟨_, same⟩ | ⟨chunk, rest, front, file, _, _, cache, data, following, side⟩
  · rw [same]
    exact ⟨circulates, rfl, rfl, [], by simp, rfl, fun chunk member => .inl ⟨chunk, member, rfl⟩⟩
  · let next := tryReadStep state maxFileChunkSize
    let full := (InputPluginFile.fillChunk maxFileChunkSize state.file chunk).2.1
    obtain ⟨bytes, items, sameFile, _, _, ahead⟩ :=
      InputPluginFile.fillChunk_bytes maxFileChunkSize state.file chunk
    obtain ⟨keeps, tags⟩ := InputPluginFile.fillChunk_first maxFileChunkSize state.file chunk
    have goesOn : next.producer = .ready ∨ next.producer = .rotating :=
      following.imp_left And.left
    replace side : producerSide next.buffer next.producer = [full] := side
    have sideBefore : producerSide state.buffer state.producer = [chunk] := by
      rw [producerSide, ready, front]
      rfl
    have sameConsumer : next.consumer = state.consumer := by
      simp only [next, tryReadStep]
      split <;> rfl
    rw [ready] at circulates
    refine ⟨sameConsumer ▸ circulates.change_front _ goesOn cache data, data, ?_, bytes, ?_, ?_, ?_⟩
    · rw [State.stream, file]
      exact sameFile
    · rw [sideBefore, side]
      simp [full, items]
    · rw [State.unread, State.stream, file, sameFile]
      exact ahead
    · intro tagged member
      rw [side] at member
      rw [sideBefore]
      have holdsBytes : ¬ Vacant full := by
        intro still
        have nothing : occupied [full] = [] := occupied_vacant (by simpa using still)
        simp [nothing] at member
      have fullFilled : occupied [full] = [full] := occupied_filled (by simpa using holdsBytes)
      rw [fullFilled] at member
      obtain rfl : full = tagged := by simpa using member
      by_cases vacant : Vacant chunk
      · have nothing : queueBytes [chunk] = [] :=
          CacheBuffer.queueBytes_of_empty (fun other same => List.mem_singleton.mp same ▸ vacant)
        have some : bytes ≠ [] := by
          rintro rfl
          exact holdsBytes (items.trans (by rw [List.append_nil]; exact vacant))
        exact .inr ⟨nothing, some, tags vacant holdsBytes⟩
      · have chunkFilled : occupied [chunk] = [chunk] := occupied_filled (by simpa using vacant)
        exact .inl ⟨chunk, by simp [chunkFilled], keeps vacant⟩

/-- Clearing the front chunk leaves the producer without bytes. -/
theorem clearCache_effect {Task : Type} {before after : CacheBuffer} {consumer : Consumer Task}
    {next : Producer} (circulates : Circulates before .ready consumer)
    (cleared : producerStep before .ready .clearCache = some (after, next)) :
    Circulates after next consumer ∧ after.dataBuffer = before.dataBuffer ∧
      occupied (producerSide after next) = [] := by
  cases found : before.getCachePtr with
  | none =>
    simp only [producerStep, found, Option.some.injEq, Prod.mk.injEq] at cleared
    obtain ⟨rfl, rfl⟩ := cleared
    have vacant := CacheBuffer.getCachePtr_none found
    exact ⟨circulates, rfl, by simp [producerSide, producerHeld, vacant, occupied]⟩
  | some result =>
    obtain ⟨chunk, held⟩ := result
    obtain ⟨⟨rest, front⟩, cache, data⟩ := CacheBuffer.getCachePtr_some found
    simp only [producerStep, found, producerPut, Option.some.injEq, Prod.mk.injEq] at cleared
    obtain ⟨rfl, ended⟩ := cleared
    have putCache := (CacheBuffer.putCachePtrSize_cache (held.modifyCache Chunk.clear) false)
    have putData := (CacheBuffer.putCachePtrSize_data (held.modifyCache Chunk.clear) false)
    have changed : (held.modifyCache Chunk.clear).cacheBuffer =
        before.cacheBuffer.modifyFront Chunk.clear := by
      rw [CacheBuffer.modifyCache, cache]
    have following : next = .ready ∨ next = .rotating := by
      rw [← ended]
      split <;> simp
    have idle : producerHeld next = [] := by rcases following with rfl | rfl <;> rfl
    refine ⟨circulates.change_front Chunk.clear following (putCache.trans changed)
      (putData.trans data), putData.trans data, ?_⟩
    rw [producerSide, idle, putCache, changed, BoundedQueue.modifyFront_cons front]
    exact occupied_vacant (by simp [Vacant, Chunk.clear])

/-- A step of the input thread keeps every phase of a seek. The old chunks stay;
what it moves behind the data queue is new. -/
theorem input_phase {state next : State} (phase : Phase state)
    (consumer : next.consumer = state.consumer) (jobs : next.jobs = state.jobs)
    (since : next.since = state.since) (stream : next.stream = state.stream)
    {more : List Chunk} {bytes : List UInt8}
    (data : next.buffer.dataBuffer.items = state.buffer.dataBuffer.items ++ more)
    (filled : ∀ chunk ∈ more, ¬ Vacant chunk)
    (side : queueBytes (more ++ producerSide next.buffer next.producer) =
      queueBytes (producerSide state.buffer state.producer) ++ bytes)
    (unread : bytes ++ next.unread = state.unread)
    (tag : ∀ chunk ∈ (occupied (more ++ producerSide next.buffer next.producer)).head?,
      (∃ earlier ∈ (occupied (producerSide state.buffer state.producer)).head?,
        chunk.first = earlier.first) ∨
        (queueBytes (producerSide state.buffer state.producer) = [] ∧ bytes ≠ [] ∧
          chunk.first = state.file.file.position)) : Phase next := by
  cases phase with
  | settled noJob task delivers =>
    refine .settled (jobs.trans noJob) (consumer ▸ task) ?_
    intro seekPoint delivered answered
    have before := delivers seekPoint delivered (since ▸ answered)
    rw [stream, ← before, pending_eq, pending_eq, ← unread, CacheBuffer.dataBytes,
      CacheBuffer.dataBytes, data, CacheBuffer.queueBytes_append]
    have joined : queueBytes more ++ queueBytes (producerSide next.buffer next.producer) =
        queueBytes (producerSide state.buffer state.producer) ++ bytes := by
      rw [← CacheBuffer.queueBytes_append, side]
    simp only [List.append_assoc]
    rw [← List.append_assoc (queueBytes more), joined, List.append_assoc]
  | asked seekPoint reachable task pendingJob nothing =>
    exact .asked seekPoint reachable (consumer ▸ task) (jobs.trans pendingJob)
      (since.trans nothing)
  | answered seekPoint reachable task noJob nothing old new answering =>
    obtain ⟨split, distinct, newFilled, joined, tagged⟩ := answering
    refine .answered seekPoint reachable (consumer ▸ task) (jobs.trans noJob)
      (since.trans nothing) old (new ++ more) ⟨?_, distinct, ?_, ?_, ?_⟩
    · rw [data, split, List.append_assoc]
    · intro chunk member
      rcases List.mem_append.mp member with earlier | later
      · exact newFilled chunk earlier
      · exact filled chunk later
    · rw [stream, ← joined, ← unread, List.append_assoc new, CacheBuffer.queueBytes_append, side,
        CacheBuffer.queueBytes_append]
      simp only [List.append_assoc]
    · intro chunk member
      rw [List.append_assoc, occupied_append, occupied_filled newFilled] at member
      rw [occupied_append, occupied_filled newFilled] at tagged
      cases new with
      | cons first rest => exact tagged chunk member
      | nil =>
        simp only [List.nil_append] at member tagged joined
        rcases tag chunk member with ⟨earlier, before, same⟩ | ⟨none, some, first⟩
        · exact same.trans (tagged earlier before)
        · -- the first new bytes are read where the job has put the file
          rw [none, List.nil_append] at joined
          have lengths := congrArg List.length joined
          have positive : 0 < state.unread.length := by
            rw [← unread, List.length_append]
            exact Nat.add_pos_left (List.length_pos_iff.mpr some) _
          simp only [State.unread, List.length_drop] at lengths positive
          rw [first]
          omega

/-- The seek job answers the wait: what is queued is old, and nothing is new. -/
theorem seekJob_answers {state next : State} {seekPoint : Int} {rest : List Int}
    (circulates : Circulates state.buffer .ready state.consumer)
    (distinct : ∀ chunk ∈ state.buffer.dataBuffer.items, chunk.first ≠ seekPoint)
    (reachable : 0 ≤ seekPoint) (taken : seekJobStep state seekPoint rest = some next) :
    Circulates next.buffer next.producer state.consumer ∧
      Answering next seekPoint state.buffer.dataBuffer.items [] ∧
      next.consumer = state.consumer ∧ next.jobs = rest ∧ next.since = state.since := by
  simp only [seekJobStep, Option.map_eq_some_iff] at taken
  obtain ⟨⟨after, producer⟩, cleared, rfl⟩ := taken
  obtain ⟨circulating, data, side⟩ := clearCache_effect circulates cleared
  have nothing : queueBytes (producerSide after producer) = [] := by
    rw [← queueBytes_occupied, side]
    rfl
  refine ⟨circulating, ⟨?_, distinct, by simp, ?_, ?_⟩, rfl, rfl, rfl⟩
  · rw [List.append_nil]
    exact congrArg BoundedQueue.items data
  · rw [List.nil_append]
    change queueBytes (producerSide after producer) ++ _ = _
    have forward : ¬ seekPoint < 0 := by omega
    simp [nothing, State.unread, State.stream, InputPluginFile.seekHelper, Ifstream.seekg,
      Ifstream.clear, forward]
  · intro chunk member
    rw [List.nil_append] at member
    change chunk ∈ (occupied (producerSide after producer)).head? at member
    simp [side] at member

/-- Every step of the input thread keeps the invariant. -/
theorem input_preserves {state next : State} {action : Action} (invariant : Invariant state)
    (condition : Distinguishes state action)
    (input : (∃ size, action = .tryRead size) ∨ action = .seekJob ∨ action = .inputAdvance)
    (taken : step state action = some next) : Invariant next := by
  obtain ⟨circulates, takes, phase⟩ := invariant
  rcases input with ⟨maxFileChunkSize, rfl⟩ | rfl | rfl
  · simp only [step] at taken
    split at taken
    · rename_i enabled
      obtain rfl := Option.some.inj taken
      have same : (tryReadStep state maxFileChunkSize).consumer = state.consumer ∧
          (tryReadStep state maxFileChunkSize).jobs = state.jobs ∧
          (tryReadStep state maxFileChunkSize).since = state.since := by
        rw [tryReadStep]
        split <;> exact ⟨rfl, rfl, rfl⟩
      have effect : ReadEffect state (tryReadStep state maxFileChunkSize) :=
        tryRead_effect circulates enabled.1
      obtain ⟨circulating, data, stream, bytes, side, unread, tag⟩ := effect
      refine ⟨circulating, same.1 ▸ takes, ?_⟩
      exact input_phase phase same.1 same.2.1 same.2.2 stream
        (by rw [data, List.append_nil]) (by simp) side unread tag
    · contradiction
  · simp only [step] at taken
    split at taken
    · rename_i seekPoint rest ready jobs
      rw [ready] at circulates
      cases phase with
      | settled noJob => rw [noJob] at jobs; contradiction
      | answered _ _ _ noJob => rw [noJob] at jobs; contradiction
      | asked asked reachable task pendingJob nothing =>
        rw [pendingJob, List.cons.injEq] at jobs
        obtain ⟨rfl, rfl⟩ := jobs
        have distinct := condition asked (by simp [pendingJob])
        obtain ⟨circulating, answering, consumer, noJob, since⟩ :=
          seekJob_answers circulates distinct reachable taken
        refine ⟨consumer ▸ circulating, consumer ▸ takes, ?_⟩
        exact .answered asked reachable (consumer ▸ task) noJob (since.trans nothing) _ _ answering
    · contradiction
  · simp only [step, Option.map_eq_some_iff] at taken
    obtain ⟨⟨after, producer⟩, moved, rfl⟩ := taken
    obtain ⟨circulating, more, data, filled, side⟩ := circulates.producer_moves moved
    refine ⟨circulating, takes, ?_⟩
    have bytes : queueBytes (more ++ producerSide after producer) =
        queueBytes (producerSide state.buffer state.producer) ++ [] := by
      rw [← queueBytes_occupied, side, queueBytes_occupied, List.append_nil]
    refine input_phase phase rfl rfl rfl rfl data filled bytes rfl ?_
    intro chunk member
    change chunk ∈ (occupied (more ++ producerSide after producer)).head? at member
    rw [side] at member
    exact .inl ⟨chunk, member, rfl⟩

/-- Putting bytes back keeps the chunks circulating, brings the producer no byte, and
leaves the length of the stream. -/
theorem reinsert_circulates {details moved : DecoderDetails} {producer : Producer}
    {lastReadBuffer : List UInt8} {seekPoint : Int} {task : DecoderTask}
    (circulates : Circulates details.currentCacheBuf producer (.ready task))
    (reinserted : DecoderPluginsManager.reinsert details lastReadBuffer seekPoint = some moved) :
    Circulates moved.currentCacheBuf producer (.ready task) ∧
      occupied (producerSide moved.currentCacheBuf producer) =
        occupied (producerSide details.currentCacheBuf producer) ∧
      moved.streamLength = details.streamLength := by
  rw [DecoderPluginsManager.reinsert] at reinserted
  split at reinserted
  · simp only at reinserted
    split at reinserted
    · cases found : details.currentCacheBuf.getDataPtr with
      | none => simp [found] at reinserted
      | some result =>
        obtain ⟨chunk, held⟩ := result
        obtain ⟨⟨rest, front⟩, _⟩ := CacheBuffer.getDataPtr_some found
        simp only [found, Option.some.injEq] at reinserted
        rw [← reinserted]
        exact ⟨(circulates.put_data_ptr _ found front (by simp)).1,
          circulates.put_data_ptr_side _ found (by simp), rfl⟩
    · obtain rfl := Option.some.inj reinserted
      exact ⟨circulates, rfl, rfl⟩
  · obtain rfl := Option.some.inj reinserted
    exact ⟨circulates, rfl, rfl⟩

/-- A seek is refused, discards within the buffer, or posts a job and waits. -/
theorem seekStep_preserves {state : State} {seekPoint : Int} (invariant : Invariant state)
    (idle : state.consumer = .ready .idle) : Invariant (seekStep state seekPoint) := by
  obtain ⟨circulates, takes, phase⟩ := invariant
  have noJob : state.jobs = [] := by
    cases phase with
    | settled noJob => exact noJob
    | asked _ _ task => simp [idle, taskOf] at task
    | answered _ _ task => simp [idle, taskOf] at task
  rw [seekStep]
  split
  · exact ⟨circulates, takes, phase⟩
  · rename_i accepted
    cases reinserted : DecoderPluginsManager.reinsert state.details state.lastReadBuffer
        seekPoint with
    | none => exact ⟨circulates, takes, phase⟩
    | some moved =>
      rw [idle] at circulates
      obtain ⟨circulating, _, _⟩ := reinsert_circulates circulates reinserted
      simp only
      split
      · refine ⟨circulating.takes_up _, by simp [taskOf], .settled noJob (by simp [taskOf]) ?_⟩
        intro answered delivered since
        contradiction
      · refine ⟨circulating.takes_up _, by simp [taskOf], ?_⟩
        exact .asked seekPoint (by omega) rfl (by simp [noJob]) rfl

/-- A pass of a task that copies or discards bytes. -/
theorem taking_preserves {state next : State} {task : Task} (invariant : Invariant state)
    (taking : state.consumer = .ready (.taking task))
    (taken : decoderStep state (.taking task) = some next) : Invariant next := by
  obtain ⟨circulates, takes, phase⟩ := invariant
  simp only [decoderStep, Option.map_eq_some_iff] at taken
  obtain ⟨⟨bytes, after, consumer⟩, passed, rfl⟩ := taken
  rw [taking] at circulates takes
  have notClear : task ≠ .clear := fun clears => takes (by rw [clears]; rfl)
  obtain ⟨circulating, moved, goesOn⟩ := (circulates.takes_up task).takes notClear passed
  have copiedSame : (copied state bytes task).producer = state.producer ∧
      (copied state bytes task).jobs = state.jobs ∧
      (copied state bytes task).file = state.file := by
    cases task <;> exact ⟨rfl, rfl, rfl⟩
  have named : taskOf (consumer.map ofTask) = ofTask (taskOf consumer) := by
    cases consumer <;> rfl
  have arrives : ∀ following : Task, following ≠ .clear →
      ofTask following ≠ .taking .clear ∧ ∀ seekPoint, ofTask following ≠ .waitSeek seekPoint := by
    intro following other
    cases following <;> simp_all [ofTask]
  have settled : state.jobs = [] ∧ Delivers state := by
    cases phase with
    | settled noJob _ delivers => exact ⟨noJob, delivers⟩
    | asked _ _ waits => simp [taking, taskOf] at waits
    | answered _ _ waits => simp [taking, taskOf] at waits
  obtain ⟨noJob, delivers⟩ := settled
  refine ⟨?_, ?_, .settled ?_ ?_ ?_⟩
  · change Circulates after (copied state bytes task).producer (consumer.map ofTask)
    rw [copiedSame.1]
    exact circulating.map ofTask
  · rw [named]
    exact (arrives _ goesOn).1
  · exact copiedSame.2.1.trans noJob
  · intro seekPoint
    rw [named]
    exact (arrives _ goesOn).2 seekPoint
  · intro seekPoint delivered since
    simp only [Option.map_eq_some_iff, Prod.mk.injEq] at since
    obtain ⟨⟨point, earlier⟩, answered, rfl, rfl⟩ := since
    have before := delivers point earlier answered
    rw [moved] at before
    change earlier ++ bytes ++ pending after (copied state bytes task).producer ++
      (copied state bytes task).unread = (copied state bytes task).stream.drop _
    rw [State.unread, State.stream, copiedSame.1, copiedSame.2.2]
    simpa only [State.unread, State.stream, List.append_assoc] using before

/-- A front chunk with another tag is old: the wait clears it and rotates it away. -/
theorem oldChunk_preserves {state : State} {seekPoint : Int} {chunk : Chunk}
    {held after : CacheBuffer} {consumer : Consumer DecoderTask} (invariant : Invariant state)
    (waits : state.consumer = .ready (.waitSeek seekPoint))
    (found : state.buffer.getDataPtr = some (chunk, held)) (other : chunk.first ≠ seekPoint)
    (moved : consumerPut (held.modifyData Chunk.clear) true (DecoderTask.waitSeek seekPoint) =
      (after, consumer)) :
    Invariant { state.setBuffer after with consumer := consumer } := by
  obtain ⟨circulates, takes, phase⟩ := invariant
  rw [waits] at circulates
  obtain ⟨⟨rest, front⟩, _, _⟩ := CacheBuffer.getDataPtr_some found
  obtain ⟨circulating, task, cleared, sameCache⟩ :=
    circulates.put_data Chunk.clear found (fun _ => rfl) moved
  have items := BoundedQueue.modifyFront_cons front Chunk.clear
  rw [← cleared] at items
  refine ⟨circulating, fun clears => ?_, ?_⟩
  · have same : taskOf consumer = .taking .clear := clears
    simp [task] at same
  · cases phase with
    | settled _ notWaiting => exact absurd (by rw [waits]; rfl) (notWaiting seekPoint)
    | asked asked reachable waiting pendingJob nothing =>
      obtain rfl : seekPoint = asked := by simpa [waits, taskOf] using waiting
      exact .asked seekPoint reachable task pendingJob nothing
    | answered asked reachable waiting noJob nothing old new answering =>
      obtain rfl : seekPoint = asked := by simpa [waits, taskOf] using waiting
      obtain ⟨split, distinct, filled, bytes, tagged⟩ := answering
      rw [front] at split
      have side := producerSide_congr state.producer sameCache
      cases old with
      | nil =>
        obtain rfl : chunk :: rest = new := split
        have first := tagged chunk (by rw [occupied_append, occupied_filled filled]; rfl)
        exact absurd first other
      | cons oldest older =>
        obtain ⟨rfl, rfl⟩ := List.cons.inj split
        refine .answered seekPoint reachable task noJob nothing (chunk.clear :: older) new
          ⟨items, ?_, filled, ?_, ?_⟩
        · intro earlier member
          rcases List.mem_cons.mp member with rfl | later
          · exact other
          · exact distinct earlier (List.mem_cons_of_mem _ later)
        · change queueBytes (new ++ producerSide after state.producer) ++ _ = _
          rw [side]
          exact bytes
        · change ∀ chunk ∈ (occupied (new ++ producerSide after state.producer)).head?, _
          rw [side]
          exact tagged

/-- A front chunk with the tag of the seek is the first new one, since the condition
excludes it before the job has run: the bytes from it on are those at the seek point. -/
theorem newChunk_preserves {state : State} {seekPoint : Int} {chunk : Chunk} {held : CacheBuffer}
    (invariant : Invariant state) (waits : state.consumer = .ready (.waitSeek seekPoint))
    (condition : Distinguishes state .decoderAdvance)
    (found : state.buffer.getDataPtr = some (chunk, held)) (same : chunk.first = seekPoint) :
    Invariant { state with
      details := { state.details with currentStreamPos := seekPoint, currentCacheBuf := held }
      consumer := .ready .idle
      since := some (seekPoint, []) } := by
  obtain ⟨circulates, takes, phase⟩ := invariant
  rw [waits] at circulates
  obtain ⟨⟨rest, front⟩, cache, data⟩ := CacheBuffer.getDataPtr_some found
  have circulating : Circulates held state.producer (Consumer.ready DecoderTask.idle) :=
    circulates.change_data (fun chunk => chunk) cache (data.trans (modifyFront_id _).symm) rfl
      trivial
  cases phase with
  | settled _ notWaiting => exact absurd (by rw [waits]; rfl) (notWaiting seekPoint)
  | asked asked reachable waiting pendingJob nothing =>
    have fronts := BoundedQueue.front_eq_some_iff.mpr ⟨rest, front⟩
    simp only [Distinguishes, waits] at condition
    exact absurd same (condition (by simp [pendingJob]) chunk fronts)
  | answered asked reachable waiting noJob nothing old new answering =>
    obtain rfl : seekPoint = asked := by simpa [waits, taskOf] using waiting
    obtain ⟨split, distinct, filled, bytes, tagged⟩ := answering
    rw [front] at split
    cases old with
    | cons oldest older =>
      obtain ⟨rfl, rfl⟩ := List.cons.inj split
      exact absurd same (distinct chunk List.mem_cons_self)
    | nil =>
      obtain rfl : chunk :: rest = new := split
      have sameData : held.dataBytes = state.buffer.dataBytes := by
        rw [CacheBuffer.dataBytes, CacheBuffer.dataBytes, data]
      refine ⟨circulating, by simp [taskOf], .settled noJob (by simp [taskOf]) ?_⟩
      intro point delivered since
      simp only [Option.some.injEq, Prod.mk.injEq] at since
      obtain ⟨rfl, rfl⟩ := since
      change [] ++ pending held state.producer ++ state.unread = state.stream.drop _
      rw [List.nil_append, pending_eq, sameData, producerSide_congr _ cache, ← bytes,
        CacheBuffer.dataBytes, front, CacheBuffer.queueBytes_append]

/-- The wait throws away old chunks, and takes the first new one for the answer. -/
theorem waitSeek_preserves {state next : State} {seekPoint : Int} (invariant : Invariant state)
    (waits : state.consumer = .ready (.waitSeek seekPoint))
    (condition : Distinguishes state .decoderAdvance)
    (taken : decoderStep state (.waitSeek seekPoint) = some next) : Invariant next := by
  cases found : state.buffer.getDataPtr with
  | none => simp [decoderStep, found] at taken
  | some result =>
    obtain ⟨chunk, held⟩ := result
    simp only [decoderStep, found] at taken
    split at taken
    · rename_i other
      obtain rfl := Option.some.inj taken
      exact oldChunk_preserves invariant waits found other rfl
    · rename_i same
      obtain rfl := Option.some.inj taken
      exact newChunk_preserves invariant waits condition found (not_not.mp same)

/-- A rotation of the decoder takes only an old chunk off the data queue. -/
theorem rotation_preserves {state : State} {after : CacheBuffer} {consumer : Consumer DecoderTask}
    (invariant : Invariant state)
    (rotated : consumerRotate state.buffer state.consumer = some (after, consumer)) :
    Invariant { state.setBuffer after with consumer := consumer } := by
  obtain ⟨circulates, takes, phase⟩ := invariant
  obtain ⟨circulating, ⟨gone, items, short, vacant⟩, side⟩ := circulates.consumer_moves rotated
  obtain ⟨_, same⟩ := circulates.consumer_rotates rotated
  have task := rotates_task rotated
  refine ⟨circulating, fun clears => takes (task.symm.trans clears), ?_⟩
  cases phase with
  | settled noJob notWaiting delivers =>
    refine .settled noJob (fun seekPoint waits => notWaiting seekPoint (task.symm.trans waits)) ?_
    intro seekPoint delivered since
    change delivered ++ pending after state.producer ++ state.unread = _
    rw [same]
    exact delivers seekPoint delivered since
  | asked seekPoint reachable waits pendingJob nothing =>
    exact .asked seekPoint reachable (task.trans waits) pendingJob nothing
  | answered seekPoint reachable waits noJob nothing old new answering =>
    obtain ⟨split, distinct, filled, bytes, tagged⟩ := answering
    have later : ∃ older, after.dataBuffer.items = older ++ new ∧ ∀ chunk ∈ older, chunk ∈ old := by
      rw [items] at split
      cases gone with
      | nil => exact ⟨old, split, fun _ member => member⟩
      | cons chunk others =>
        obtain rfl : others = [] := by
          apply List.length_eq_zero_iff.mp
          simp only [List.length_cons] at short
          omega
        cases old with
        | nil =>
          have first : chunk ∈ new := by
            rw [← List.nil_append new, ← split]
            exact List.mem_cons_self
          exact absurd (vacant chunk List.mem_cons_self) (filled chunk first)
        | cons oldest older =>
          obtain ⟨_, remaining⟩ := List.cons.inj split
          exact ⟨older, remaining, fun _ member => List.mem_cons_of_mem _ member⟩
    obtain ⟨older, rest, fromOld⟩ := later
    refine .answered seekPoint reachable (task.trans waits) noJob nothing older new
      ⟨rest, fun chunk member => distinct chunk (fromOld chunk member), filled, ?_, ?_⟩
    · change queueBytes (new ++ producerSide after state.producer) ++ _ = _
      rw [← queueBytes_occupied, occupied_append, side, ← occupied_append, queueBytes_occupied]
      exact bytes
    · change ∀ chunk ∈ (occupied (new ++ producerSide after state.producer)).head?, _
      rw [occupied_append, side, ← occupied_append]
      exact tagged

/-- Going to the head of another task that waits for no seek keeps the invariant. -/
theorem head_preserves {state following : State} {task other : DecoderTask}
    (invariant : Invariant state) (before : state.consumer = .ready task)
    (notWaiting : ∀ seekPoint, task ≠ .waitSeek seekPoint)
    (stillNot : ∀ seekPoint, other ≠ .waitSeek seekPoint) (notClear : other ≠ .taking .clear)
    (consumer : following.consumer = .ready other) (buffer : following.buffer = state.buffer)
    (producer : following.producer = state.producer) (jobs : following.jobs = state.jobs)
    (since : following.since = state.since) (file : following.file = state.file) :
    Invariant following := by
  obtain ⟨circulates, takes, phase⟩ := invariant
  rw [before] at circulates
  refine ⟨?_, by rw [consumer]; exact notClear, ?_⟩
  · rw [buffer, producer, consumer]
    exact circulates.takes_up other
  · cases phase with
    | settled noJob _ delivers =>
      refine .settled (jobs.trans noJob) (by rw [consumer]; exact stillNot) ?_
      intro seekPoint delivered answered
      rw [State.unread, State.stream, buffer, producer, file]
      exact delivers seekPoint delivered (since ▸ answered)
    | asked seekPoint _ waits => exact absurd (by simpa [before, taskOf] using waits) (notWaiting _)
    | answered seekPoint _ waits =>
      exact absurd (by simpa [before, taskOf] using waits) (notWaiting _)

/-- A read starts to wait for input or to copy. -/
theorem readStep_task (state : State) (bufSize : Int) :
    ∃ task, (readStep state bufSize).consumer = .ready task ∧
      (∀ seekPoint, task ≠ .waitSeek seekPoint) ∧ task ≠ .taking .clear := by
  by_cases behind : state.details.currentStreamPos < state.details.streamLength
  · exact ⟨_, rfl, by simp [behind], by simp [behind]⟩
  · exact ⟨_, rfl, by simp [behind], by simp [behind]⟩

/-- Every step of the decoder thread keeps the invariant. -/
theorem decoder_preserves {state next : State} {action : Action} (invariant : Invariant state)
    (condition : Distinguishes state action)
    (decoder : (∀ size, action ≠ .tryRead size) ∧ action ≠ .seekJob ∧ action ≠ .inputAdvance)
    (taken : step state action = some next) : Invariant next := by
  cases action with
  | tryRead size => exact absurd rfl (decoder.1 size)
  | seekJob => exact absurd rfl decoder.2.1
  | inputAdvance => exact absurd rfl decoder.2.2
  | decoderReadBuffer bufSize =>
    simp only [step] at taken
    split at taken
    · rename_i idle
      obtain rfl := Option.some.inj taken
      obtain ⟨task, starts, notWaiting, notClear⟩ := readStep_task state bufSize
      exact head_preserves invariant idle (by simp) notWaiting notClear starts rfl rfl rfl rfl rfl
    · contradiction
  | giveUp =>
    simp only [step] at taken
    split at taken
    · rename_i waiting
      split at taken
      · obtain rfl := Option.some.inj taken
        exact head_preserves invariant waiting (by simp) (by simp) (by simp) rfl rfl rfl rfl rfl rfl
      · contradiction
    · contradiction
  | updateDecDetailSeek seekPoint =>
    simp only [step] at taken
    split at taken
    · rename_i idle
      obtain rfl := Option.some.inj taken
      exact seekStep_preserves invariant idle
    · contradiction
  | decoderAdvance =>
    simp only [step] at taken
    split at taken
    · rename_i task ready
      cases task with
      | idle => contradiction
      | waitInput maxBufSize totalBufData =>
        simp only [decoderStep] at taken
        split at taken
        · obtain rfl := Option.some.inj taken
          exact head_preserves invariant ready (by simp) (by simp) (by simp) rfl rfl rfl rfl rfl rfl
        · obtain rfl := Option.some.inj taken
          exact head_preserves invariant ready (by simp) (by simp) (by simp) rfl rfl rfl rfl rfl rfl
      | taking task => exact taking_preserves invariant ready taken
      | waitSeek seekPoint => exact waitSeek_preserves invariant ready condition taken
    · rw [Option.map_eq_some_iff] at taken
      obtain ⟨⟨after, consumer⟩, rotated, rfl⟩ := taken
      exact rotation_preserves invariant rotated
  | otherTrack bytes =>
    simp only [step] at taken
    split at taken
    · rename_i idle
      obtain rfl := Option.some.inj taken
      exact head_preserves invariant idle (by simp) (by simp) (by simp) idle rfl rfl rfl rfl rfl
    · contradiction

/-- Every step keeps the invariant when the tags distinguish old chunks from new. -/
theorem step_preserves (state : State) (action : Action) (next : State)
    (invariant : Invariant state) (condition : Distinguishes state action)
    (taken : step state action = some next) : Invariant next := by
  by_cases input : (∃ size, action = .tryRead size) ∨ action = .seekJob ∨ action = .inputAdvance
  · exact input_preserves invariant condition input taken
  · rw [not_or, not_or, not_exists] at input
    exact decoder_preserves invariant condition input taken

/-- From any buffer content, in every interleaving in which the tags distinguish
old chunks from new, whatever is delivered after a seek that has waited for the
input and returned is the file from its seek point on. -/
theorem seek_delivers {start finish : State} {actions : List Action} (rests : Rests start)
    (condition : LabelledRuns.Meets step Distinguishes start actions)
    (ran : LabelledRuns.run step start actions = some finish) : Delivers finish := by
  obtain ⟨circulates, producer, consumer, jobs, since⟩ := rests
  have nothing : Delivers start := by
    intro seekPoint delivered answered
    rw [since] at answered
    contradiction
  have initial : Invariant start := by
    refine ⟨circulates, ?_, .settled jobs ?_ nothing⟩
    · simp [consumer, taskOf]
    · simp [consumer, taskOf]
  have invariant := LabelledRuns.run_preserves_under step_preserves initial condition ran
  cases invariant.phase with
  | settled _ _ delivers => exact delivers
  | asked _ _ _ _ unanswered =>
    intro seekPoint delivered answered
    rw [unanswered] at answered
    contradiction
  | answered _ _ _ _ unanswered =>
    intro seekPoint delivered answered
    rw [unanswered] at answered
    contradiction

/-- A track that has just been opened, with a new buffer. -/
def opened (bufferSize elemSize : Nat) (content : List UInt8) : State :=
  { details :=
      { streamLength := content.length
        currentStreamPos := 0
        lastReadEmpty := true
        currentCacheBuf := CacheBuffer.make bufferSize elemSize 0 0 }
    lastReadBuffer := []
    consumer := .ready .idle
    file :=
      { file := { content := content, position := 0, failed := false }
        fileSize := content.length
        currentReadSoFar := 0 }
    finished := false
    producer := .ready
    jobs := []
    since := none }

theorem opened_rests (bufferSize elemSize : Nat) (content : List UInt8) :
    Rests (opened bufferSize elemSize content) :=
  ⟨(make_circulates bufferSize elemSize 0 0 DecoderTask.idle).1, rfl, rfl, rfl, rfl⟩

/-- A read of one byte, a seek to six that throws the old chunk away before the
job runs, and a read of the two bytes there. -/
def seekForward : List Action :=
  [.tryRead 2, .inputAdvance, .inputAdvance, .decoderReadBuffer 1, .decoderAdvance, .decoderAdvance,
    .updateDecDetailSeek 6, .decoderAdvance, .decoderAdvance, .decoderAdvance, .seekJob, .tryRead 2,
    .inputAdvance, .inputAdvance, .decoderAdvance, .decoderReadBuffer 2, .decoderAdvance,
    .decoderAdvance]

/-- After that seek the bytes at six and seven have been delivered. -/
theorem seek_delivers_forward :
    ∃ finish, LabelledRuns.run step (opened 4 2 [0, 1, 2, 3, 4, 5, 6, 7, 8, 9]) seekForward =
        some finish ∧ finish.since = some (6, [6, 7]) ∧ Delivers finish := by
  refine ⟨_, rfl, rfl, ?_⟩
  exact seek_delivers (opened_rests 4 2 [0, 1, 2, 3, 4, 5, 6, 7, 8, 9])
    (by decide : LabelledRuns.Meets step Distinguishes _ seekForward) rfl

/-- Reads of four and three bytes, which leave one byte in a chunk that started
at four and is now tagged with one; then a seek back to one and a read there. -/
def seekBack : List Action :=
  [.tryRead 4, .inputAdvance, .inputAdvance, .tryRead 4, .inputAdvance, .inputAdvance,
    .decoderReadBuffer 4, .decoderAdvance, .decoderAdvance, .decoderAdvance, .decoderAdvance,
    .decoderReadBuffer 3, .decoderAdvance, .decoderAdvance, .updateDecDetailSeek 1,
    .decoderAdvance, .decoderReadBuffer 1, .decoderAdvance, .decoderAdvance]

/-- The old chunk is taken for the answer: the byte delivered after the seek to
one is the byte at seven. -/
theorem seek_takes_old_chunk :
    Rests (opened 8 4 [0, 1, 2, 3, 4, 5, 6, 7, 8, 9]) ∧
      ∃ finish, LabelledRuns.run step (opened 8 4 [0, 1, 2, 3, 4, 5, 6, 7, 8, 9]) seekBack =
          some finish ∧ finish.since = some (1, [7]) ∧ ¬ Delivers finish := by
  refine ⟨opened_rests 8 4 [0, 1, 2, 3, 4, 5, 6, 7, 8, 9], _, rfl, rfl, ?_⟩
  intro delivers
  have wrong := delivers 1 [7] rfl
  contradiction

end Mprt.SeekHandshake
