import Mprt.SeekHandshake

/-!
# A seek whose answer never comes

The wait of `SeekHandshake` has no exit of its own: it ends when a chunk with the
tag of the seek point is at the front of the data queue. Whether such a chunk
ever gets there depends on the file. From a seek point within the file at least
one byte is still to be read, and the chunk that takes it carries the tag. At the
end of the file the first read takes no byte and finishes the file; its empty
chunk is dropped in the rotation, and no thread can take a further step.
-/

namespace Mprt.SeekWait

open CacheBufferThreads hiding State Action step
open Circulation
open SeekHandshake hiding Invariant

/-- The decoder waits at an empty data queue, the job has run, and the file is
finished with no rotation under way. -/
def Stuck (state : State) : Prop :=
  (∃ seekPoint, state.consumer = .ready (.waitSeek seekPoint)) ∧
    state.buffer.dataBuffer.items = [] ∧ state.jobs = [] ∧ state.finished = true ∧
    state.producer = .ready

/-- A seek that needs the input plugin goes to a point before the end of the file. -/
def ShortOfEnd (state : State) : Action → Prop
  | .updateDecDetailSeek seekPoint =>
      match DecoderPluginsManager.updateDecDetailSeek state.details state.lastReadBuffer
        seekPoint with
      | some (.callback _) => seekPoint ≠ state.file.fileSize
      | _ => True
  | _ => True

instance (state : State) (action : Action) : Decidable (ShortOfEnd state action) := by
  unfold ShortOfEnd
  split
  · split <;> infer_instance
  · infer_instance

/-- Nothing is under way between the threads, the lengths are those of the file,
and a finished file has rotated its last chunk. -/
structure Opened (state : State) : Prop where
  rests : Rests state
  stream : state.details.streamLength = state.stream.length
  size : state.file.fileSize = state.stream.length
  rotated : state.finished = true → occupied (producerSide state.buffer state.producer) = []

/-- The chunks between the file and the decoder, in the order of their bytes. -/
def inFlight (state : State) : List Chunk :=
  state.buffer.dataBuffer.items ++ producerSide state.buffer state.producer

/-- The answer to a seek is still to be read from the file, which is at the seek
point with no byte read since, or it is on its way. -/
inductive Promised (state : State) (seekPoint : Int) : Prop where
  | unread (side : occupied (producerSide state.buffer state.producer) = [])
      (position : (state.file.file.position : Int) = seekPoint)
      (live : state.file.file.failed = false) (count : state.file.currentReadSoFar = seekPoint)
      (unfinished : state.finished = false)
  | queued (chunk : Chunk) (member : chunk ∈ occupied (inFlight state))
      (tagged : chunk.first = seekPoint)

/-- While the decoder waits, its job is the last one pending, or the answer is promised. -/
structure Invariant (state : State) : Prop where
  circulates : Circulates state.buffer state.producer state.consumer
  takes : taskOf state.consumer ≠ .taking .clear
  stream : state.details.streamLength = state.stream.length
  size : state.file.fileSize = state.stream.length
  rotated : state.finished = true → state.producer = .ready →
    occupied (producerSide state.buffer state.producer) = []
  short : ∀ seekPoint ∈ state.jobs, 0 ≤ seekPoint ∧ seekPoint < state.stream.length
  waits : ∀ seekPoint, taskOf state.consumer = .waitSeek seekPoint →
    state.jobs.getLast? = some seekPoint ∨
      (state.jobs = [] ∧ 0 ≤ seekPoint ∧ seekPoint < state.stream.length ∧
        Promised state seekPoint)

/-- In a stuck state neither thread has a step. -/
theorem stuck_final {state : State} (stuck : Stuck state) (action : Action) :
    step state action = none := by
  obtain ⟨⟨seekPoint, waits⟩, data, jobs, finished, ready⟩ := stuck
  have none : state.buffer.getDataPtr = none := by
    simp [CacheBuffer.getDataPtr, CacheBuffer.getGenPtr, BoundedQueue.front, data]
  cases action <;>
    simp [step, waits, jobs, finished, ready, decoderStep, none, producerStep]

/-- A promised answer contradicts a stuck state. -/
theorem Invariant.not_stuck {state : State} (invariant : Invariant state) : ¬ Stuck state := by
  rintro ⟨⟨seekPoint, waits⟩, data, jobs, finished, ready⟩
  rcases invariant.waits seekPoint (by rw [waits]; rfl) with last | ⟨_, _, _, promised⟩
  · rw [jobs] at last
    contradiction
  · cases promised with
    | unread _ _ _ _ unfinished =>
      rw [unfinished] at finished
      contradiction
    | queued chunk member tagged =>
      rw [inFlight, data, List.nil_append, invariant.rotated finished ready] at member
      contradiction

/-- A promise depends on the chunks that are on their way and on the file. -/
theorem Promised.congr {state next : State} {seekPoint : Int} (promised : Promised state seekPoint)
    (side : occupied (producerSide state.buffer state.producer) = [] →
      occupied (producerSide next.buffer next.producer) = [])
    (flight : ∀ chunk ∈ occupied (inFlight state), chunk.first = seekPoint →
      chunk ∈ occupied (inFlight next))
    (file : next.file = state.file) (finished : next.finished = state.finished) :
    Promised next seekPoint := by
  cases promised with
  | unread nothing position live count unfinished =>
    exact .unread (side nothing) (by rw [file]; exact position) (by rw [file]; exact live)
      (by rw [file]; exact count) (finished.trans unfinished)
  | queued chunk member tagged => exact .queued chunk (flight chunk member tagged) tagged

/-- A step of the decoder thread that posts no job keeps the invariant when it takes
no chunk that answers its wait. -/
theorem Invariant.of_decoder {state next : State} (invariant : Invariant state)
    (circulates : Circulates next.buffer next.producer next.consumer)
    (takes : taskOf next.consumer ≠ .taking .clear)
    (stream : next.details.streamLength = state.details.streamLength)
    (file : next.file = state.file) (finished : next.finished = state.finished)
    (producer : next.producer = state.producer) (jobs : next.jobs = state.jobs)
    (side : occupied (producerSide next.buffer next.producer) =
      occupied (producerSide state.buffer state.producer))
    (waits : ∀ seekPoint, taskOf next.consumer = .waitSeek seekPoint →
      taskOf state.consumer = .waitSeek seekPoint ∧
        ∀ chunk ∈ occupied (inFlight state), chunk.first = seekPoint →
          chunk ∈ occupied (inFlight next)) : Invariant next := by
  have same : next.stream = state.stream := by rw [State.stream, file, State.stream]
  refine ⟨circulates, takes, ?_, ?_, ?_, ?_, ?_⟩
  · rw [stream, same]
    exact invariant.stream
  · rw [file, same]
    exact invariant.size
  · intro isFinished ready
    rw [side]
    exact invariant.rotated (finished ▸ isFinished) (producer ▸ ready)
  · rw [jobs, same]
    exact invariant.short
  · intro seekPoint waiting
    obtain ⟨before, flight⟩ := waits seekPoint waiting
    rw [jobs, same]
    rcases invariant.waits seekPoint before with last | ⟨none, reachable, short, promised⟩
    · exact .inl last
    · exact .inr ⟨none, reachable, short,
        promised.congr (fun nothing => side.trans nothing) flight file finished⟩

/-- After a rotation the producer has only empty chunks. -/
theorem advance_rotated {Task : Type} {before after : CacheBuffer} {producer : Producer}
    {consumer : Consumer Task} (circulates : Circulates before producer consumer)
    (taken : producerStep before producer .advance = some (after, .ready)) :
    occupied (producerSide after .ready) = [] := by
  have vacant := circulates.vacant
  have effect := producer_step_effect taken
  have idle : producerHeld .ready = [] := rfl
  rw [producerSide, idle, List.nil_append]
  cases effect with
  | kept => simp [producerStep] at taken
  | missed empty same =>
    rw [same, empty]
    rfl
  | dropped empty same =>
    rw [same]
    exact take_vacant vacant
  | queued filled cache data =>
    rw [cache]
    exact take_vacant vacant

/-- A read at the seek point takes the first byte into a chunk with its tag, and a chunk
that has the tag keeps it. -/
theorem Promised.tryRead {state : State} {seekPoint : Int} (maxFileChunkSize : Nat)
    (promised : Promised state seekPoint) (ready : state.producer = .ready)
    (size : state.file.fileSize = state.stream.length)
    (short : seekPoint < state.stream.length) :
    Promised (tryReadStep state maxFileChunkSize) seekPoint := by
  rcases tryRead_cases state maxFileChunkSize with
    ⟨_, same⟩ | ⟨chunk, rest, front, file, finished, _, _, data, _, side⟩
  · rw [same]
    exact promised
  · have sideBefore : producerSide state.buffer state.producer = [chunk] := by
      rw [producerSide, ready, front]
      rfl
    obtain ⟨keeps, tags⟩ := InputPluginFile.fillChunk_first maxFileChunkSize state.file chunk
    cases promised with
    | unread nothing position live count unfinished =>
      have vacant : Vacant chunk := by
        by_contra filled
        rw [sideBefore, occupied_filled (by simpa using filled)] at nothing
        contradiction
      by_cases still : Vacant (InputPluginFile.fillChunk maxFileChunkSize state.file chunk).2.1
      · have before : state.file.file.position < state.file.file.content.length := by
          rw [State.stream] at short
          omega
        obtain ⟨sameFile, ended⟩ := InputPluginFile.fillChunk_nothing before still
        have goesOn : state.file.currentReadSoFar ≠ state.file.fileSize := by omega
        rw [sameFile] at file
        refine .unread ?_ (by rw [file]; exact position) (by rw [file]; exact live)
          (by rw [file]; exact count) ?_
        · rw [side]
          exact occupied_vacant (by simpa using still)
        · rw [finished, ended, live]
          simpa using goesOn
      · refine .queued _ (mem_occupied.mpr ⟨?_, still⟩) ((tags vacant still).trans position)
        rw [inFlight, side]
        exact List.mem_append_right _ (List.mem_singleton_self _)
    | queued other member tagged =>
      obtain ⟨member, filled⟩ := mem_occupied.mp member
      rw [inFlight, sideBefore] at member
      rcases List.mem_append.mp member with earlier | last
      · refine .queued other (mem_occupied.mpr ⟨?_, filled⟩) tagged
        rw [inFlight, data]
        exact List.mem_append_left _ earlier
      · obtain rfl := List.mem_singleton.mp last
        obtain ⟨bytes, items, _⟩ := InputPluginFile.fillChunk_bytes maxFileChunkSize state.file other
        refine .queued _ (mem_occupied.mpr ⟨?_, ?_⟩) ((keeps filled).trans tagged)
        · rw [inFlight, side]
          exact List.mem_append_right _ (List.mem_singleton_self _)
        · intro vacant
          exact filled (List.append_eq_nil_iff.mp (items.symm.trans vacant)).1

/-- A read keeps the invariant. -/
theorem tryRead_keeps {state : State} (maxFileChunkSize : Nat) (invariant : Invariant state)
    (ready : state.producer = .ready) (unfinished : state.finished = false) :
    Invariant (tryReadStep state maxFileChunkSize) := by
  let next := tryReadStep state maxFileChunkSize
  obtain ⟨circulates, takes, stream, size, rotated, short, waits⟩ := invariant
  have same : next.consumer = state.consumer ∧ next.jobs = state.jobs ∧
      next.details.streamLength = state.details.streamLength ∧
      next.file.fileSize = state.file.fileSize := by
    simp only [next, tryReadStep]
    cases found : InputPluginFile.tryReadFill maxFileChunkSize state.file state.buffer with
    | none => exact ⟨rfl, rfl, rfl, rfl⟩
    | some result =>
      obtain ⟨file, filled, finished⟩ := result
      obtain ⟨_, _, _, filledBy, _⟩ := InputPluginFile.tryReadFill_some found
      simp only [Prod.mk.injEq] at filledBy
      obtain ⟨rfl, _⟩ := filledBy
      exact ⟨rfl, rfl, rfl, rfl⟩
  obtain ⟨sameConsumer, sameJobs, sameLength, sameSize⟩ := same
  obtain ⟨circulating, _, sameStream, _⟩ := tryRead_effect circulates ready
  refine ⟨circulating, sameConsumer ▸ takes, ?_, ?_, ?_, ?_, ?_⟩
  · rw [sameLength, sameStream]
    exact stream
  · rw [sameSize, sameStream]
    exact size
  · intro finished idle
    rcases tryRead_cases state maxFileChunkSize with
      ⟨_, kept⟩ | ⟨_, _, _, _, _, _, _, _, ⟨_, goesOn⟩ | rotating, _⟩
    · rw [kept, unfinished] at finished
      contradiction
    · rw [goesOn] at finished
      contradiction
    · rw [rotating] at idle
      contradiction
  · rw [sameJobs, sameStream]
    exact short
  · intro seekPoint waiting
    rw [sameConsumer] at waiting
    rw [sameJobs, sameStream]
    rcases waits seekPoint waiting with last | ⟨none, reachable, before, promised⟩
    · exact .inl last
    · exact .inr ⟨none, reachable, before, promised.tryRead maxFileChunkSize ready size before⟩

/-- A rotation of the input thread keeps the chunks with bytes. -/
theorem inputAdvance_keeps {state : State} {after : CacheBuffer} {producer : Producer}
    (invariant : Invariant state)
    (taken : producerStep state.buffer state.producer .advance = some (after, producer)) :
    Invariant { state.setBuffer after with producer := producer } := by
  obtain ⟨circulates, takes, stream, size, rotated, short, waits⟩ := invariant
  obtain ⟨circulating, more, data, filled, side⟩ := circulates.producer_moves taken
  refine ⟨circulating, takes, stream, size, ?_, short, ?_⟩
  · rintro _ rfl
    exact advance_rotated circulates taken
  · intro seekPoint waiting
    rcases waits seekPoint waiting with last | ⟨none, reachable, before, promised⟩
    · exact .inl last
    · refine .inr ⟨none, reachable, before, promised.congr ?_ ?_ rfl rfl⟩
      · intro nothing
        rw [nothing, occupied_append] at side
        exact (List.append_eq_nil_iff.mp side).2
      · intro chunk member _
        rw [inFlight, occupied_append] at member ⊢
        change chunk ∈ occupied after.dataBuffer.items ++ occupied (producerSide after producer)
        rw [data, occupied_append, List.append_assoc, ← occupied_append more, side]
        exact member

/-- The last job puts the file at the point the decoder waits for. -/
theorem seekJob_keeps {state next : State} {seekPoint : Int} {rest : List Int}
    (invariant : Invariant state) (ready : state.producer = .ready)
    (jobs : state.jobs = seekPoint :: rest)
    (taken : seekJobStep state seekPoint rest = some next) : Invariant next := by
  obtain ⟨circulates, takes, stream, size, rotated, short, waits⟩ := invariant
  rw [ready] at circulates
  simp only [seekJobStep, Option.map_eq_some_iff] at taken
  obtain ⟨⟨after, producer⟩, cleared, rfl⟩ := taken
  obtain ⟨circulating, data, side⟩ := clearCache_effect circulates cleared
  have forward : 0 ≤ seekPoint := (short seekPoint (by simp [jobs])).1
  have moved : state.file.file.clear.seekg seekPoint =
      { state.file.file with position := seekPoint.toNat, failed := false } := by
    have reachable : ¬ seekPoint < 0 := by omega
    simp [Ifstream.seekg, Ifstream.clear, reachable]
  have sameStream : (state.file.file.clear.seekg seekPoint).content = state.file.file.content := by
    rw [moved]
  refine ⟨circulating, takes, ?_, ?_, ?_, ?_, ?_⟩
  · change state.details.streamLength = (state.file.file.clear.seekg seekPoint).content.length
    rw [sameStream]
    exact stream
  · change state.file.fileSize = (state.file.file.clear.seekg seekPoint).content.length
    rw [sameStream]
    exact size
  · intro finished
    contradiction
  · intro other member
    change 0 ≤ other ∧ other < (state.file.file.clear.seekg seekPoint).content.length
    rw [sameStream]
    exact short other (by rw [jobs]; exact List.mem_cons_of_mem _ member)
  · intro waited waiting
    rcases waits waited waiting with last | ⟨none, _⟩
    · rw [jobs] at last
      cases rest with
      | nil =>
        obtain rfl : seekPoint = waited := by simpa using last
        have before := (short seekPoint (by simp [jobs])).2
        have file : (InputPluginFile.seekHelper state.file seekPoint).file =
            { state.file.file with position := seekPoint.toNat, failed := false } := moved
        refine .inr ⟨rfl, forward, ?_, .unread side ?_ ?_ rfl rfl⟩
        · change seekPoint < (state.file.file.clear.seekg seekPoint).content.length
          rw [sameStream]
          exact before
        · change ((InputPluginFile.seekHelper state.file seekPoint).file.position : Int) = seekPoint
          rw [file]
          exact Int.toNat_of_nonneg forward
        · change (InputPluginFile.seekHelper state.file seekPoint).file.failed = false
          rw [file]
      | cons second others => exact .inl last
    · rw [jobs] at none
      contradiction

/-- A seek that waits has posted its job, whose point is before the end of the file. -/
theorem seekStep_keeps {state : State} {seekPoint : Int} (invariant : Invariant state)
    (idle : state.consumer = .ready .idle)
    (condition : ShortOfEnd state (.updateDecDetailSeek seekPoint)) :
    Invariant (seekStep state seekPoint) := by
  have unchanged := invariant
  obtain ⟨circulates, takes, stream, size, rotated, short, waits⟩ := invariant
  rw [idle] at circulates
  simp only [seekStep]
  split
  · exact unchanged
  · rename_i accepted
    cases reinserted : DecoderPluginsManager.reinsert state.details state.lastReadBuffer
        seekPoint with
    | none => exact unchanged
    | some moved =>
      obtain ⟨circulating, side, length⟩ := reinsert_circulates circulates reinserted
      have moves : state.finished = true → state.producer = .ready →
          occupied (producerSide moved.currentCacheBuf state.producer) = [] :=
        fun finished ready => side.trans (rotated finished ready)
      simp only
      split
      · refine ⟨circulating.takes_up _, by simp [taskOf], length.trans stream, size, moves, short,
          by simp [taskOf]⟩
      · rename_i unserved
        have called : DecoderPluginsManager.updateDecDetailSeek state.details state.lastReadBuffer
            seekPoint = some (.callback moved) := by
          simp only [DecoderPluginsManager.updateDecDetailSeek, if_neg accepted, reinserted,
            if_neg unserved]
        simp only [ShortOfEnd, called] at condition
        refine ⟨circulating.takes_up _, by simp [taskOf], length.trans stream, size, moves, ?_, ?_⟩
        · intro other member
          rcases List.mem_append.mp member with earlier | posted
          · exact short other earlier
          · obtain rfl := List.mem_singleton.mp posted
            change 0 ≤ other ∧ other < (state.stream.length : Int)
            omega
        · intro waited waiting
          obtain rfl : seekPoint = waited := by simpa [taskOf] using waiting
          exact .inl List.getLast?_concat

/-- The wait gives an old chunk back empty; no chunk that it clears has its tag. -/
theorem oldChunk_keeps {state : State} {seekPoint : Int} {chunk : Chunk}
    {held after : CacheBuffer} {consumer : Consumer DecoderTask} (invariant : Invariant state)
    (waiting : state.consumer = .ready (.waitSeek seekPoint))
    (found : state.buffer.getDataPtr = some (chunk, held)) (other : chunk.first ≠ seekPoint)
    (moved : consumerPut (held.modifyData Chunk.clear) true (DecoderTask.waitSeek seekPoint) =
      (after, consumer)) :
    Invariant { state.setBuffer after with consumer := consumer } := by
  have circulates := invariant.circulates
  rw [waiting] at circulates
  obtain ⟨⟨rest, front⟩, _, _⟩ := CacheBuffer.getDataPtr_some found
  obtain ⟨circulating, task, cleared, sameCache⟩ :=
    circulates.put_data Chunk.clear found (fun _ => rfl) moved
  have items := BoundedQueue.modifyFront_cons front Chunk.clear
  rw [← cleared] at items
  have side := producerSide_congr state.producer sameCache
  apply invariant.of_decoder
  · exact circulating
  · intro clears
    have same : taskOf consumer = .taking .clear := clears
    simp [task] at same
  · rfl
  · rfl
  · rfl
  · rfl
  · rfl
  · exact congrArg occupied side
  · intro waited stillWaiting
    have same : taskOf consumer = .waitSeek waited := stillWaiting
    obtain rfl : seekPoint = waited := by simpa [task] using same
    refine ⟨by rw [waiting]; rfl, ?_⟩
    intro tagged member tag
    obtain ⟨member, filled⟩ := mem_occupied.mp member
    refine mem_occupied.mpr ⟨?_, filled⟩
    change tagged ∈ after.dataBuffer.items ++ producerSide after state.producer
    rw [items, side]
    rw [inFlight, front] at member
    rcases List.mem_cons.mp member with rfl | later
    · exact absurd tag other
    · exact List.mem_cons_of_mem _ later

/-- A pass of a task that copies or discards bytes starts no wait. -/
theorem taking_keeps {state next : State} {task : Task} (invariant : Invariant state)
    (taking : state.consumer = .ready (.taking task))
    (taken : decoderStep state (.taking task) = some next) : Invariant next := by
  have circulates := invariant.circulates
  have takes := invariant.takes
  simp only [decoderStep, Option.map_eq_some_iff] at taken
  obtain ⟨⟨bytes, after, consumer⟩, passed, rfl⟩ := taken
  rw [taking] at circulates takes
  have notClear : task ≠ .clear := fun clears => takes (by rw [clears]; rfl)
  obtain ⟨circulating, _, goesOn⟩ := (circulates.takes_up task).takes notClear passed
  have sameCache : after.cacheBuffer = state.buffer.cacheBuffer := by
    cases task_step_effect passed with
    | handled _ _ cache => exact cache
  have named : taskOf (consumer.map ofTask) = ofTask (taskOf consumer) := by
    cases consumer <;> rfl
  have copiedSame : (copied state bytes task).producer = state.producer ∧
      (copied state bytes task).jobs = state.jobs ∧ (copied state bytes task).file = state.file ∧
      (copied state bytes task).finished = state.finished ∧
      (copied state bytes task).details.streamLength = state.details.streamLength := by
    cases task <;> exact ⟨rfl, rfl, rfl, rfl, rfl⟩
  obtain ⟨producer, jobs, file, finished, length⟩ := copiedSame
  apply invariant.of_decoder
  · change Circulates after (copied state bytes task).producer (consumer.map ofTask)
    rw [producer]
    exact circulating.map ofTask
  · change taskOf (consumer.map ofTask) ≠ _
    rw [named]
    cases following : taskOf consumer <;> simp_all [ofTask]
  · exact length
  · exact file
  · exact finished
  · exact producer
  · exact jobs
  · change occupied (producerSide after (copied state bytes task).producer) = _
    rw [producer, producerSide_congr state.producer sameCache]
  · intro seekPoint waiting
    change taskOf (consumer.map ofTask) = _ at waiting
    rw [named] at waiting
    cases following : taskOf consumer <;> simp [following, ofTask] at waiting

/-- A rotation of the decoder moves an empty chunk. -/
theorem rotation_keeps {state : State} {after : CacheBuffer} {consumer : Consumer DecoderTask}
    (invariant : Invariant state)
    (rotated : consumerRotate state.buffer state.consumer = some (after, consumer)) :
    Invariant { state.setBuffer after with consumer := consumer } := by
  obtain ⟨circulating, ⟨gone, items, _, vacant⟩, side⟩ :=
    invariant.circulates.consumer_moves rotated
  have task := rotates_task rotated
  apply invariant.of_decoder
  · exact circulating
  · exact fun clears => invariant.takes (task.symm.trans clears)
  · rfl
  · rfl
  · rfl
  · rfl
  · rfl
  · exact side
  · intro seekPoint waiting
    refine ⟨task.symm.trans waiting, ?_⟩
    intro chunk member _
    change chunk ∈ occupied (after.dataBuffer.items ++ producerSide after state.producer)
    rw [inFlight, items, List.append_assoc, occupied_append, occupied_vacant vacant,
      List.nil_append, occupied_append] at member
    rw [occupied_append, side]
    exact member

/-- Between operations the decoder may take up any task that waits for no seek. -/
theorem head_keeps {state following : State} {task other : DecoderTask}
    (invariant : Invariant state) (before : state.consumer = .ready task)
    (notWaiting : ∀ seekPoint, other ≠ .waitSeek seekPoint) (notClear : other ≠ .taking .clear)
    (consumer : following.consumer = .ready other) (buffer : following.buffer = state.buffer)
    (length : following.details.streamLength = state.details.streamLength)
    (producer : following.producer = state.producer) (jobs : following.jobs = state.jobs)
    (file : following.file = state.file) (finished : following.finished = state.finished) :
    Invariant following := by
  have circulates := invariant.circulates
  rw [before] at circulates
  apply invariant.of_decoder
  · rw [buffer, producer, consumer]
    exact circulates.takes_up other
  · rw [consumer]
    exact notClear
  · exact length
  · exact file
  · exact finished
  · exact producer
  · exact jobs
  · rw [buffer, producer]
  · intro seekPoint waiting
    rw [consumer] at waiting
    exact absurd waiting (notWaiting seekPoint)

/-- A pass of the wait for the seek: an old chunk is thrown away, another ends the wait. -/
theorem waitSeek_keeps {state next : State} {seekPoint : Int} (invariant : Invariant state)
    (waiting : state.consumer = .ready (.waitSeek seekPoint))
    (taken : decoderStep state (.waitSeek seekPoint) = some next) : Invariant next := by
  cases found : state.buffer.getDataPtr with
  | none => simp [decoderStep, found] at taken
  | some result =>
    obtain ⟨chunk, held⟩ := result
    simp only [decoderStep, found] at taken
    split at taken
    · rename_i other
      obtain rfl := Option.some.inj taken
      exact oldChunk_keeps invariant waiting found other rfl
    · obtain rfl := Option.some.inj taken
      have circulates := invariant.circulates
      rw [waiting] at circulates
      obtain ⟨_, cache, data⟩ := CacheBuffer.getDataPtr_some found
      apply invariant.of_decoder
      · exact circulates.change_data (fun chunk => chunk) cache
          (data.trans (modifyFront_id _).symm) rfl trivial
      · simp [taskOf]
      · rfl
      · rfl
      · rfl
      · rfl
      · rfl
      · exact congrArg occupied (producerSide_congr state.producer cache)
      · intro seekPoint waits
        simp [taskOf] at waits

/-- Every step keeps the invariant when the seeks that wait go to points before the end. -/
theorem step_keeps (state : State) (action : Action) (next : State) (invariant : Invariant state)
    (condition : ShortOfEnd state action) (taken : step state action = some next) :
    Invariant next := by
  cases action with
  | tryRead maxFileChunkSize =>
    simp only [step] at taken
    split at taken
    · rename_i enabled
      obtain rfl := Option.some.inj taken
      exact tryRead_keeps maxFileChunkSize invariant enabled.1 enabled.2
    · contradiction
  | seekJob =>
    simp only [step] at taken
    split at taken
    · rename_i seekPoint rest ready jobs
      exact seekJob_keeps invariant ready jobs taken
    · contradiction
  | inputAdvance =>
    simp only [step, Option.map_eq_some_iff] at taken
    obtain ⟨⟨after, producer⟩, moved, rfl⟩ := taken
    exact inputAdvance_keeps invariant moved
  | decoderReadBuffer bufSize =>
    simp only [step] at taken
    split at taken
    · rename_i idle
      obtain rfl := Option.some.inj taken
      obtain ⟨task, starts, notWaiting, notClear⟩ := readStep_task state bufSize
      exact head_keeps invariant idle notWaiting notClear starts rfl rfl rfl rfl rfl rfl
    · contradiction
  | giveUp =>
    simp only [step] at taken
    split at taken
    · rename_i waiting
      split at taken
      · obtain rfl := Option.some.inj taken
        exact head_keeps invariant waiting (by simp) (by simp) rfl rfl rfl rfl rfl rfl rfl
      · contradiction
    · contradiction
  | updateDecDetailSeek seekPoint =>
    simp only [step] at taken
    split at taken
    · rename_i idle
      obtain rfl := Option.some.inj taken
      exact seekStep_keeps invariant idle condition
    · contradiction
  | decoderAdvance =>
    simp only [step] at taken
    split at taken
    · rename_i task ready
      cases task with
      | idle => contradiction
      | waitInput maxBufSize totalBufData =>
        simp only [decoderStep] at taken
        split at taken
        · obtain rfl := Option.some.inj taken
          exact head_keeps invariant ready (by simp) (by simp) rfl rfl rfl rfl rfl rfl rfl
        · obtain rfl := Option.some.inj taken
          exact head_keeps invariant ready (by simp) (by simp) rfl rfl rfl rfl rfl rfl rfl
      | taking task => exact taking_keeps invariant ready taken
      | waitSeek seekPoint => exact waitSeek_keeps invariant ready taken
    · rw [Option.map_eq_some_iff] at taken
      obtain ⟨⟨after, consumer⟩, rotated, rfl⟩ := taken
      exact rotation_keeps invariant rotated
  | otherTrack bytes =>
    simp only [step] at taken
    split at taken
    · rename_i idle
      obtain rfl := Option.some.inj taken
      exact head_keeps invariant idle (by simp) (by simp) idle rfl rfl rfl rfl rfl rfl
    · contradiction

/-- When every seek that needs the input plugin goes to a point before the end of the
file, no run leaves the decoder waiting with nothing left to arrive. -/
theorem wait_not_stuck {start finish : State} {actions : List Action} (opened : Opened start)
    (condition : LabelledRuns.Meets step ShortOfEnd start actions)
    (ran : LabelledRuns.run step start actions = some finish) : ¬ Stuck finish := by
  obtain ⟨⟨circulates, _, consumer, jobs, _⟩, stream, size, rotated⟩ := opened
  have initial : Invariant start := by
    refine ⟨circulates, ?_, stream, size, fun finished _ => rotated finished, ?_, ?_⟩
    · simp [consumer, taskOf]
    · simp [jobs]
    · simp [consumer, taskOf]
  exact (LabelledRuns.run_preserves_under step_keeps initial condition ran).not_stuck

theorem opened_opened (bufferSize elemSize : Nat) (content : List UInt8) :
    Opened (opened bufferSize elemSize content) := by
  refine ⟨opened_rests bufferSize elemSize content, rfl, rfl, ?_⟩
  intro finished
  contradiction

/-- A seek to the last byte of the file waits, and its byte arrives. -/
def seekToLast : List Action :=
  [.updateDecDetailSeek 3, .seekJob, .tryRead 2, .inputAdvance, .inputAdvance]

theorem wait_not_stuck_last : ∃ finish,
    LabelledRuns.run step (opened 4 2 [0, 1, 2, 3]) seekToLast = some finish ∧
      finish.buffer.dataBytes = [3] ∧ ¬ Stuck finish := by
  refine ⟨_, rfl, rfl, ?_⟩
  exact wait_not_stuck (opened_opened 4 2 [0, 1, 2, 3])
    (by decide : LabelledRuns.Meets step ShortOfEnd _ seekToLast) rfl

/-- A seek to the end of a file of four bytes, before any of them is buffered. -/
def seekToEnd : List Action :=
  [.updateDecDetailSeek 4, .seekJob, .tryRead 2, .inputAdvance, .inputAdvance]

/-- The read at the end takes no byte, its empty chunk is dropped, and the file is
finished: the decoder waits for ever. -/
theorem wait_stuck_at_end : Opened (opened 4 2 [0, 1, 2, 3]) ∧
    ∃ finish, LabelledRuns.run step (opened 4 2 [0, 1, 2, 3]) seekToEnd = some finish ∧
      Stuck finish ∧ ∀ action, step finish action = none := by
  have stuck : ∀ finish, LabelledRuns.run step (opened 4 2 [0, 1, 2, 3]) seekToEnd = some finish →
      Stuck finish := by
    rintro finish ran
    obtain rfl := Option.some.inj ran
    exact ⟨⟨4, rfl⟩, rfl, rfl, rfl, rfl⟩
  exact ⟨opened_opened 4 2 [0, 1, 2, 3], _, rfl, stuck _ rfl, stuck_final (stuck _ rfl)⟩

end Mprt.SeekWait
