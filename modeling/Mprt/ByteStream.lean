import Mprt.Circulation

/-!
# The byte stream through a chunk buffer

A producer that appends, rotates and synchronises and a consumer that reads and
discards see one stream: what has been written is what has been taken, then the
bytes of the data queue, of the chunk in transit and of the chunk being filled.

Queue writes whose result is ignored lose nothing, because the chunks circulate.
A chunk that is dropped because it is empty takes no byte with it.
-/

namespace Mprt.ByteStream

open CacheBufferThreads
open Circulation
open CacheBuffer (queueBytes)

/-- The operations of a stream: nothing is cleared and nothing is put back. -/
def StreamAction : Action → Prop
  | .producer .clearCache => False
  | .producer _ => True
  | .consumer (.writeIntoRawBuffer _ removeData) => removeData = true
  | .consumer (.discardDataUpto _) => True
  | .consumer .advance => True
  | .consumer _ => False

instance (action : Action) : Decidable (StreamAction action) := by
  unfold StreamAction
  split <;> infer_instance

/-- The invariant of a stream. -/
structure Invariant (state : State) : Prop where
  circulates : Circulates state.buffer state.producer state.consumer
  takes : taskOf state.consumer ≠ .clear
  stream : state.written = state.taken ++ pending state.buffer state.producer

/-- Every producer step of a stream keeps the invariant. -/
theorem producer_preserves {state : State} {action : ProducerAction} {after : CacheBuffer}
    {next : Producer} (invariant : Invariant state) (operation : StreamAction (.producer action))
    (taken : producerStep state.buffer state.producer action = some (after, next)) :
    Invariant { state with
      buffer := after, producer := next, written := state.written ++ appended action } := by
  obtain ⟨before, producer, consumer, written, consumed⟩ := state
  obtain ⟨circulates, takes, stream⟩ := invariant
  simp only at circulates takes stream taken
  have rotates : action = .advance → Circulates after next consumer ∧
      pending after next = pending before producer := by
    rintro rfl
    exact circulates.producer_rotates taken
  cases producer_step_effect taken with
  | kept silent cache data =>
    have circulating : Circulates after .ready consumer :=
      circulates.change_front (fun chunk => chunk) (.inl rfl)
        (cache.trans (modifyFront_id _).symm) data
    refine ⟨circulating, takes, ?_⟩
    simpa [pending, CacheBuffer.dataBytes, CacheBuffer.frontBytes, cache, data, silent] using stream
  | @filled bytes chunk rest front fits cache data =>
    have filled : after.cacheBuffer.items = chunk.append bytes :: rest := by
      rw [cache, BoundedQueue.modifyFront_cons front]
    refine ⟨circulates.change_front _ (.inl rfl) cache data, takes, ?_⟩
    simp only [pending, CacheBuffer.frontBytes, front] at stream
    simp [pending, CacheBuffer.dataBytes, CacheBuffer.frontBytes, filled, data, Chunk.append,
      CircularBuffer.append_items fits, appended, stream, producerHeld]
  | cleared => contradiction
  | entered silent front cause cache data =>
    have circulating : Circulates after .rotating consumer :=
      circulates.change_front (fun chunk => chunk) (.inr rfl)
        (cache.trans (modifyFront_id _).symm) data
    refine ⟨circulating, takes, ?_⟩
    simpa [pending, CacheBuffer.dataBytes, CacheBuffer.frontBytes, cache, data, silent,
      producerHeld] using stream
  | missed | read | dropped | queued =>
    obtain ⟨circulating, same⟩ := rotates rfl
    refine ⟨circulating, takes, ?_⟩
    simpa only [same, appended, List.append_nil] using stream

/-- Every consumer step of a stream keeps the invariant. -/
theorem consumer_preserves {state : State} {action : ConsumerAction} {after : CacheBuffer}
    {next : Consumer Task} {bytes : List UInt8} (invariant : Invariant state)
    (operation : StreamAction (.consumer action))
    (taken : consumerStep state.buffer state.consumer action = some (bytes, after, next)) :
    Invariant { state with buffer := after, consumer := next, taken := state.taken ++ bytes } := by
  obtain ⟨before, producer, consumer, written, consumed⟩ := state
  obtain ⟨circulates, takes, stream⟩ := invariant
  simp only at circulates takes stream taken
  unfold consumerStep at taken
  split at taken
  · split at taken
    · obtain ⟨circulating, taken, goesOn⟩ := circulates.takes takes taken
      refine ⟨circulating, goesOn, ?_⟩
      rw [stream, taken, List.append_assoc]
    · rw [Option.map_eq_some_iff] at taken
      obtain ⟨moved, rotated, ended⟩ := taken
      obtain ⟨rfl, rfl⟩ := Prod.mk.inj ended
      obtain ⟨circulating, same⟩ := circulates.consumer_rotates rotated
      refine ⟨circulating, ?_, ?_⟩
      · rw [rotates_task rotated]
        exact takes
      · rw [same, List.append_nil]
        exact stream
  · split at taken
    · rename_i ready
      have begins : bytes = [] ∧ after = before ∧ ∃ task, task ≠ .clear ∧ next = .ready task := by
        cases action with
        | writeIntoRawBuffer size removeData | discardDataUpto seekPoint =>
          simp only [consumerBegin, Option.some.injEq, Prod.mk.injEq] at taken
          obtain ⟨rfl, rfl, rfl⟩ := taken
          exact ⟨rfl, rfl, _, (by simp), rfl⟩
        | advance => simp [consumerBegin] at taken
        | _ => exact absurd operation not_false
      obtain ⟨rfl, rfl, task, goesOn, rfl⟩ := begins
      subst ready
      refine ⟨circulates.change_data (fun chunk => chunk) rfl (modifyFront_id _).symm rfl trivial,
        goesOn, ?_⟩
      rw [List.append_nil]
      exact stream
    · contradiction

/-- Every step of a stream keeps the invariant. -/
theorem step_preserves (state : State) (action : Action) (next : State)
    (invariant : Invariant state) (operation : StreamAction action)
    (taken : step state action = some next) : Invariant next := by
  cases action with
  | producer action =>
    simp only [step, Option.map_eq_some_iff] at taken
    obtain ⟨⟨after, producer⟩, moved, rfl⟩ := taken
    exact producer_preserves invariant operation moved
  | consumer action =>
    simp only [step, Option.map_eq_some_iff] at taken
    obtain ⟨⟨bytes, after, consumer⟩, moved, rfl⟩ := taken
    exact consumer_preserves invariant operation moved

/-- A new buffer is an empty stream. -/
theorem start_invariant (bufferSize elemSize : Nat) (cacheLastSize dataLastSize : Int) :
    Invariant (start bufferSize elemSize cacheLastSize dataLastSize) := by
  obtain ⟨circulates, nothing⟩ :=
    make_circulates bufferSize elemSize cacheLastSize dataLastSize Task.idle
  refine ⟨circulates, by simp [start, taskOf], ?_⟩
  exact nothing.symm

/-- In every interleaving of a stream's two threads, every state has written
what has been taken followed by what is pending; between two operations of the
producer that is the data queue and the front cache chunk. -/
theorem byte_stream {bufferSize elemSize : Nat} {cacheLastSize dataLastSize : Int}
    {actions : List Action} {finish : State} (operations : ∀ action ∈ actions, StreamAction action)
    (ran : LabelledRuns.run step (start bufferSize elemSize cacheLastSize dataLastSize) actions =
      some finish) :
    finish.written = finish.taken ++ pending finish.buffer finish.producer ∧
      (finish.producer = .ready → finish.written =
        finish.taken ++ finish.buffer.dataBytes ++ finish.buffer.frontBytes) := by
  have initial := start_invariant bufferSize elemSize cacheLastSize dataLastSize
  have met : LabelledRuns.Meets step (fun _ action => StreamAction action)
      (start bufferSize elemSize cacheLastSize dataLastSize) actions :=
    LabelledRuns.meets_of_labels _ actions operations
  have invariant := LabelledRuns.run_preserves_under step_preserves initial met ran
  refine ⟨invariant.stream, ?_⟩
  intro ready
  have stream := invariant.stream
  simpa [pending, ready, producerHeld] using stream

/-- Two chunks are filled and rotated, the second while the first is being read. -/
def overlap : List Action :=
  [.producer .getCachePtr, .producer (.append [1, 2]), .producer (.putCachePtr false),
    .producer .advance, .producer .advance, .producer .getCachePtr, .producer (.append [3]),
    .consumer (.writeIntoRawBuffer 3 true), .consumer .advance, .consumer .advance,
    .producer (.putCachePtr true), .producer .advance, .consumer .advance, .producer .advance,
    .consumer .advance]

/-- After the overlapping run all three bytes have been taken in order. -/
theorem byte_stream_overlap :
    ∃ finish, LabelledRuns.run step (start 4 2 0 0) overlap = some finish ∧
      finish.taken = [1, 2, 3] ∧
      finish.written = finish.taken ++ pending finish.buffer finish.producer := by
  refine ⟨_, rfl, rfl, ?_⟩
  exact (@byte_stream 4 2 0 0 overlap _ (by decide) rfl).1

end Mprt.ByteStream
