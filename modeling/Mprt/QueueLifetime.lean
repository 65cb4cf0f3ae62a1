import Mathlib.Data.List.Count
import Mprt.QueueRefinement

/-!
# Progress and lifetimes in the queue between two threads

Neither thread waits for the other one. In every state that the two threads reach, a thread
inside an operation can make its next access, except in a removal from an empty ring, and
it returns after a few accesses of its own. A record is constructed only in raw memory, at a
place that the other thread does not work on.

All that was constructed is destroyed once, in the order of construction: by the reading
thread, or by the destructor, which leaves raw memory.
-/

namespace Mprt.ProducerConsumerQueue

variable {α : Type}

/-- The place that the reading thread works on. -/
def Consumer.place : Consumer α → Option Nat
  | .moving currentRead _ | .destroying _ currentRead _ => some currentRead
  | _ => none

/-- The accesses that the writing thread has before it in its call, with the return. -/
def Producer.left : Producer α → Nat
  | .idle => 0
  | .returning _ => 1
  | .storing _ _ | .asking _ _ => 2
  | .constructing _ _ _ => 3
  | .writing _ _ => 4

/-- The accesses that the reading thread has before it in its call, with the return. -/
def Consumer.left : Consumer α → Nat
  | .idle => 0
  | .returning _ => 1
  | .storing _ _ | .fronting _ | .asking _ _ => 2
  | .destroying _ _ _ => 3
  | .moving _ _ | .popping _ => 4
  | .reading _ => 5

def State.left (state : State α) : QueueEnd → Nat
  | .producer => state.producer.left
  | .consumer => state.consumer.left

def Action.calls (thread : QueueEnd) : Action α → Bool
  | .call other _ => other == thread
  | .advance _ => false

def Action.advances (thread : QueueEnd) : Action α → Bool
  | .call _ _ => false
  | .advance other => other == thread

/-! ## Progress -/

section Progress

variable {before after state : State α} {items : List α} {action : Action α}

/-- The construction finds raw memory, and the reading thread elsewhere. -/
theorem Held.constructs_raw (held : Held state items) {record : α} {currentWrite nextRecord : Nat}
    (place : state.producer = .constructing record currentWrite nextRecord) :
    state.queue.records[currentWrite]? = some .raw ∧ currentWrite ∉ state.consumer.place := by
  have there := held.producer
  have back := held.ring.back
  rw [place] at there back
  obtain ⟨rfl, _⟩ := there
  constructor
  · rw [back, List.getElem?_append_right (Nat.le_of_eq (frontSlots_length _ _)), frontSlots_length,
      Nat.sub_self]
    rfl
  · have apart : items ≠ [] → state.queue.readIndex ≠ state.queue.writeIndex := fun some meet =>
      some (List.length_eq_zero_iff.mp (held.ring.empty_iff.mp meet))
    have there := held.consumer
    cases placed : state.consumer <;> rw [placed] at there <;>
      simp only [Consumer.place, Option.mem_def, reduceCtorEq, not_false_eq_true, Option.some.injEq]
    · rw [there.1]
      exact apart there.2.2
    · obtain ⟨rfl, _, first, rest, elements, _⟩ := there
      exact apart (by rw [elements]; exact List.cons_ne_nil _ _)

/-- The writing thread can go on. -/
theorem producer_goes_on (inside : state.producer ≠ .idle) :
    ∃ next, step state (.advance .producer) = some next := by
  cases placed : state.producer with
  | idle => exact absurd placed inside
  | writing record currentWrite =>
    simp only [step, placed, producerStep]
    split <;> exact ⟨_, rfl⟩
  | _ =>
    simp only [step, placed, producerStep]
    exact ⟨_, rfl⟩

/-- The reading thread can go on, except in a removal from an empty ring. -/
theorem Held.consumer_goes_on (held : Held state items) (inside : state.consumer ≠ .idle)
    (filled : state.consumer = .popping state.queue.readIndex → items ≠ []) :
    ∃ next, step state (.advance .consumer) = some next := by
  have there := held.consumer
  have elements : state.queue.readIndex ≠ state.queue.writeIndex →
      ∃ first rest, items = first :: rest := fun apart =>
    List.exists_cons_of_ne_nil (fun none => apart (held.ring.empty_iff.mpr (by rw [none]; rfl)))
  cases placed : state.consumer with
  | idle => exact absurd placed inside
  | reading currentRead =>
    simp only [step, placed, consumerStep]
    split <;> exact ⟨_, rfl⟩
  | fronting currentRead =>
    rw [placed] at there
    obtain rfl : currentRead = state.queue.readIndex := there
    simp only [step, placed, consumerStep]
    split
    · exact ⟨_, rfl⟩
    · rename_i apart
      obtain ⟨first, rest, rfl⟩ := elements apart
      rw [held.first rfl (by rw [placed]; rfl)]
      exact ⟨_, rfl⟩
  | popping currentRead =>
    rw [placed] at there
    obtain rfl : currentRead = state.queue.readIndex := there
    have apart : state.queue.readIndex ≠ state.queue.writeIndex := fun meet =>
      filled placed (List.length_eq_zero_iff.mp (held.ring.empty_iff.mp meet))
    simp only [step, placed, consumerStep, if_pos apart]
    exact ⟨_, rfl⟩
  | moving currentRead nextRecord =>
    rw [placed] at there
    obtain ⟨rfl, _, some⟩ := there
    obtain ⟨first, rest, rfl⟩ := List.exists_cons_of_ne_nil some
    simp only [step, placed, consumerStep, held.first rfl (by rw [placed]; rfl)]
    exact ⟨_, rfl⟩
  | destroying moved currentRead nextRecord =>
    obtain ⟨rfl, ⟨slot, present, there⟩, _⟩ := held.destroyed placed
    simp only [step, placed, consumerStep, present]
    cases slot with
    | raw => exact absurd rfl there
    | _ => exact ⟨_, rfl⟩
  | _ =>
    simp only [step, placed, consumerStep]
    exact ⟨_, rfl⟩

/-- An access of the writing thread leaves fewer. -/
theorem producerStep_left {queue : ProducerConsumerQueue α} {producer : Producer α}
    {moved : ProducerConsumerQueue α × Producer α}
    (taken : queue.producerStep producer = some moved) :
    moved.2.left < producer.left ∧ moved.1.size = queue.size := by
  cases producer with
  | idle | returning => cases taken
  | writing record currentWrite =>
    simp only [producerStep] at taken
    split at taken <;> obtain rfl := Option.some.inj taken <;> exact ⟨by simp [Producer.left], rfl⟩
  | _ =>
    obtain rfl := Option.some.inj taken
    exact ⟨by simp [Producer.left], rfl⟩

/-- An access of the reading thread leaves fewer. -/
theorem consumerStep_left {queue : ProducerConsumerQueue α} {consumer : Consumer α}
    {moved : ProducerConsumerQueue α × Consumer α}
    (taken : queue.consumerStep consumer = some moved) :
    moved.2.left < consumer.left ∧ moved.1.size = queue.size := by
  have one : ∀ {next : ProducerConsumerQueue α × Consumer α}, some next = some moved →
      next.2.left < consumer.left ∧ next.1.size = queue.size →
        moved.2.left < consumer.left ∧ moved.1.size = queue.size := by
    rintro next ⟨⟩ less
    exact less
  cases consumer with
  | idle | returning => cases taken
  | storing | asking => exact one taken ⟨by simp [Consumer.left], rfl⟩
  | reading =>
    simp only [consumerStep] at taken
    split at taken <;> exact one taken ⟨by simp [Consumer.left], rfl⟩
  | popping =>
    simp only [consumerStep] at taken
    split at taken
    · exact one taken ⟨by simp [Consumer.left], rfl⟩
    · cases taken
  | fronting =>
    simp only [consumerStep] at taken
    split at taken
    · exact one taken ⟨by simp [Consumer.left], rfl⟩
    · split at taken
      · exact one taken ⟨by simp [Consumer.left], rfl⟩
      · cases taken
  | moving =>
    simp only [consumerStep] at taken
    split at taken
    · exact one taken ⟨by simp [Consumer.left], rfl⟩
    · cases taken
  | destroying =>
    simp only [consumerStep] at taken
    split at taken
    · cases taken
    · cases taken
    · exact one taken ⟨by simp [Consumer.left], rfl⟩

/-- The accesses of the longest operation of a thread. -/
def longest : QueueEnd → Nat
  | .producer => 4
  | .consumer => 5

theorem Producer.left_le (producer : Producer α) : producer.left ≤ longest .producer := by
  cases producer <;> simp [Producer.left, longest]

theorem Consumer.left_le (consumer : Consumer α) : consumer.left ≤ longest .consumer := by
  cases consumer <;> simp [Consumer.left, longest]

theorem State.left_le (state : State α) (thread : QueueEnd) :
    state.left thread ≤ longest thread := by
  cases thread with
  | producer => exact state.producer.left_le
  | consumer => exact state.consumer.left_le

/-- A call begins with a few accesses before it. The other thread has as many before it as it had. -/
theorem call_left {caller : QueueEnd} {call : QueueCall α}
    (taken : step before (.call caller call) = some after) :
    after.queue.size = before.queue.size ∧ after.left caller ≤ longest caller ∧
      ∀ thread, caller ≠ thread → after.left thread = before.left thread := by
  cases caller with
  | producer =>
    simp only [step] at taken
    split at taken
    · obtain ⟨producer, _, rfl⟩ := Option.map_eq_some_iff.mp taken
      refine ⟨rfl, producer.left_le, fun thread other => ?_⟩
      cases thread with
      | producer => exact absurd rfl other
      | consumer => rfl
    · cases taken
  | consumer =>
    simp only [step] at taken
    split at taken
    · obtain ⟨consumer, _, rfl⟩ := Option.map_eq_some_iff.mp taken
      refine ⟨rfl, consumer.left_le, fun thread other => ?_⟩
      cases thread with
      | producer => rfl
      | consumer => exact absurd rfl other
    · cases taken

/-- Each access of a thread leaves fewer before it, the return included. -/
theorem advance_left {mover : QueueEnd} (taken : step before (.advance mover) = some after) :
    after.queue.size = before.queue.size ∧ after.left mover < before.left mover ∧
      ∀ thread, mover ≠ thread → after.left thread = before.left thread := by
  cases mover with
  | producer =>
    have others (kept : after.consumer = before.consumer) (thread : QueueEnd)
        (other : .producer ≠ thread) : after.left thread = before.left thread := by
      cases thread with
      | producer => exact absurd rfl other
      | consumer => exact congrArg Consumer.left kept
    simp only [step] at taken
    split at taken
    · rename_i placed
      obtain rfl := Option.some.inj taken
      exact ⟨rfl, by simp only [State.left, placed]; exact Nat.zero_lt_one, others rfl⟩
    · obtain ⟨moved, made, rfl⟩ := Option.map_eq_some_iff.mp taken
      exact ⟨(producerStep_left made).2, (producerStep_left made).1, others rfl⟩
  | consumer =>
    have others (kept : after.producer = before.producer) (thread : QueueEnd)
        (other : .consumer ≠ thread) : after.left thread = before.left thread := by
      cases thread with
      | producer => exact congrArg Producer.left kept
      | consumer => exact absurd rfl other
    simp only [step] at taken
    split at taken
    · rename_i placed
      obtain rfl := Option.some.inj taken
      exact ⟨rfl, by simp only [State.left, placed]; exact Nat.zero_lt_one, others rfl⟩
    · obtain ⟨moved, made, rfl⟩ := Option.map_eq_some_iff.mp taken
      exact ⟨(consumerStep_left made).2, (consumerStep_left made).1, others rfl⟩

/-- Over one step the accesses that a thread makes and has before it are at most those it had and
those of a call that it begins. -/
theorem step_left (taken : step before action = some after) :
    after.queue.size = before.queue.size ∧ ∀ thread,
      (action.advances thread).toNat + after.left thread ≤
        longest thread * (action.calls thread).toNat + before.left thread := by
  cases action with
  | call caller call =>
    obtain ⟨size, few, others⟩ := call_left taken
    refine ⟨size, fun thread => ?_⟩
    by_cases own : caller = thread
    · subst own
      simp only [Action.advances, Action.calls, beq_self_eq_true, Bool.toNat_true,
        Bool.toNat_false]
      omega
    · simp [Action.advances, Action.calls, others thread own]
  | advance mover =>
    obtain ⟨size, fewer, others⟩ := advance_left taken
    refine ⟨size, fun thread => ?_⟩
    by_cases own : mover = thread
    · subst own
      simp only [Action.advances, Action.calls, beq_self_eq_true, Bool.toNat_true,
        Bool.toNat_false]
      omega
    · have apart : (mover == thread) = false := beq_eq_false_iff_ne.mpr own
      simp [Action.advances, Action.calls, others thread own, apart]

/-- The accesses of a thread over a run are counted by its calls. -/
theorem run_left {actions : List (Action α)}
    (ran : LabelledRuns.run step before actions = some after) :
    after.queue.size = before.queue.size ∧ ∀ thread,
      actions.countP (Action.advances thread) + after.left thread ≤
        longest thread * actions.countP (Action.calls thread) + before.left thread := by
  induction actions generalizing before with
  | nil =>
    obtain rfl := Option.some.inj ran
    exact ⟨rfl, fun thread => by simp⟩
  | cons action rest inductionHypothesis =>
    obtain ⟨next, taken, following⟩ := LabelledRuns.run_cons.mp ran
    obtain ⟨size, first⟩ := step_left taken
    obtain ⟨sizes, further⟩ := inductionHypothesis following
    refine ⟨sizes.trans size, fun thread => ?_⟩
    have now := first thread
    have later := further thread
    have counted : ∀ test : Action α → Bool,
        (action :: rest).countP test = rest.countP test + (test action).toNat := by
      intro test
      rw [List.countP_cons]
      cases test action <;> rfl
    rw [counted, counted, Nat.mul_add]
    omega

/-- What the two threads have reached from a new ring. -/
theorem reached_held {size : Nat} (two : 2 ≤ size) (fits : size ≤ 2 ^ 31)
    {actions : List (Action α)} (ran : LabelledRuns.run step (start size) actions = some after) :
    ∃ items, Held after items := by
  obtain ⟨_, finish, _, related⟩ := answers.run (start_related two fits) ran
  exact ⟨finish.object.items, related.held⟩

/-- While a thread calls nothing further, it makes no more accesses than its call has before
it, whatever the other thread does. -/
theorem run_within_call {actions : List (Action α)} {thread : QueueEnd}
    (ran : LabelledRuns.run step before actions = some after)
    (noCall : ∀ action ∈ actions, action.calls thread = false) :
    actions.countP (Action.advances thread) + after.left thread ≤ before.left thread := by
  have none : actions.countP (Action.calls thread) = 0 := by
    rw [List.countP_eq_zero]
    intro action member
    rw [noCall action member]
    exact Bool.false_ne_true
  have counted := (run_left ran).2 thread
  rwa [none, Nat.mul_zero, Nat.zero_add] at counted

/-- Whatever the other thread does, a thread can make its next access, except in a removal from
an empty ring. From any reached state, a thread that calls nothing further makes no more
accesses than its call has before it, the return among them: at most four of the writing thread
and five of the reading one. The record of a write is constructed in raw memory that the reading
thread does not work on. -/
theorem wait_free {size : Nat} (two : 2 ≤ size) (fits : size ≤ 2 ^ 31) {actions : List (Action α)}
    (ran : LabelledRuns.run step (start size) actions = some after) :
    (after.producer ≠ .idle → ∃ next, step after (.advance .producer) = some next) ∧
      (after.consumer ≠ .idle →
        (∀ currentRead, after.consumer = .popping currentRead →
          currentRead ≠ after.queue.writeIndex) →
        ∃ next, step after (.advance .consumer) = some next) ∧
      (∀ record currentWrite nextRecord,
        after.producer = .constructing record currentWrite nextRecord →
        after.queue.records[currentWrite]? = some .raw ∧ currentWrite ∉ after.consumer.place) ∧
      ∀ (thread : QueueEnd) (further : List (Action α)) (finish : State α),
        LabelledRuns.run step after further = some finish →
        (∀ action ∈ further, action.calls thread = false) →
        further.countP (Action.advances thread) + finish.left thread ≤ after.left thread ∧
          after.left thread ≤ longest thread := by
  obtain ⟨items, held⟩ := reached_held two fits ran
  refine ⟨producer_goes_on, fun inside filled => held.consumer_goes_on inside ?_,
    fun record currentWrite nextRecord place => held.constructs_raw place,
    fun thread further finish going noCall => ⟨run_within_call going noCall, after.left_le thread⟩⟩
  intro popping none
  exact filled _ popping (held.ring.empty_iff.mpr (by rw [none]; rfl))

/-- Both threads are inside an operation. -/
theorem wait_free_overlapping :
    ∃ next, step (⟨⟨2, [.live 7, .raw], 0, 1⟩, .returning (.flag true), .moving 0 1,
      [.called .producer (.write 7), .called .consumer .read], [7], []⟩ : State Nat)
        (.advance .consumer) = some next :=
  (wait_free (by decide) (by decide) (show LabelledRuns.run step (start 2 : State Nat)
    [.call .producer (.write 7), .advance .producer, .advance .producer, .advance .producer,
      .call .consumer .read, .advance .consumer] = some _ from rfl)).2.1 (by decide) (by simp)

end Progress

/-! ## The destructor -/

section Destructor

variable {items : List α}

/-- The loop destroys the elements in order. The induction is on them, and the ring is seen from
the position that the loop has reached. -/
theorem destructLoop_ring {queue : ProducerConsumerQueue α} {passes readIndex vacant : Nat}
    {records : List (Slot α)}
    (ring : Ring { queue with readIndex := readIndex, records := records } items.length
      (items.map .live ++ List.replicate vacant .raw)) (enough : items.length ≤ passes) :
    queue.destructLoop queue.writeIndex passes readIndex records =
      some (items, List.replicate queue.size .raw) := by
  induction items generalizing passes readIndex records vacant with
  | nil =>
    have met : readIndex = queue.writeIndex := ring.empty_iff.mpr rfl
    have clear : records = List.replicate queue.size .raw := by
      have seen : records.rotate readIndex = List.replicate vacant .raw := ring.seen
      have length : records.length = queue.size := ring.length
      have all : vacant = queue.size := by
        rw [← length, ← List.length_rotate records readIndex, seen, List.length_replicate]
      rw [all, ← List.rotate_replicate Slot.raw queue.size readIndex] at seen
      exact List.rotate_eq_rotate.mp seen
    unfold destructLoop
    rw [if_pos met, clear]
  | cons first rest inductionHypothesis =>
    have apart : readIndex ≠ queue.writeIndex := fun meet =>
      Nat.succ_ne_zero _ (ring.empty_iff.mp meet)
    have present : records[readIndex]? = some (.live first) := ring.front
    obtain ⟨fewer, rfl⟩ : ∃ fewer, passes = fewer + 1 :=
      Nat.exists_eq_succ_of_ne_zero (by rw [List.length_cons] at enough; omega)
    have freed : Ring { queue with
        readIndex := queue.nextRecord readIndex
        records := records.set readIndex .raw } rest.length
        (rest.map .live ++ List.replicate (vacant + 1) .raw) := by
      have moved : Ring _ rest.length
          ((rest.map .live ++ List.replicate vacant .raw) ++ [.raw]) :=
        Ring.freed (ring.setFront .raw)
      rw [List.append_assoc, ← List.replicate_succ'] at moved
      exact moved
    have further := inductionHypothesis freed (Nat.le_of_succ_le_succ enough)
    unfold destructLoop
    rw [if_neg apart, present]
    simp only [further, Option.map_some]

/-- When both threads are between operations, the destructor destroys what the queue holds. What
was constructed has then been destroyed once, in the order of construction, and all is raw
memory. -/
theorem destructor_completes {size : Nat} (two : 2 ≤ size) (fits : size ≤ 2 ^ 31)
    {actions : List (Action α)} {after : State α}
    (ran : LabelledRuns.run step (start size) actions = some after)
    (producerIdle : after.producer = .idle) (consumerIdle : after.consumer = .idle)
    {passes : Nat} (enough : size ≤ passes) :
    ∃ remaining, after.queue.destruct passes = some (remaining, List.replicate size .raw) ∧
      after.constructed = after.destroyed ++ remaining := by
  obtain ⟨items, held⟩ := reached_held two fits ran
  have sizes : after.queue.size = size := (run_left ran).1
  have ring := held.ring
  have room := ring.room
  have ledger := held.ledger
  simp only [consumerIdle, producerIdle, frontSlots, backSlot, undestroyed, unstored,
    List.append_nil, ← List.replicate_succ] at ring ledger
  refine ⟨items, ?_, ledger⟩
  rw [destruct, destructLoop_ring ring (by omega), sizes]

/-- One record is read and one is left to the destructor. -/
theorem destructor_completes_three :
    ∃ remaining, destruct (⟨3, [.raw, .live 8, .raw], 1, 2⟩ : ProducerConsumerQueue Nat) 3 =
      some (remaining, List.replicate 3 .raw) ∧ [7, 8] = [7] ++ remaining :=
  destructor_completes (by decide) (by decide) (show LabelledRuns.run step (start 3)
    [.call .producer (.write 7), .advance .producer, .advance .producer, .advance .producer,
      .advance .producer, .call .consumer .read, .advance .consumer, .call .producer (.write 8),
      .advance .producer, .advance .consumer, .advance .producer, .advance .consumer,
      .advance .producer, .advance .consumer, .advance .producer, .advance .consumer] = some _
        from rfl) rfl rfl (Nat.le_refl 3)

end Destructor

end Mprt.ProducerConsumerQueue
