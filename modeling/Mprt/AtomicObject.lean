import Mathlib.Logic.Function.Basic
import Mprt.LabelledRuns

/-!
# An object whose operations take effect at one moment

Threads call the operations of a shared object. A call, the moment at which it takes
effect and its return are three steps, and other threads may take theirs in between.
The history keeps the calls and the returns in their order, which is what the threads
can observe.

An implementation does its operations in several steps. It is linearizable when each
of its histories is one of the object: whatever the threads observe could have been
observed of operations that took effect at one moment each. To show it, one relates the
states of both and answers each step of the implementation by steps of the object.
-/

namespace AtomicObject

open LabelledRuns

variable {Thread Object Call Result : Type}

/-- Where a thread is: between operations, in a call that has not taken effect, or in
one that has, with its result. -/
inductive Place (Call Result : Type) where
  | idle
  | called (call : Call)
  | answered (result : Result)
deriving DecidableEq

/-- What is observed of a thread. -/
inductive Event (Thread Call Result : Type) where
  | called (thread : Thread) (call : Call)
  | returned (thread : Thread) (result : Result)
deriving DecidableEq

/-- The object, the places of the threads and what has been observed. -/
structure State (Thread Object Call Result : Type) where
  object : Object
  place : Thread → Place Call Result
  history : List (Event Thread Call Result)

/-- A thread calls an operation, its call takes effect, or it returns. -/
inductive Action (Thread Call : Type) where
  | call (thread : Thread) (call : Call)
  | effect (thread : Thread)
  | answer (thread : Thread)

variable [DecidableEq Thread]

/-- One step. A call outside of the precondition of its operation has no effect to take. -/
def step (apply : Object → Call → Option (Result × Object))
    (state : State Thread Object Call Result) :
    Action Thread Call → Option (State Thread Object Call Result)
  | .call thread call =>
    match state.place thread with
    | .idle => some { state with
        place := Function.update state.place thread (.called call)
        history := state.history ++ [.called thread call] }
    | _ => none
  | .effect thread =>
    match state.place thread with
    | .called call => (apply state.object call).map (fun effect => { state with
        object := effect.2
        place := Function.update state.place thread (.answered effect.1) })
    | _ => none
  | .answer thread =>
    match state.place thread with
    | .answered result => some { state with
        place := Function.update state.place thread .idle
        history := state.history ++ [.returned thread result] }
    | _ => none

/-- All threads between operations, and nothing observed. -/
def start (object : Object) : State Thread Object Call Result :=
  ⟨object, fun _ => .idle, []⟩

/-- A history of the object. -/
def Observed (apply : Object → Call → Option (Result × Object)) (object : Object)
    (history : List (Event Thread Call Result)) : Prop :=
  ∃ actions finish, run (step apply) (start object) actions = some finish ∧
    finish.history = history

variable {apply : Object → Call → Option (Result × Object)}
  {state : State Thread Object Call Result} {thread : Thread}

/-- A thread between operations can call one. -/
theorem call_step (idle : state.place thread = .idle) (call : Call) :
    step apply state (.call thread call) = some { state with
      place := Function.update state.place thread (.called call)
      history := state.history ++ [.called thread call] } := by
  rw [step, idle]

/-- A call takes effect within its precondition. -/
theorem effect_step {call : Call} {result : Result} {object : Object}
    (called : state.place thread = .called call)
    (applied : apply state.object call = some (result, object)) :
    step apply state (.effect thread) = some { state with
      object := object
      place := Function.update state.place thread (.answered result) } := by
  rw [step, called]
  simp only [applied, Option.map_some]

/-- A call that has taken effect can return. -/
theorem answer_step {result : Result} (answered : state.place thread = .answered result) :
    step apply state (.answer thread) = some { state with
      place := Function.update state.place thread .idle
      history := state.history ++ [.returned thread result] } := by
  rw [step, answered]

/-! ## Implementations -/

section Implementations

variable {Concrete Label : Type} {concreteStep : Concrete → Label → Option Concrete}

/-- Each step of the implementation is answered by none or one of the object, which keeps
the two related. -/
def Answers (concreteStep : Concrete → Label → Option Concrete)
    (apply : Object → Call → Option (Result × Object))
    (related : Concrete → State Thread Object Call Result → Prop) : Prop :=
  ∀ before label after state, related before state → concreteStep before label = some after →
    related after state ∨ ∃ action next, step apply state action = some next ∧ related after next

/-- A run of the implementation is answered by a run of the object. The induction is on the
labels, from any related states on. -/
theorem Answers.run {related : Concrete → State Thread Object Call Result → Prop}
    (answers : Answers concreteStep apply related) {before after : Concrete} {labels : List Label}
    {state : State Thread Object Call Result} (relates : related before state)
    (ran : run concreteStep before labels = some after) :
    ∃ actions finish, LabelledRuns.run (step apply) state actions = some finish ∧
      related after finish := by
  induction labels generalizing before state with
  | nil =>
    obtain rfl := Option.some.inj ran
    exact ⟨[], state, rfl, relates⟩
  | cons label rest inductionHypothesis =>
    obtain ⟨next, taken, following⟩ := run_cons.mp ran
    rcases answers before label next state relates taken with still | ⟨action, moved, acted, still⟩
    · exact inductionHypothesis still following
    · obtain ⟨actions, finish, further, ends⟩ := inductionHypothesis still following
      exact ⟨action :: actions, finish, run_cons.mpr ⟨moved, acted, further⟩, ends⟩

/-- An implementation that is answered step by step, and shows the history of the object, is
linearizable. -/
theorem Answers.observed {related : Concrete → State Thread Object Call Result → Prop}
    {history : Concrete → List (Event Thread Call Result)}
    (answers : Answers concreteStep apply related)
    (shown : ∀ concrete state, related concrete state → state.history = history concrete)
    {before after : Concrete} {labels : List Label} {object : Object}
    (relates : related before (start object))
    (ran : LabelledRuns.run concreteStep before labels = some after) :
    Observed apply object (history after) := by
  obtain ⟨actions, finish, acted, ends⟩ := answers.run relates ran
  exact ⟨actions, finish, acted, shown after finish ends⟩

end Implementations

end AtomicObject
