import Mathlib.Data.List.Basic
import Mathlib.Order.Defs.PartialOrder

/-!
# Runs of a partial labelled step function

A system is a step function from a state and a label to the next state; a label
that is not enabled has no next state. A run executes labels in order. Two
predicates speak about every step of a run: `Meets` about the state before the
step and its label, `Along` about both states and the label between them.

Each induction over runs is done once here. A development supplies what one
step preserves and reads off what a whole run preserves. Statements over all
label lists cover every reached state, since each is the end of its own prefix.
-/

namespace LabelledRuns

universe u v
variable {State : Type u} {Label : Type v}

/-- Execute the labels in order. A label that is not enabled ends the attempt. -/
def run (step : State → Label → Option State) : State → List Label → Option State
  | state, [] => some state
  | state, label :: rest => (step state label).bind (fun next => run step next rest)

/-- Every step meets a condition on its label and the state before it. -/
def Meets (step : State → Label → Option State) (condition : State → Label → Prop) :
    State → List Label → Prop
  | _, [] => True
  | state, label :: rest =>
      condition state label ∧
        match step state label with
        | none => True
        | some next => Meets step condition next rest

/-- Every completed step relates its two states and its label. -/
def Along (step : State → Label → Option State) (relation : State → Label → State → Prop) :
    State → List Label → Prop
  | _, [] => True
  | state, label :: rest =>
      match step state label with
      | none => True
      | some next => relation state label next ∧ Along step relation next rest

/-- A run's steps can be tested one by one, from its first state on. -/
instance decidableMeets (step : State → Label → Option State)
    (condition : State → Label → Prop) [∀ state label, Decidable (condition state label)] :
    (state : State) → (labels : List Label) → Decidable (Meets step condition state labels)
  | _, [] => inferInstanceAs (Decidable True)
  | state, label :: rest =>
      match taken : step state label with
      | none => decidable_of_iff (condition state label) (by simp [Meets, taken])
      | some next =>
          have := decidableMeets step condition next rest
          decidable_of_iff (condition state label ∧ Meets step condition next rest)
            (by simp [Meets, taken])

variable {step : State → Label → Option State}

/-- A run with a first label is that step followed by the run of the rest. -/
theorem run_cons {state finish : State} {label : Label} {rest : List Label} :
    run step state (label :: rest) = some finish ↔
      ∃ next, step state label = some next ∧ run step next rest = some finish := by
  simp only [run, Option.bind_eq_some_iff]

/-- A run of two parts is the first followed by the second. -/
theorem run_append {start finish : State} {first rest : List Label} :
    run step start (first ++ rest) = some finish ↔
      ∃ middle, run step start first = some middle ∧ run step middle rest = some finish := by
  induction first generalizing start with
  | nil => simp only [List.nil_append, run, Option.some.injEq, exists_eq_left']
  | cons label later inductionHypothesis =>
    simp only [List.cons_append, run_cons, inductionHypothesis]
    constructor
    · rintro ⟨next, taken, middle, ran, following⟩
      exact ⟨middle, ⟨next, taken, ran⟩, following⟩
    · rintro ⟨middle, ⟨next, taken, ran⟩, following⟩
      exact ⟨next, taken, middle, ran, following⟩

/-- The condition splits at an enabled first step. -/
theorem meets_cons {condition : State → Label → Prop} {state next : State} {label : Label}
    {rest : List Label} (taken : step state label = some next) :
    Meets step condition state (label :: rest) ↔
      condition state label ∧ Meets step condition next rest := by
  simp only [Meets, taken]

/-- The relation splits at an enabled first step. -/
theorem along_cons {relation : State → Label → State → Prop} {state next : State}
    {label : Label} {rest : List Label} (taken : step state label = some next) :
    Along step relation state (label :: rest) ↔
      relation state label next ∧ Along step relation next rest := by
  simp only [Along, taken]

/-- A condition that holds of every label in every state is met by every run. -/
theorem meets_of_forall {condition : State → Label → Prop}
    (always : ∀ state label, condition state label) (state : State) (labels : List Label) :
    Meets step condition state labels := by
  induction labels generalizing state with
  | nil => trivial
  | cons label rest inductionHypothesis =>
    refine ⟨always state label, ?_⟩
    cases step state label with
    | none => trivial
    | some next => exact inductionHypothesis next

/-- A condition on labels alone is met when every label of the run satisfies it. -/
theorem meets_of_labels {condition : Label → Prop} (state : State) (labels : List Label)
    (each : ∀ label ∈ labels, condition label) :
    Meets step (fun _ label => condition label) state labels := by
  induction labels generalizing state with
  | nil => trivial
  | cons label rest inductionHypothesis =>
    refine ⟨each label List.mem_cons_self, ?_⟩
    cases step state label with
    | none => trivial
    | some next =>
      exact inductionHypothesis next (fun other member =>
        each other (List.mem_cons_of_mem label member))

/-- An invariant that each step keeps when it meets the condition holds at the
end of every run all of whose steps meet it. The induction is on the labels;
the invariant of the state after the first step starts the remaining run. -/
theorem run_preserves_under {condition : State → Label → Prop} {invariant : State → Prop}
    (preserved : ∀ state label next, invariant state → condition state label →
      step state label = some next → invariant next)
    {start finish : State} {labels : List Label} (holds : invariant start)
    (met : Meets step condition start labels) (ran : run step start labels = some finish) :
    invariant finish := by
  induction labels generalizing start with
  | nil => exact Option.some.inj ran ▸ holds
  | cons label rest inductionHypothesis =>
    obtain ⟨next, taken, following⟩ := run_cons.mp ran
    obtain ⟨now, later⟩ := (meets_cons taken).mp met
    exact inductionHypothesis (preserved start label next holds now taken) later following

/-- An invariant that every step keeps holds at the end of every run. -/
theorem run_preserves {invariant : State → Prop}
    (preserved : ∀ state label next, invariant state → step state label = some next →
      invariant next)
    {start finish : State} {labels : List Label} (holds : invariant start)
    (ran : run step start labels = some finish) : invariant finish := by
  have unconditional : Meets step (fun _ _ => True) start labels :=
    meets_of_forall (fun _ _ => trivial) start labels
  exact run_preserves_under (fun state label next before _ taken =>
    preserved state label next before taken) holds unconditional ran

/-- When a label is enabled exactly under a condition, a run comes to its end exactly
when every step meets it. -/
theorem run_isSome_iff_meets {condition : State → Label → Prop}
    (enabled : ∀ state label, (step state label).isSome = true ↔ condition state label)
    (start : State) (labels : List Label) :
    (run step start labels).isSome = true ↔ Meets step condition start labels := by
  induction labels generalizing start with
  | nil => exact iff_of_true rfl trivial
  | cons label rest inductionHypothesis =>
    have first := enabled start label
    cases taken : step start label with
    | none =>
      rw [taken] at first
      have refused : ¬ condition start label := fun met => absurd (first.mpr met) (by simp)
      simp [run, Meets, taken, refused]
    | some next =>
      rw [taken] at first
      rw [meets_cons taken, ← inductionHypothesis next, run, taken, Option.bind_some]
      exact (and_iff_right (first.mp rfl)).symm

/-- When, from states with an invariant and under an assumption on the labels, a
step establishes a relation exactly under a condition, and the relation carries the
invariant on, a completed run that meets the assumption has the relation along it
exactly when it meets the condition. -/
theorem along_iff_meets_under {assumption condition : State → Label → Prop}
    {invariant : State → Prop} {relation : State → Label → State → Prop}
    (exact : ∀ state label next, invariant state → assumption state label →
      step state label = some next → (relation state label next ↔ condition state label))
    (carried : ∀ state label next, invariant state → step state label = some next →
      relation state label next → invariant next)
    {start finish : State} {labels : List Label} (holds : invariant start)
    (assumed : Meets step assumption start labels) (ran : run step start labels = some finish) :
    Along step relation start labels ↔ Meets step condition start labels := by
  induction labels generalizing start with
  | nil => exact Iff.rfl
  | cons label rest inductionHypothesis =>
    obtain ⟨next, taken, following⟩ := run_cons.mp ran
    obtain ⟨granted, further⟩ := (meets_cons taken).mp assumed
    rw [along_cons taken, meets_cons taken]
    constructor
    · rintro ⟨related, later⟩
      have kept := carried start label next holds taken related
      exact ⟨(exact start label next holds granted taken).mp related,
        (inductionHypothesis kept further following).mp later⟩
    · rintro ⟨now, later⟩
      have related := (exact start label next holds granted taken).mpr now
      have kept := carried start label next holds taken related
      exact ⟨related, (inductionHypothesis kept further following).mpr later⟩

/-- When, from states with an invariant, a step establishes a relation exactly
under a condition, and the relation carries the invariant on, the relation holds
along a completed run exactly when the run meets the condition. -/
theorem along_iff_meets {condition : State → Label → Prop} {invariant : State → Prop}
    {relation : State → Label → State → Prop}
    (exact : ∀ state label next, invariant state → step state label = some next →
      (relation state label next ↔ condition state label))
    (carried : ∀ state label next, invariant state → step state label = some next →
      relation state label next → invariant next)
    {start finish : State} {labels : List Label} (holds : invariant start)
    (ran : run step start labels = some finish) :
    Along step relation start labels ↔ Meets step condition start labels := by
  have unconditional : Meets step (fun _ _ => True) start labels :=
    meets_of_forall (fun _ _ => trivial) start labels
  exact along_iff_meets_under (fun state label next before _ taken =>
    exact state label next before taken) carried holds unconditional ran

/-- When no step lowers a measure, and a step keeps it exactly under a condition,
a run keeps it exactly when it meets the condition. -/
theorem measure_kept_iff_meets {Measure : Type v} [PartialOrder Measure] {measure : State → Measure}
    {condition : State → Label → Prop} {invariant : State → Prop}
    (preserved : ∀ state label next, invariant state → step state label = some next →
      invariant next)
    (grows : ∀ state label next, invariant state → step state label = some next →
      measure state ≤ measure next)
    (exact : ∀ state label next, invariant state → step state label = some next →
      (measure next = measure state ↔ condition state label))
    {start finish : State} {labels : List Label} (holds : invariant start)
    (ran : run step start labels = some finish) :
    measure start ≤ measure finish ∧
      (measure finish = measure start ↔ Meets step condition start labels) := by
  induction labels generalizing start with
  | nil =>
    obtain rfl := Option.some.inj ran
    exact ⟨le_refl _, iff_of_true rfl trivial⟩
  | cons label rest inductionHypothesis =>
    obtain ⟨next, taken, following⟩ := run_cons.mp ran
    have first := grows start label next holds taken
    obtain ⟨later, keeps⟩ := inductionHypothesis (preserved start label next holds taken) following
    refine ⟨le_trans first later, ?_⟩
    rw [meets_cons taken, ← exact start label next holds taken, ← keeps]
    constructor
    · intro same
      have now : measure next = measure start := le_antisymm (same ▸ later) first
      exact ⟨now, same.trans now.symm⟩
    · rintro ⟨now, after⟩
      exact after.trans now

end LabelledRuns
