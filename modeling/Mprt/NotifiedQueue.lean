import Mprt.LabelledRuns
import Mathlib.Data.List.Perm.Basic

/-!
# A queue whose leavers are to be announced

Items wait in a queue, leave it from the front, and each one that leaves is to
be announced once. The queue is seen together with two histories: the items that
have left, and the items that have been announced. A change lets an item join,
takes the front item out with or without its announcement, or takes all items
out with theirs.

An item that leaves unannounced can not be made up for, since announcements come
with a leaver. So every leaver has been announced once after a run exactly when
no step of the run was silent about one.
-/

namespace NotifiedQueue

universe u v w
variable {Item : Type u}

/-- The items in the queue, those that have left it and those announced. -/
structure Ledger (Item : Type u) where
  waiting : List Item
  left : List Item
  announced : List Item
deriving DecidableEq

inductive Change (Item : Type u) where
  | keep
  | join (item : Item)
  | release
  | lose
  | releaseAll
deriving DecidableEq

namespace Ledger

/-- The ledger after a change. An empty queue has no front item to take out. -/
def apply (ledger : Ledger Item) : Change Item → Ledger Item
  | .keep => ledger
  | .join item => { ledger with waiting := ledger.waiting ++ [item] }
  | .release =>
      match ledger.waiting with
      | [] => ledger
      | item :: rest => ⟨rest, ledger.left ++ [item], ledger.announced ++ [item]⟩
  | .lose =>
      match ledger.waiting with
      | [] => ledger
      | item :: rest => ⟨rest, ledger.left ++ [item], ledger.announced⟩
  | .releaseAll => ⟨[], ledger.left ++ ledger.waiting, ledger.announced ++ ledger.waiting⟩

/-- Every item that has left was announced as often as it has left. -/
def AnnouncedOnce [DecidableEq Item] (ledger : Ledger Item) : Prop :=
  ∀ item, ledger.announced.count item = ledger.left.count item

/-- The change takes an item out without announcing it. -/
def Silent (ledger : Ledger Item) (change : Change Item) : Prop :=
  change = .lose ∧ ledger.waiting ≠ []

/-- The items that a change adds. -/
def joined : Change Item → List Item
  | .join item => [item]
  | _ => []

/-- Items leave in the order in which they joined. -/
theorem apply_order (ledger : Ledger Item) (change : Change Item) :
    (ledger.apply change).left ++ (ledger.apply change).waiting =
      ledger.left ++ ledger.waiting ++ joined change := by
  cases change with
  | keep => simp [apply, joined]
  | join item => simp [apply, joined]
  | release | lose =>
    cases waiting : ledger.waiting with
    | nil => simp [apply, joined, waiting]
    | cons item rest => simp [apply, joined, waiting]
  | releaseAll => simp [apply, joined]

/-- A change that is not silent announces what it takes out. -/
theorem apply_announces {ledger : Ledger Item} {change : Change Item}
    (spoken : ¬ ledger.Silent change) (before : ledger.announced = ledger.left) :
    (ledger.apply change).announced = (ledger.apply change).left := by
  cases change with
  | keep | join item | releaseAll => simp [apply, before]
  | release =>
    cases waiting : ledger.waiting with
    | nil => simp [apply, waiting, before]
    | cons item rest => simp [apply, waiting, before]
  | lose =>
    have waiting : ledger.waiting = [] := by
      by_contra some
      exact spoken ⟨rfl, some⟩
    simp [apply, waiting, before]

/-- A change announces at most what it takes out. -/
theorem apply_length (ledger : Ledger Item) (change : Change Item)
    (before : ledger.announced.length ≤ ledger.left.length) :
    (ledger.apply change).announced.length ≤ (ledger.apply change).left.length := by
  cases change with
  | keep | join item => exact before
  | release | lose =>
    cases waiting : ledger.waiting with
    | nil => simpa [apply, waiting] using before
    | cons item rest =>
      simp only [apply, waiting, List.length_append, List.length_singleton]
      omega
  | releaseAll =>
    simp only [apply, List.length_append]
    omega

/-- A silent change leaves an announcement missing. -/
theorem silent_length {ledger : Ledger Item} {change : Change Item}
    (silent : ledger.Silent change) (before : ledger.announced.length ≤ ledger.left.length) :
    (ledger.apply change).announced.length < (ledger.apply change).left.length := by
  obtain ⟨rfl, some⟩ := silent
  cases waiting : ledger.waiting with
  | nil => exact absurd waiting some
  | cons item rest =>
    simp only [apply, waiting, List.length_append, List.length_singleton]
    omega

/-- A missing announcement stays missing. -/
theorem apply_missing (ledger : Ledger Item) (change : Change Item)
    (before : ledger.announced.length < ledger.left.length) :
    (ledger.apply change).announced.length < (ledger.apply change).left.length := by
  cases change with
  | keep | join item => exact before
  | release | lose =>
    cases waiting : ledger.waiting with
    | nil => simpa [apply, waiting] using before
    | cons item rest =>
      simp only [apply, waiting, List.length_append, List.length_singleton]
      omega
  | releaseAll =>
    simp only [apply, List.length_append]
    omega

/-- Announcing every leaver once needs as many announcements as leavers. -/
theorem announcedOnce_length [DecidableEq Item] {ledger : Ledger Item}
    (once : ledger.AnnouncedOnce) : ledger.announced.length = ledger.left.length :=
  (List.perm_iff_count.mpr once).length_eq

end Ledger

/-! A system that keeps such a queue changes its ledger in each step by one
change, and a condition on its states and labels tells the silent ones. -/

section Runs

variable {State : Type v} {Label : Type w} {step : State → Label → Option State}
variable {ledger : State → Ledger Item} {silent : State → Label → Prop}
variable {invariant : State → Prop} {added : Label → List Item}

/-- Each step from a state with the invariant changes the ledger by one change;
the change adds what the label adds, and is silent when the condition says so. -/
def Keeps (step : State → Label → Option State) (ledger : State → Ledger Item)
    (silent : State → Label → Prop) (invariant : State → Prop)
    (added : Label → List Item) : Prop :=
  ∀ state label next, invariant state → step state label = some next →
    invariant next ∧ ∃ change, ledger next = (ledger state).apply change ∧
      Ledger.joined change = added label ∧ ((ledger state).Silent change ↔ silent state label)

/-- What has left, followed by what waits, is what was there followed by what
was added. -/
theorem run_order (keeps : Keeps step ledger silent invariant added) {start finish : State}
    {labels : List Label} (holds : invariant start)
    (ran : LabelledRuns.run step start labels = some finish) :
    (ledger finish).left ++ (ledger finish).waiting =
      (ledger start).left ++ (ledger start).waiting ++ labels.flatMap added := by
  induction labels generalizing start with
  | nil =>
    have same := Option.some.inj ran
    simp [same]
  | cons label rest inductionHypothesis =>
    obtain ⟨next, taken, following⟩ := LabelledRuns.run_cons.mp ran
    obtain ⟨kept, change, after, joins, _⟩ := keeps start label next holds taken
    rw [inductionHypothesis kept following, after, Ledger.apply_order, joins, List.flatMap_cons,
      List.append_assoc]

/-- With no silent step, announcements follow the leavers one for one. -/
theorem run_announces (keeps : Keeps step ledger silent invariant added) {start finish : State}
    {labels : List Label} (holds : invariant start)
    (before : (ledger start).announced = (ledger start).left)
    (spoken : LabelledRuns.Meets step (fun state label => ¬ silent state label) start labels)
    (ran : LabelledRuns.run step start labels = some finish) :
    (ledger finish).announced = (ledger finish).left := by
  have preserved : ∀ state label next,
      (invariant state ∧ (ledger state).announced = (ledger state).left) →
      ¬ silent state label → step state label = some next →
      invariant next ∧ (ledger next).announced = (ledger next).left := by
    intro state label next now unsilent taken
    obtain ⟨kept, change, after, _, exact⟩ := keeps state label next now.1 taken
    rw [after]
    exact ⟨kept, Ledger.apply_announces (fun quiet => unsilent (exact.mp quiet)) now.2⟩
  exact (LabelledRuns.run_preserves_under preserved ⟨holds, before⟩ spoken ran).2

/-- A missing announcement is missing at the end of the run. -/
theorem run_missing (keeps : Keeps step ledger silent invariant added) {start finish : State}
    {labels : List Label} (holds : invariant start)
    (before : (ledger start).announced.length < (ledger start).left.length)
    (ran : LabelledRuns.run step start labels = some finish) :
    (ledger finish).announced.length < (ledger finish).left.length := by
  have preserved : ∀ state label next,
      (invariant state ∧ (ledger state).announced.length < (ledger state).left.length) →
      step state label = some next →
      invariant next ∧ (ledger next).announced.length < (ledger next).left.length := by
    intro state label next now taken
    obtain ⟨kept, change, after, _, _⟩ := keeps state label next now.1 taken
    rw [after]
    exact ⟨kept, Ledger.apply_missing _ change now.2⟩
  exact (LabelledRuns.run_preserves preserved ⟨holds, before⟩ ran).2

/-- A run that ends with as many announcements as leavers had no silent step. -/
theorem run_spoken (keeps : Keeps step ledger silent invariant added) {start finish : State}
    {labels : List Label} (holds : invariant start)
    (before : (ledger start).announced.length ≤ (ledger start).left.length)
    (even : (ledger finish).announced.length = (ledger finish).left.length)
    (ran : LabelledRuns.run step start labels = some finish) :
    LabelledRuns.Meets step (fun state label => ¬ silent state label) start labels := by
  induction labels generalizing start with
  | nil => trivial
  | cons label rest inductionHypothesis =>
    obtain ⟨next, taken, following⟩ := LabelledRuns.run_cons.mp ran
    obtain ⟨kept, change, after, _, exact⟩ := keeps start label next holds taken
    rw [LabelledRuns.meets_cons taken]
    constructor
    · intro quiet
      have missing : (ledger next).announced.length < (ledger next).left.length := by
        rw [after]
        exact Ledger.silent_length (exact.mpr quiet) before
      have ends := run_missing keeps kept missing following
      omega
    · have bounded : (ledger next).announced.length ≤ (ledger next).left.length := by
        rw [after]
        exact Ledger.apply_length _ change before
      exact inductionHypothesis kept bounded following

/-- Every leaver has been announced once at the end of a run exactly when no
step of the run was silent. -/
theorem run_announcedOnce_iff [DecidableEq Item]
    (keeps : Keeps step ledger silent invariant added) {start finish : State}
    {labels : List Label} (holds : invariant start)
    (before : (ledger start).announced = (ledger start).left)
    (ran : LabelledRuns.run step start labels = some finish) :
    (ledger finish).AnnouncedOnce ↔
      LabelledRuns.Meets step (fun state label => ¬ silent state label) start labels := by
  constructor
  · intro once
    have bounded : (ledger start).announced.length ≤ (ledger start).left.length :=
      Nat.le_of_eq (congrArg List.length before)
    exact run_spoken keeps holds bounded (Ledger.announcedOnce_length once) ran
  · intro spoken item
    rw [run_announces keeps holds before spoken ran]

end Runs

end NotifiedQueue
