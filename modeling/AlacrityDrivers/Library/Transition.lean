import Mathlib.Data.List.Basic

namespace Transition

/-- A state machine driven by labelled actions. `none` means that the state does not allow the
    action; every interleaving of several parties is one list of actions. -/
structure Machine (σ α : Type) where
  start : σ
  step : σ → α → Option σ

namespace Machine

variable {σ α : Type} (m : Machine σ α)

def run : σ → List α → Option σ
  | s, [] => some s
  | s, action :: rest => (m.step s action).bind fun next => run next rest

/-- The states of the runs whose every step meets a condition on the state before it. -/
inductive ReachableBy (condition : σ → α → Prop) : σ → Prop
  | start : ReachableBy condition m.start
  | step {s next : σ} {action : α} : ReachableBy condition s → condition s action →
      m.step s action = some next → ReachableBy condition next

def Reachable : σ → Prop := m.ReachableBy fun _ _ => True

def Meets (condition : σ → α → Prop) : σ → List α → Prop
  | _, [] => True
  | s, action :: rest =>
    condition s action ∧ ∀ next, m.step s action = some next → Meets condition next rest

def Throughout (property : σ → Prop) : σ → List α → Prop
  | s, [] => property s
  | s, action :: rest =>
    property s ∧ ∀ next, m.step s action = some next → Throughout property next rest

def OnSteps (condition : σ → α → Prop) (s : σ) (action : α) : Prop :=
  ∀ next, m.step s action = some next → condition s action

variable {m} {condition : σ → α → Prop} {property : σ → Prop}

theorem run_append {s next final : σ} {actions rest : List α} (ran : m.run s actions = some next)
    (further : m.run next rest = some final) : m.run s (actions ++ rest) = some final := by
  induction actions generalizing s with
  | nil =>
    simp only [run, Option.some.injEq] at ran
    rw [ran]
    exact further
  | cons action tail ih =>
    simp only [run, Option.bind_eq_some_iff] at ran
    obtain ⟨middle, stepped, ran⟩ := ran
    simp only [List.cons_append, run, stepped, Option.bind_some]
    exact ih ran

theorem run_snoc {s next final : σ} {actions : List α} {action : α}
    (ran : m.run s actions = some next) (stepped : m.step next action = some final) :
    m.run s (actions ++ [action]) = some final :=
  run_append ran (by rw [run, stepped]; rfl)

theorem ReachableBy.invariant {s : σ} (reached : m.ReachableBy condition s)
    (initial : property m.start)
    (preserved : ∀ s action next, property s → condition s action →
      m.step s action = some next → property next) : property s := by
  induction reached with
  | start => exact initial
  | step _ met stepped ih => exact preserved _ _ _ ih met stepped

theorem Reachable.invariant {s : σ} (reached : m.Reachable s) (initial : property m.start)
    (preserved : ∀ s action next, property s → m.step s action = some next → property next) :
    property s :=
  ReachableBy.invariant reached initial fun s action next holds _ stepped =>
    preserved s action next holds stepped

theorem ReachableBy.run_of_meets {s final : σ} {actions : List α}
    (reached : m.ReachableBy condition s) (met : m.Meets condition s actions)
    (ran : m.run s actions = some final) : m.ReachableBy condition final := by
  induction actions generalizing s with
  | nil =>
    simp only [run, Option.some.injEq] at ran
    rw [← ran]
    exact reached
  | cons action rest ih =>
    simp only [run, Option.bind_eq_some_iff] at ran
    obtain ⟨next, stepped, ran⟩ := ran
    exact ih (.step reached met.1 stepped) (met.2 next stepped) ran

theorem meets_trivial (s : σ) (actions : List α) : m.Meets (fun _ _ => True) s actions := by
  induction actions generalizing s with
  | nil => exact True.intro
  | cons action rest ih => exact ⟨True.intro, fun next _ => ih next⟩

theorem reachable_of_run {final : σ} {actions : List α}
    (ran : m.run m.start actions = some final) : m.Reachable final :=
  ReachableBy.run_of_meets .start (meets_trivial _ _) ran

theorem reachable_get (actions : List α) (allowed : (m.run m.start actions).isSome) :
    m.Reachable ((m.run m.start actions).get allowed) :=
  reachable_of_run (Option.some_get allowed).symm

theorem reachableBy_get (actions : List α) (met : m.Meets condition m.start actions)
    (allowed : (m.run m.start actions).isSome) :
    m.ReachableBy condition ((m.run m.start actions).get allowed) :=
  ReachableBy.run_of_meets .start met (Option.some_get allowed).symm

def checks (m : Machine σ α) (check : σ → α → Bool) : σ → List α → Bool
  | _, [] => true
  | s, action :: rest =>
    check s action && match m.step s action with
      | some next => checks m check next rest
      | none => true

theorem meets_of_checks {check : σ → α → Bool}
    (sound : ∀ s action, check s action = true → condition s action) {s : σ} {actions : List α}
    (checked : m.checks check s actions = true) : m.Meets condition s actions := by
  induction actions generalizing s with
  | nil => exact True.intro
  | cons action rest ih =>
    simp only [checks, Bool.and_eq_true] at checked
    refine ⟨sound s action checked.1, ?_⟩
    intro next stepped
    apply ih
    simpa only [stepped] using checked.2

theorem throughout_head {s : σ} {actions : List α} (throughout : m.Throughout property s actions) :
    property s := by
  cases actions with
  | nil => exact throughout
  | cons _ _ => exact throughout.1

/-- Where a guard preserves what gives the property, and the property after a step shows that the
    step was guarded, the guarded runs are exactly those that keep the property. -/
theorem throughout_iff_meets {known : σ → Prop} (shown : ∀ s, known s → property s)
    (preserved : ∀ s action next, known s → condition s action → m.step s action = some next →
      known next)
    (forced : ∀ s action, known s → (∀ next, m.step s action = some next → property next) →
      condition s action)
    {s : σ} (holds : known s) (actions : List α) :
    m.Throughout property s actions ↔ m.Meets condition s actions := by
  induction actions generalizing s with
  | nil => exact ⟨fun _ => True.intro, fun _ => shown s holds⟩
  | cons action rest ih =>
    constructor
    · intro throughout
      have guarded := forced s action holds
        (fun next stepped => throughout_head (throughout.2 next stepped))
      refine ⟨guarded, ?_⟩
      intro next stepped
      exact (ih (preserved s action next holds guarded stepped)).mp (throughout.2 next stepped)
    · intro meets
      refine ⟨shown s holds, ?_⟩
      intro next stepped
      exact (ih (preserved s action next holds meets.1 stepped)).mpr (meets.2 next stepped)

theorem throughout_of_invariant (known : σ → Prop) (shown : ∀ s, known s → property s)
    (preserved : ∀ s action next, known s → m.step s action = some next → known next)
    {s : σ} (holds : known s) (actions : List α) : m.Throughout property s actions := by
  induction actions generalizing s with
  | nil => exact shown s holds
  | cons action rest ih =>
    refine ⟨shown s holds, ?_⟩
    intro next stepped
    exact ih (preserved s action next holds stepped)

theorem throughout_of_meets {known : σ → Prop} (shown : ∀ s, known s → property s)
    (preserved : ∀ s action next, known s → condition s action → m.step s action = some next →
      known next)
    {s : σ} (holds : known s) {actions : List α}
    (meets : m.Meets (m.OnSteps condition) s actions) : m.Throughout property s actions := by
  induction actions generalizing s with
  | nil => exact shown s holds
  | cons action rest ih =>
    refine ⟨shown s holds, ?_⟩
    intro next stepped
    exact ih (preserved s action next holds (meets.1 next stepped) stepped) (meets.2 next stepped)

theorem throughout_iff_guarded (known : σ → Prop) (shown : ∀ s, known s → property s)
    (preserved : ∀ s action next, known s → condition s action → m.step s action = some next →
      known next)
    (forced : ∀ s action next, known s → m.step s action = some next → property next →
      condition s action)
    {s : σ} (holds : known s) (actions : List α) :
    m.Throughout property s actions ↔ m.Meets (m.OnSteps condition) s actions := by
  apply throughout_iff_meets shown _ _ holds actions
  · intro s action next holds guarded stepped
    exact preserved s action next holds (guarded next stepped) stepped
  · intro s action holds after next stepped
    exact forced s action next holds stepped (after next stepped)

end Machine

end Transition
