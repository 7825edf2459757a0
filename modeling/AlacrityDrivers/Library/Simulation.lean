import AlacrityDrivers.Library.Transition

namespace Transition

/-- A machine of which the outside sees an event at some of the steps. -/
structure Observed (σ α ε : Type) where
  machine : Machine σ α
  event : σ → α → Option ε

namespace Observed

variable {σ α ε : Type} (o : Observed σ α ε)

def trace : σ → List α → List ε
  | _, [] => []
  | s, action :: rest =>
    match o.machine.step s action with
    | some next => (o.event s action).toList ++ trace next rest
    | none => []

variable {o} {s next final : σ} {action : α} {actions rest : List α}

theorem trace_cons (stepped : o.machine.step s action = some next) :
    o.trace s (action :: rest) = (o.event s action).toList ++ o.trace next rest := by
  simp only [trace, stepped]

theorem trace_append (ran : o.machine.run s actions = some next) :
    o.trace s (actions ++ rest) = o.trace s actions ++ o.trace next rest := by
  induction actions generalizing s with
  | nil =>
    simp only [Machine.run, Option.some.injEq] at ran
    rw [ran]
    rfl
  | cons action tail ih =>
    simp only [Machine.run, Option.bind_eq_some_iff] at ran
    obtain ⟨middle, stepped, ran⟩ := ran
    rw [List.cons_append, trace_cons stepped, trace_cons stepped, ih ran, List.append_assoc]

theorem trace_guarded {condition : σ → α → Prop} {property : σ → List ε → Prop} {seen : List ε}
    (holds : property s seen)
    (preserved : ∀ s action next seen, property s seen → condition s action →
      o.machine.step s action = some next → property next (seen ++ (o.event s action).toList))
    (met : o.machine.Meets condition s actions) (ran : o.machine.run s actions = some final) :
    property final (seen ++ o.trace s actions) := by
  induction actions generalizing s seen with
  | nil =>
    simp only [Machine.run, Option.some.injEq] at ran
    rw [← ran]
    simpa [trace] using holds
  | cons action rest ih =>
    simp only [Machine.run, Option.bind_eq_some_iff] at ran
    obtain ⟨next, stepped, ran⟩ := ran
    rw [trace_cons stepped, ← List.append_assoc]
    exact ih (preserved s action next seen holds met.1 stepped) (met.2 next stepped) ran

theorem trace_invariant {property : σ → List ε → Prop} {seen : List ε} (holds : property s seen)
    (preserved : ∀ s action next seen, property s seen → o.machine.step s action = some next →
      property next (seen ++ (o.event s action).toList))
    (ran : o.machine.run s actions = some final) : property final (seen ++ o.trace s actions) :=
  trace_guarded holds (fun s action next seen holds _ stepped =>
    preserved s action next seen holds stepped) (o.machine.meets_trivial s actions) ran

end Observed

/-- A forward simulation: the abstract machine answers every step with a run that shows the same
    events and ends in a related state. -/
structure Simulation {σ α τ β ε : Type} (concrete : Observed σ α ε) (abstract : Observed τ β ε) where
  relates : σ → τ → Prop
  start : relates concrete.machine.start abstract.machine.start
  answers : ∀ s t action next, relates s t → concrete.machine.step s action = some next →
    ∃ actions after, abstract.machine.run t actions = some after ∧
      abstract.trace t actions = (concrete.event s action).toList ∧ relates next after

namespace Simulation

variable {σ α τ β ε : Type} {concrete : Observed σ α ε} {abstract : Observed τ β ε}

theorem run (simulation : Simulation concrete abstract) {s final : σ} {t : τ} {actions : List α}
    (related : simulation.relates s t) (ran : concrete.machine.run s actions = some final) :
    ∃ answers after, abstract.machine.run t answers = some after ∧
      abstract.trace t answers = concrete.trace s actions ∧ simulation.relates final after := by
  induction actions generalizing s t with
  | nil =>
    simp only [Machine.run, Option.some.injEq] at ran
    rw [← ran]
    exact ⟨[], t, rfl, rfl, related⟩
  | cons action rest ih =>
    simp only [Machine.run, Option.bind_eq_some_iff] at ran
    obtain ⟨next, stepped, ran⟩ := ran
    obtain ⟨first, middle, answered, shown, related⟩ :=
      simulation.answers s t action next related stepped
    obtain ⟨second, after, further, rest_shown, related⟩ := ih related ran
    refine ⟨first ++ second, after, Machine.run_append answered further, ?_, related⟩
    rw [Observed.trace_append answered, shown, rest_shown, Observed.trace_cons stepped]

theorem traces (simulation : Simulation concrete abstract) {final : σ} {actions : List α}
    (ran : concrete.machine.run concrete.machine.start actions = some final) :
    ∃ answers after, abstract.machine.run abstract.machine.start answers = some after ∧
      abstract.trace abstract.machine.start answers =
        concrete.trace concrete.machine.start actions ∧ simulation.relates final after :=
  simulation.run simulation.start ran

end Simulation

/-- A simulation in which the abstract machine takes the very actions of the concrete one. -/
structure Lockstep {σ τ α ε : Type} (concrete : Observed σ α ε) (abstract : Observed τ α ε) where
  relates : σ → τ → Prop
  start : relates concrete.machine.start abstract.machine.start
  answers : ∀ s t action next, relates s t → concrete.machine.step s action = some next →
    ∃ after, abstract.machine.step t action = some after ∧
      abstract.event t action = concrete.event s action ∧ relates next after

namespace Lockstep

variable {σ τ α ε : Type} {concrete : Observed σ α ε} {abstract : Observed τ α ε}

theorem run (lockstep : Lockstep concrete abstract) {s final : σ} {t : τ} {actions : List α}
    (related : lockstep.relates s t) (ran : concrete.machine.run s actions = some final) :
    ∃ after, abstract.machine.run t actions = some after ∧
      abstract.trace t actions = concrete.trace s actions ∧ lockstep.relates final after := by
  induction actions generalizing s t with
  | nil =>
    simp only [Machine.run, Option.some.injEq] at ran
    rw [← ran]
    exact ⟨t, rfl, rfl, related⟩
  | cons action rest ih =>
    simp only [Machine.run, Option.bind_eq_some_iff] at ran
    obtain ⟨next, stepped, ran⟩ := ran
    obtain ⟨middle, answered, shown, related⟩ := lockstep.answers s t action next related stepped
    obtain ⟨after, further, rest_shown, related⟩ := ih related ran
    refine ⟨after, ?_, ?_, related⟩
    · rw [Machine.run, answered]
      exact further
    · rw [Observed.trace_cons answered, Observed.trace_cons stepped, shown, rest_shown]

end Lockstep

end Transition
