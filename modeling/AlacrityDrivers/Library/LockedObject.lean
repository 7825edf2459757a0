import AlacrityDrivers.Library.Simulation
import Mathlib.Logic.Function.Basic
import Mathlib.Tactic.Common

namespace LockedObject

open Transition

/-- Critical sections on a shared state: the place where a call enters, and the access made at a
    place, which leads to the next place or to the result. -/
structure Sections (σ κ π ρ : Type) where
  enter : κ → π
  access : π → σ → σ × (π ⊕ ρ)

inductive Executes {σ κ π ρ : Type} (sections : Sections σ κ π ρ) : π → σ → σ → ρ → Prop
  | last {place : π} {s after : σ} {result : ρ} :
      sections.access place s = (after, .inr result) → Executes sections place s after result
  | next {place further : π} {s middle after : σ} {result : ρ} :
      sections.access place s = (middle, .inl further) →
        Executes sections further middle after result → Executes sections place s after result

inductive Event (κ ρ : Type) where
  | called (thread : Nat) (args : κ)
  | returned (thread : Nat) (result : ρ)
deriving DecidableEq, Repr

inductive Thread (κ π ρ : Type) where
  | idle
  | waiting (args : κ)
  | inside (place : π)
  | leaving (result : ρ)
  | finished (result : ρ)

/-- Threads that run their sections under one lock, access by access. -/
structure State (σ κ π ρ : Type) where
  shared : σ
  lock : Option Nat
  threads : Nat → Thread κ π ρ

inductive Action (κ : Type) where
  | call (thread : Nat) (args : κ)
  | acquire (thread : Nat)
  | access (thread : Nat)
  | release (thread : Nat)
  | conclude (thread : Nat)

variable {σ κ π ρ : Type}

def State.goto (s : State σ κ π ρ) (thread : Nat) (at_place : Thread κ π ρ) : State σ κ π ρ :=
  { s with threads := Function.update s.threads thread at_place }

def step (sections : Sections σ κ π ρ) (s : State σ κ π ρ) : Action κ → Option (State σ κ π ρ)
  | .call thread args =>
    match s.threads thread with
    | .idle => some (s.goto thread (.waiting args))
    | _ => none
  | .acquire thread =>
    match s.threads thread, s.lock with
    | .waiting args, none =>
      some { s.goto thread (.inside (sections.enter args)) with lock := some thread }
    | _, _ => none
  | .access thread =>
    match s.threads thread with
    | .inside place =>
      match sections.access place s.shared with
      | (after, .inl further) => some { s.goto thread (.inside further) with shared := after }
      | (after, .inr result) => some { s.goto thread (.leaving result) with shared := after }
    | _ => none
  | .release thread =>
    match s.threads thread with
    | .leaving result => some { s.goto thread (.finished result) with lock := none }
    | _ => none
  | .conclude thread =>
    match s.threads thread with
    | .finished _ => some (s.goto thread .idle)
    | _ => none

def event (s : State σ κ π ρ) : Action κ → Option (Event κ ρ)
  | .call thread args => some (.called thread args)
  | .conclude thread =>
    match s.threads thread with
    | .finished result => some (.returned thread result)
    | _ => none
  | _ => none

def observed (sections : Sections σ κ π ρ) (start : σ) :
    Observed (State σ κ π ρ) (Action κ) (Event κ ρ) where
  machine := { start := ⟨start, none, fun _ => .idle⟩, step := step sections }
  event := event

inductive Caller (κ ρ : Type) where
  | idle
  | calling (args : κ)
  | done (result : ρ)

/-- The object that the sections implement: a call takes effect at one instant. -/
structure Atomic (σ κ ρ : Type) where
  object : σ
  callers : Nat → Caller κ ρ

inductive AtomicAction (κ : Type) where
  | call (thread : Nat) (args : κ)
  | apply (thread : Nat)
  | conclude (thread : Nat)

def Atomic.goto (t : Atomic σ κ ρ) (thread : Nat) (at_place : Caller κ ρ) : Atomic σ κ ρ :=
  { t with callers := Function.update t.callers thread at_place }

def atomicStep (operation : κ → σ → σ × ρ) (t : Atomic σ κ ρ) :
    AtomicAction κ → Option (Atomic σ κ ρ)
  | .call thread args =>
    match t.callers thread with
    | .idle => some (t.goto thread (.calling args))
    | _ => none
  | .apply thread =>
    match t.callers thread with
    | .calling args =>
      some { t.goto thread (.done (operation args t.object).2) with
        object := (operation args t.object).1 }
    | _ => none
  | .conclude thread =>
    match t.callers thread with
    | .done _ => some (t.goto thread .idle)
    | _ => none

def atomicEvent (t : Atomic σ κ ρ) : AtomicAction κ → Option (Event κ ρ)
  | .call thread args => some (.called thread args)
  | .conclude thread =>
    match t.callers thread with
    | .done result => some (.returned thread result)
    | _ => none
  | _ => none

def atomic (operation : κ → σ → σ × ρ) (start : σ) :
    Observed (Atomic σ κ ρ) (AtomicAction κ) (Event κ ρ) where
  machine := { start := ⟨start, fun _ => .idle⟩, step := atomicStep operation }
  event := atomicEvent

section Refinement

variable {sections : Sections σ κ π ρ} {operation : κ → σ → σ × ρ} {lock : Option Nat}
  {shared object after : σ} {thread other : Nat} {s next : State σ κ π ρ} {t : Atomic σ κ ρ}

def CallerAt (sections : Sections σ κ π ρ) (operation : κ → σ → σ × ρ) (lock : Option Nat)
    (shared object : σ) (thread : Nat) : Thread κ π ρ → Caller κ ρ → Prop
  | .idle, caller => caller = .idle
  | .waiting args, caller => caller = .calling args
  | .inside place, caller =>
    ∃ args, caller = .calling args ∧ lock = some thread ∧
      Executes sections place shared (operation args object).1 (operation args object).2
  | .leaving result, caller => caller = .done result ∧ lock = some thread ∧ shared = object
  | .finished result, caller => caller = .done result

structure Related (sections : Sections σ κ π ρ) (operation : κ → σ → σ × ρ) (s : State σ κ π ρ)
    (t : Atomic σ κ ρ) : Prop where
  callers : ∀ thread, CallerAt sections operation s.lock s.shared t.object thread (s.threads thread)
    (t.callers thread)
  free : s.lock = none → s.shared = t.object

theorem callerAt_outside {place : Thread κ π ρ} {caller : Caller κ ρ} {newLock : Option Nat}
    {newShared newObject : σ}
    (holds : CallerAt sections operation lock shared object thread place caller)
    (outside : lock ≠ some thread) :
    CallerAt sections operation newLock newShared newObject thread place caller := by
  cases place with
  | inside place =>
    obtain ⟨_, _, owner, _⟩ := holds
    exact absurd owner outside
  | leaving result => exact absurd holds.2.1 outside
  | _ => exact holds

theorem Related.move (related : Related sections operation s t) {place : Thread κ π ρ}
    {caller : Caller κ ρ} {newLock : Option Nat} {newShared newObject : σ}
    (outside : ∀ other, other ≠ thread → s.lock ≠ some other ∨
      newLock = s.lock ∧ newShared = s.shared ∧ newObject = t.object)
    (moved : CallerAt sections operation newLock newShared newObject thread place caller)
    (free : newLock = none → newShared = newObject) :
    Related sections operation ⟨newShared, newLock, Function.update s.threads thread place⟩
      ⟨newObject, Function.update t.callers thread caller⟩ := by
  refine ⟨?_, free⟩
  intro other
  dsimp only
  by_cases same : other = thread
  · rw [same, Function.update_self, Function.update_self]
    exact moved
  · rw [Function.update_of_ne same, Function.update_of_ne same]
    have holds := related.callers other
    rcases outside other same with away | ⟨rfl, rfl, rfl⟩
    · exact callerAt_outside holds away
    · exact holds

theorem callers_update (t : Atomic σ κ ρ) (thread : Nat) {caller : Caller κ ρ}
    (same : t.callers thread = caller) : Function.update t.callers thread caller = t.callers := by
  rw [← same, Function.update_eq_self]

theorem owner_away (owner : lock = some thread) : ∀ other, other ≠ thread → lock ≠ some other := by
  intro other different same
  rw [owner] at same
  exact different (Option.some.inj same).symm

theorem access_answered (start : σ) (related : Related sections operation s t)
    (stepped : step sections s (.access thread) = some next) :
    ∃ actions after, (atomic operation start).machine.run t actions = some after ∧
      (atomic operation start).trace t actions = [] ∧ Related sections operation next after := by
  have caller := related.callers thread
  simp only [step] at stepped
  split at stepped
  · rename_i place standing
    rw [standing] at caller
    obtain ⟨args, calling, owner, executes⟩ := caller
    have away := owner_away owner
    have held : s.lock ≠ none := by
      rw [owner]
      exact Option.some_ne_none thread
    cases executes with
    | last accessed =>
      rw [accessed, Option.some.injEq] at stepped
      refine ⟨[.apply thread], { t.goto thread (.done (operation args t.object).2) with
        object := (operation args t.object).1 }, ?_, ?_, ?_⟩
      · simp [Machine.run, atomic, atomicStep, calling]
      · simp [Observed.trace, atomic, atomicStep, atomicEvent, calling]
      · rw [← stepped]
        exact related.move (fun other different => Or.inl (away other different))
          ⟨rfl, owner, rfl⟩ (fun impossible => absurd impossible held)
    | next accessed rest =>
      rw [accessed, Option.some.injEq] at stepped
      refine ⟨[], t, rfl, rfl, ?_⟩
      rw [← stepped]
      have moved := @Related.move _ _ _ _ _ _ thread s t related (.inside _) (.calling args) s.lock _
        t.object (fun other different => Or.inl (away other different)) ⟨args, rfl, owner, rest⟩
        (fun impossible => absurd impossible held)
      rw [callers_update t thread calling] at moved
      exact moved
  · cases stepped

theorem call_answered (start : σ) {args : κ} (related : Related sections operation s t)
    (stepped : step sections s (.call thread args) = some next) :
    ∃ actions after, (atomic operation start).machine.run t actions = some after ∧
      (atomic operation start).trace t actions = (event s (.call thread args)).toList ∧
      Related sections operation next after := by
  have caller := related.callers thread
  simp only [step] at stepped
  split at stepped
  · rename_i standing
    rw [standing] at caller
    have idle : t.callers thread = .idle := caller
    rw [Option.some.injEq] at stepped
    rw [← stepped]
    refine ⟨[.call thread args], t.goto thread (.calling args), ?_, ?_, ?_⟩
    · simp [Machine.run, atomic, atomicStep, idle]
    · simp [Observed.trace, atomic, atomicStep, atomicEvent, event, idle]
    · exact related.move (fun other _ => Or.inr ⟨rfl, rfl, rfl⟩) rfl related.free
  · cases stepped

/-- A thread that gets the lock has its whole section before it. -/
theorem acquire_answered
    (complete : ∀ args s, Executes sections (sections.enter args) s (operation args s).1
      (operation args s).2)
    (related : Related sections operation s t)
    (stepped : step sections s (.acquire thread) = some next) :
    Related sections operation next t := by
  have caller := related.callers thread
  simp only [step] at stepped
  split at stepped
  · rename_i args standing free
    rw [standing] at caller
    have calling : t.callers thread = .calling args := caller
    have clean := related.free free
    rw [Option.some.injEq] at stepped
    rw [← stepped]
    have entered : Executes sections (sections.enter args) s.shared (operation args t.object).1
        (operation args t.object).2 := by
      rw [clean]
      exact complete args t.object
    have moved := @Related.move _ _ _ _ _ _ thread s t related (.inside (sections.enter args))
      (.calling args) (some thread) s.shared t.object
      (fun other _ => Or.inl (by rw [free]; exact (Option.some_ne_none other).symm))
      ⟨args, rfl, rfl, entered⟩ (fun impossible => absurd impossible (Option.some_ne_none thread))
    rw [callers_update t thread calling] at moved
    exact moved
  · cases stepped

theorem release_answered (related : Related sections operation s t)
    (stepped : step sections s (.release thread) = some next) :
    Related sections operation next t := by
  have caller := related.callers thread
  simp only [step] at stepped
  split at stepped
  · rename_i result standing
    rw [standing] at caller
    obtain ⟨done, owner, clean⟩ := caller
    rw [Option.some.injEq] at stepped
    rw [← stepped]
    have moved := @Related.move _ _ _ _ _ _ thread s t related (.finished result) (.done result) none
      s.shared t.object (fun other different => Or.inl (owner_away owner other different)) rfl
      (fun _ => clean)
    rw [callers_update t thread done] at moved
    exact moved
  · cases stepped

theorem conclude_answered (start : σ) (related : Related sections operation s t)
    (stepped : step sections s (.conclude thread) = some next) :
    ∃ actions after, (atomic operation start).machine.run t actions = some after ∧
      (atomic operation start).trace t actions = (event s (.conclude thread)).toList ∧
      Related sections operation next after := by
  have caller := related.callers thread
  simp only [step] at stepped
  split at stepped
  · rename_i result standing
    rw [standing] at caller
    have done : t.callers thread = .done result := caller
    rw [Option.some.injEq] at stepped
    rw [← stepped]
    refine ⟨[.conclude thread], t.goto thread .idle, ?_, ?_, ?_⟩
    · simp [Machine.run, atomic, atomicStep, done]
    · simp [Observed.trace, atomic, atomicStep, atomicEvent, event, done, standing]
    · exact related.move (fun other _ => Or.inr ⟨rfl, rfl, rfl⟩) rfl related.free
  · cases stepped

theorem step_answered (start : σ)
    (complete : ∀ args s, Executes sections (sections.enter args) s (operation args s).1
      (operation args s).2)
    (related : Related sections operation s t) (action : Action κ)
    (stepped : step sections s action = some next) :
    ∃ actions after, (atomic operation start).machine.run t actions = some after ∧
      (atomic operation start).trace t actions = (event s action).toList ∧
      Related sections operation next after := by
  cases action with
  | call thread args => exact call_answered start related stepped
  | acquire thread => exact ⟨[], t, rfl, rfl, acquire_answered complete related stepped⟩
  | access thread => exact access_answered start related stepped
  | release thread => exact ⟨[], t, rfl, rfl, release_answered related stepped⟩
  | conclude thread => exact conclude_answered start related stepped

theorem shared_kept (property : σ → Prop) {start : σ} {actions : List (Action κ)}
    {final : State σ κ π ρ} (initial : property start)
    (preserved : ∀ place s, property s → property (sections.access place s).1)
    (ran : (observed sections start).machine.run (observed sections start).machine.start actions =
      some final) : property final.shared := by
  have reached := Machine.reachable_of_run ran
  refine @Machine.Reachable.invariant _ _ _ (fun s => property s.shared) _ reached initial ?_
  intro s action next holds stepped
  cases action with
  | access thread =>
    simp only [observed, step] at stepped
    split at stepped
    · rename_i place standing
      have kept := preserved place s.shared holds
      split at stepped
      · rename_i accessed
        rw [accessed] at kept
        cases stepped
        exact kept
      · rename_i accessed
        rw [accessed] at kept
        cases stepped
        exact kept
    · cases stepped
  | _ =>
    simp only [observed, step] at stepped
    split at stepped
    · cases stepped
      exact holds
    · cases stepped

end Refinement

def simulation {sections : Sections σ κ π ρ} {operation : κ → σ → σ × ρ} (start : σ)
    (complete : ∀ args s, Executes sections (sections.enter args) s (operation args s).1
      (operation args s).2) :
    Simulation (observed sections start) (atomic operation start) where
  relates := Related sections operation
  start := ⟨fun _ => rfl, fun _ => rfl⟩
  answers := fun _ _ action _ related stepped => step_answered start complete related action stepped

def pending (thread : Nat) (trace : List (Event κ ρ)) : Option κ :=
  trace.foldl (fun calling event => match event with
    | .called caller args => if caller = thread then some args else calling
    | .returned caller _ => if caller = thread then none else calling) none

def Answered (relation : κ → ρ → Prop) (trace : List (Event κ ρ)) : Prop :=
  ∀ before after thread result, trace = before ++ .returned thread result :: after →
    ∃ args, pending thread before = some args ∧ relation args result

section Results

variable {relation : κ → ρ → Prop} {invariant : σ → Prop} {operation : κ → σ → σ × ρ}
  {trace : List (Event κ ρ)} {t next : Atomic σ κ ρ} {thread : Nat}

@[simp]
theorem pending_called (caller : Nat) (args : κ) :
    pending thread (trace ++ [.called caller args]) =
      if caller = thread then some args else pending thread trace := by
  rw [pending, List.foldl_append]
  rfl

@[simp]
theorem pending_returned (caller : Nat) (result : ρ) :
    pending thread (trace ++ [.returned caller result]) =
      if caller = thread then none else pending thread trace := by
  rw [pending, List.foldl_append]
  rfl

theorem answered_nil : Answered relation [] := by
  intro before after thread result split
  cases before <;> cases split

theorem Answered.append (answered : Answered relation trace) {event : Event κ ρ}
    (right : ∀ thread result, event = .returned thread result →
      ∃ args, pending thread trace = some args ∧ relation args result) :
    Answered relation (trace ++ [event]) := by
  intro before after thread result split
  rcases List.eq_nil_or_concat after with rfl | ⟨front, last, rfl⟩
  · have ends := List.append_inj' split rfl
    rw [← ends.1]
    exact right thread result (List.singleton_inj.mp ends.2)
  · rw [List.concat_eq_append, ← List.cons_append, ← List.append_assoc] at split
    exact answered before front thread result (List.append_inj' split rfl).1

def Promised (relation : κ → ρ → Prop) (calling : Option κ) : Caller κ ρ → Prop
  | .idle => True
  | .calling args => calling = some args
  | .done result => ∃ args, calling = some args ∧ relation args result

structure Kept (relation : κ → ρ → Prop) (invariant : σ → Prop) (t : Atomic σ κ ρ)
    (trace : List (Event κ ρ)) : Prop where
  object : invariant t.object
  answered : Answered relation trace
  promised : ∀ thread, Promised relation (pending thread trace) (t.callers thread)

theorem promised_move {longer : List (Event κ ρ)} {caller : Caller κ ρ}
    (promised : ∀ other, Promised relation (pending other trace) (t.callers other))
    (others : ∀ other, other ≠ thread → pending other longer = pending other trace)
    (moved : Promised relation (pending thread longer) caller) (other : Nat) :
    Promised relation (pending other longer) (Function.update t.callers thread caller other) := by
  by_cases same : other = thread
  · rw [same, Function.update_self]
    exact moved
  · rw [Function.update_of_ne same, others other same]
    exact promised other

theorem kept_step (kept : Kept relation invariant t trace)
    (preserved : ∀ args s, invariant s →
      invariant (operation args s).1 ∧ relation args (operation args s).2)
    (action : AtomicAction κ) (stepped : atomicStep operation t action = some next) :
    Kept relation invariant next (trace ++ (atomicEvent t action).toList) := by
  cases action with
  | call thread args =>
    simp only [atomicStep] at stepped
    split at stepped
    · rw [Option.some.injEq] at stepped
      rw [← stepped]
      simp only [atomicEvent, Option.toList_some]
      refine ⟨kept.object, kept.answered.append (fun _ _ impossible => nomatch impossible), ?_⟩
      apply promised_move kept.promised
      · intro other different
        rw [pending_called, if_neg (Ne.symm different)]
      · rw [pending_called, if_pos rfl]
        rfl
    · cases stepped
  | apply thread =>
    simp only [atomicStep] at stepped
    split at stepped
    · rename_i args calling
      rw [Option.some.injEq] at stepped
      rw [← stepped]
      have applied := preserved args t.object kept.object
      have waiting := kept.promised thread
      rw [calling] at waiting
      simp only [atomicEvent, Option.toList_none, List.append_nil]
      exact ⟨applied.1, kept.answered,
        promised_move kept.promised (fun _ _ => rfl) ⟨args, waiting, applied.2⟩⟩
    · cases stepped
  | conclude thread =>
    simp only [atomicStep] at stepped
    split at stepped
    · rename_i result done
      rw [Option.some.injEq] at stepped
      rw [← stepped]
      have finished := kept.promised thread
      rw [done] at finished
      simp only [atomicEvent, done, Option.toList_some]
      refine ⟨kept.object, kept.answered.append ?_, ?_⟩
      · intro other value same
        cases same
        exact finished
      · apply promised_move kept.promised
        · intro other different
          rw [pending_returned, if_neg (Ne.symm different)]
        · exact True.intro
    · cases stepped

theorem atomic_kept {start : σ} {actions : List (AtomicAction κ)} (initial : invariant start)
    (preserved : ∀ args s, invariant s →
      invariant (operation args s).1 ∧ relation args (operation args s).2)
    (ran : (atomic operation start).machine.run (atomic operation start).machine.start actions =
      some next) :
    Kept relation invariant next
      ((atomic operation start).trace (atomic operation start).machine.start actions) := by
  have fresh : Kept relation invariant (atomic operation start).machine.start [] :=
    ⟨initial, answered_nil, fun _ => True.intro⟩
  exact Observed.trace_invariant fresh
    (fun _ action _ _ kept stepped => kept_step kept preserved action stepped) ran

end Results

section Serialized

variable {sections : Sections σ κ π ρ} {operation : κ → σ → σ × ρ} {start : σ}
  {actions : List (Action κ)} {final : State σ κ π ρ}

theorem sections_kept (relation : κ → ρ → Prop) (invariant : σ → Prop)
    (complete : ∀ args s, Executes sections (sections.enter args) s (operation args s).1
      (operation args s).2)
    (initial : invariant start)
    (preserved : ∀ args s, invariant s →
      invariant (operation args s).1 ∧ relation args (operation args s).2)
    (ran : (observed sections start).machine.run (observed sections start).machine.start actions =
      some final) :
    Answered relation
        ((observed sections start).trace (observed sections start).machine.start actions) ∧
      (final.lock = none → invariant final.shared) := by
  obtain ⟨answers, after, answered, shown, related⟩ := (simulation start complete).traces ran
  have kept := atomic_kept initial preserved answered
  rw [shown] at kept
  refine ⟨kept.answered, ?_⟩
  intro free
  rw [related.free free]
  exact kept.object

/-- The calls and returns of a run are those of the atomic object, and whenever the lock is free
    the shared state is what some calls made of it, one after the other. -/
structure Serialized (sections : Sections σ κ π ρ) (operation : κ → σ → σ × ρ) (start : σ)
    (actions : List (Action κ)) (final : State σ κ π ρ) : Prop where
  linearized : ∃ answers after,
    (atomic operation start).machine.run (atomic operation start).machine.start answers =
      some after ∧
    (atomic operation start).trace (atomic operation start).machine.start answers =
      (observed sections start).trace (observed sections start).machine.start actions
  whole : final.lock = none →
    ∃ served : List κ, final.shared = served.foldl (fun s args => (operation args s).1) start

theorem serialized
    (complete : ∀ args s, Executes sections (sections.enter args) s (operation args s).1
      (operation args s).2)
    (ran : (observed sections start).machine.run (observed sections start).machine.start actions =
      some final) : Serialized sections operation start actions final := by
  refine ⟨?_, ?_⟩
  · obtain ⟨answers, after, answered, shown, _⟩ := (simulation start complete).traces ran
    exact ⟨answers, after, answered, shown⟩
  · have kept := sections_kept (fun _ _ => True)
      (fun s => ∃ served : List κ,
        s = served.foldl (fun s args => (operation args s).1) start)
      complete ⟨[], rfl⟩ ?_ ran
    · exact kept.2
    · rintro args s ⟨served, rfl⟩
      refine ⟨⟨served ++ [args], ?_⟩, True.intro⟩
      rw [List.foldl_append]
      rfl

end Serialized

end LockedObject
