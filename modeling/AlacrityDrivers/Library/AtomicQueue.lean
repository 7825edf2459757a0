import AlacrityDrivers.Library.Simulation

namespace AtomicQueue

open Transition

inductive Event (α : Type) where
  | offered (value : α)
  | returned (accepted : Bool)
  | asked
  | answered (value : Option α)
deriving DecidableEq, Repr

inductive Producer (α : Type) where
  | idle
  | offering (value : α)
  | done (value : α) (accepted : Bool)

inductive Consumer (α : Type) where
  | idle
  | asking
  | done (value : Option α)

/-- A bounded queue between one producer and one consumer. A call takes effect at one instant
    between its first and its last step. -/
structure State (α : Type) where
  queue : List α
  producer : Producer α
  consumer : Consumer α

inductive Action (α : Type) where
  | offer (value : α)
  | produce
  | conclude
  | ask
  | consume
  | answer

variable {α : Type}

def step (capacity : Nat) (s : State α) : Action α → Option (State α)
  | .offer value =>
    match s.producer with
    | .idle => some { s with producer := .offering value }
    | _ => none
  | .produce =>
    match s.producer with
    | .offering value =>
      if s.queue.length < capacity then
        some { s with queue := s.queue ++ [value], producer := .done value true }
      else some { s with producer := .done value false }
    | _ => none
  | .conclude =>
    match s.producer with
    | .done _ _ => some { s with producer := .idle }
    | _ => none
  | .ask =>
    match s.consumer with
    | .idle => some { s with consumer := .asking }
    | _ => none
  | .consume =>
    match s.consumer with
    | .asking => some { s with queue := s.queue.tail, consumer := .done s.queue.head? }
    | _ => none
  | .answer =>
    match s.consumer with
    | .done _ => some { s with consumer := .idle }
    | _ => none

def event (s : State α) : Action α → Option (Event α)
  | .offer value => some (.offered value)
  | .conclude =>
    match s.producer with
    | .done _ accepted => some (.returned accepted)
    | _ => none
  | .ask => some .asked
  | .answer =>
    match s.consumer with
    | .done value => some (.answered value)
    | _ => none
  | _ => none

def observed (α : Type) (capacity : Nat) : Observed (State α) (Action α) (Event α) where
  machine := { start := ⟨[], .idle, .idle⟩, step := step capacity }
  event := event

structure Account (α : Type) where
  offer : Option α
  accepted : List α
  delivered : List α

def Account.empty : Account α := ⟨none, [], []⟩

def Account.add (a : Account α) : Event α → Account α
  | .offered value => { a with offer := some value }
  | .returned true => { a with offer := none, accepted := a.accepted ++ a.offer.toList }
  | .returned false => { a with offer := none }
  | .asked => a
  | .answered value => { a with delivered := a.delivered ++ value.toList }

def account (trace : List (Event α)) : Account α := trace.foldl Account.add .empty

theorem account_append (seen : List (Event α)) (event : Option (Event α)) :
    account (seen ++ event.toList) = event.elim (account seen) (account seen).add := by
  cases event <;> simp [account]

def Producer.settled : Producer α → List α
  | .done value true => [value]
  | _ => []

def Producer.offer : Producer α → Option α
  | .idle => none
  | .offering value => some value
  | .done value _ => some value

def Consumer.settled : Consumer α → List α
  | .done (some value) => [value]
  | _ => []

structure Accounts (capacity : Nat) (s : State α) (a : Account α) : Prop where
  bound : s.queue.length ≤ capacity
  offer : a.offer = s.producer.offer
  order : a.accepted ++ s.producer.settled = a.delivered ++ s.consumer.settled ++ s.queue

theorem accounts_step {capacity : Nat} (s : State α) (action : Action α) (next : State α)
    (seen : List (Event α)) (holds : Accounts capacity s (account seen))
    (stepped : step capacity s action = some next) :
    Accounts capacity next (account (seen ++ (event s action).toList)) := by
  rw [account_append]
  obtain ⟨bound, offer, order⟩ := holds
  obtain ⟨queue, producer, consumer⟩ := s
  cases action with
  | offer value =>
    cases producer <;> simp only [step, reduceCtorEq, Option.some.injEq] at stepped
    rw [← stepped]
    refine ⟨bound, rfl, ?_⟩
    simpa [event, Account.add, Producer.settled] using order
  | produce =>
    cases producer <;> simp only [step, reduceCtorEq] at stepped
    rename_i value
    split at stepped
    · rename_i room
      rw [← Option.some.inj stepped]
      refine ⟨?_, offer, ?_⟩
      · rw [List.length_append]
        exact room
      · simp only [Producer.settled, List.append_nil] at order
        simp [event, Producer.settled, order]
    · rw [← Option.some.inj stepped]
      exact ⟨bound, offer, order⟩
  | conclude =>
    cases producer <;> simp only [step, reduceCtorEq, Option.some.injEq] at stepped
    rename_i value accepted
    rw [← stepped]
    cases accepted with
    | true =>
      refine ⟨bound, rfl, ?_⟩
      simp only [Producer.settled] at order
      simpa [event, Account.add, Producer.settled, offer, Producer.offer] using order
    | false =>
      refine ⟨bound, rfl, ?_⟩
      simpa [event, Account.add, Producer.settled] using order
  | ask =>
    cases consumer <;> simp only [step, reduceCtorEq, Option.some.injEq] at stepped
    rw [← stepped]
    exact ⟨bound, offer, order⟩
  | consume =>
    cases consumer <;> simp only [step, reduceCtorEq, Option.some.injEq] at stepped
    rw [← stepped]
    cases queue with
    | nil => exact ⟨bound, offer, order⟩
    | cons value rest =>
      refine ⟨Nat.le_of_succ_le bound, offer, ?_⟩
      simpa [event, Consumer.settled] using order
  | answer =>
    cases consumer <;> simp only [step, reduceCtorEq, Option.some.injEq] at stepped
    rename_i value
    rw [← stepped]
    refine ⟨bound, offer, ?_⟩
    cases value <;> simpa [event, Account.add, Consumer.settled] using order

theorem accounts_run {capacity : Nat} {final : State α} {actions : List (Action α)}
    (ran : (observed α capacity).machine.run (observed α capacity).machine.start actions =
      some final) :
    Accounts capacity final
      (account ((observed α capacity).trace (observed α capacity).machine.start actions)) := by
  have initial : Accounts capacity (observed α capacity).machine.start (account []) :=
    ⟨Nat.zero_le _, rfl, rfl⟩
  exact @Observed.trace_invariant _ _ _ (observed α capacity) _ _ _
    (fun s seen => Accounts capacity s (account seen)) [] initial accounts_step ran

theorem Accounts.delivered_prefix {capacity : Nat} {s : State α} {a : Account α}
    (holds : Accounts capacity s a) : a.delivered <+: a.accepted ++ a.offer.toList := by
  have begins : a.delivered <+: a.accepted ++ s.producer.settled := by
    rw [holds.order, List.append_assoc]
    exact List.prefix_append _ _
  apply begins.trans
  rw [holds.offer]
  cases s.producer with
  | idle => exact List.prefix_rfl
  | offering value => exact ⟨[value], by simp [Producer.settled, Producer.offer]⟩
  | done value accepted =>
    cases accepted with
    | true => exact List.prefix_rfl
    | false => exact ⟨[value], by simp [Producer.settled, Producer.offer]⟩

theorem Accounts.accepted_le {capacity : Nat} {s : State α} {a : Account α}
    (holds : Accounts capacity s a) : a.accepted.length ≤ a.delivered.length + 1 + capacity := by
  have lengths := congrArg List.length holds.order
  have bound := holds.bound
  have settled : s.consumer.settled.length ≤ 1 := by
    unfold Consumer.settled
    split <;> simp
  simp only [List.length_append] at lengths
  omega

end AtomicQueue
