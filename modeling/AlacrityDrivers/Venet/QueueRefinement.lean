import AlacrityDrivers.Library.Transition
import AlacrityDrivers.Venet.Queue

namespace Venet.QueueRefinement

open LinkedList Transition

/-- The loop of `VenetSendNetBufs`: the link of an NBL is read before the queue overwrites it. `none`
    where the loop is not over after that many passes. -/
def enqueLoop : Nat → Option Nat → QueueMemory → Option QueueMemory
  | _, none, m => some m
  | 0, some _, _ => none
  | passes + 1, some curr, m =>
    let next := m.next curr
    enqueLoop passes next (queueEnqueTail m curr)

/-- The queue in memory, and the list that it stands for. -/
structure State where
  memory : QueueMemory
  nbls : List Nat

/-- The calls on the queue, with the NBLs of a send list, and the writes to links that the owner of an
    NBL makes while it is not queued. -/
inductive Action where
  | enqueTail (nbl : Nat)
  | enqueHead (nbl : Nat)
  | deque
  | sendNetBufs (sendList : Option Nat) (chain : List Nat)
  | relink (nbl : Nat) (target : Option Nat)

def Allowed (s : State) : Action → Prop
  | .enqueTail nbl => nbl ∉ s.nbls
  | .enqueHead nbl => nbl ∉ s.nbls
  | .deque => s.nbls ≠ []
  | .sendNetBufs sendList chain =>
    Segment s.memory.next sendList chain none ∧ (s.nbls ++ chain).Nodup
  | .relink nbl _ => nbl ∉ s.nbls

instance (s : State) (action : Action) : Decidable (Allowed s action) :=
  match action with
  | .enqueTail nbl => inferInstanceAs (Decidable (nbl ∉ s.nbls))
  | .enqueHead nbl => inferInstanceAs (Decidable (nbl ∉ s.nbls))
  | .deque => inferInstanceAs (Decidable (s.nbls ≠ []))
  | .sendNetBufs sendList chain =>
    inferInstanceAs (Decidable (Segment s.memory.next sendList chain none ∧ (s.nbls ++ chain).Nodup))
  | .relink nbl _ => inferInstanceAs (Decidable (nbl ∉ s.nbls))

def memoryAfter (m : QueueMemory) : Action → Option QueueMemory
  | .enqueTail nbl => some (queueEnqueTail m nbl)
  | .enqueHead nbl => some (queueEnqueHead m nbl)
  | .deque => some (queueDeque m).2
  | .sendNetBufs sendList chain => enqueLoop chain.length sendList m
  | .relink nbl target => some { m with next := Function.update m.next nbl target }

def listAfter (nbls : List Nat) : Action → List Nat
  | .enqueTail nbl => nbls ++ [nbl]
  | .enqueHead nbl => nbl :: nbls
  | .deque => nbls.tail
  | .sendNetBufs _ chain => nbls ++ chain
  | .relink _ _ => nbls

def touched : Action → List Nat
  | .enqueTail nbl => [nbl]
  | .enqueHead nbl => [nbl]
  | .deque => []
  | .sendNetBufs _ chain => chain
  | .relink nbl _ => [nbl]

def step (s : State) (action : Action) : Option State :=
  if Allowed s action then
    (memoryAfter s.memory action).map fun memory => ⟨memory, listAfter s.nbls action⟩
  else none

/-- `QueueInit`, with the links of the NBLs as they happen to be. -/
def machine (next : Nat → Option Nat) : Machine State Action where
  start := ⟨⟨next, .init⟩, []⟩
  step := step

section Calls

variable {m : QueueMemory} {nbls chain : List Nat} {nbl other : Nat} {s : State} {action : Action}

theorem enqueTail_frame (holds : m.Holds nbls) (outside : other ∉ nbls) (apart : other ≠ nbl) :
    (queueEnqueTail m nbl).next other = m.next other := by
  by_cases empty : queueEmpty m.queue = true
  · simp only [queueEnqueTail, if_pos empty]
    exact Function.update_of_ne apart _ _
  · simp only [queueEnqueTail, if_neg empty]
    cases last : m.queue.tail with
    | none => exact Function.update_of_ne apart _ _
    | some tail =>
      have among : tail ∈ nbls := by
        rw [holds.tail] at last
        exact List.mem_of_getLast? last
      have different : other ≠ tail := fun same => outside (same ▸ among)
      change Function.update (Function.update m.next nbl none) tail (some nbl) other = m.next other
      rw [Function.update_of_ne different, Function.update_of_ne apart]

theorem enqueHead_frame (apart : other ≠ nbl) : (queueEnqueHead m nbl).next other = m.next other :=
  Function.update_of_ne apart _ _

theorem deque_frame (holds : m.Holds nbls) (outside : other ∉ nbls) :
    (queueDeque m).2.next other = m.next other := by
  unfold queueDeque
  split
  · rfl
  · rename_i curr first
    have among : curr ∈ nbls := by
      have head : nbls.head? = some curr := holds.chain.first_eq.symm.trans first
      exact List.mem_of_mem_head? head
    have different : other ≠ curr := fun same => outside (same ▸ among)
    exact Function.update_of_ne different _ _

theorem enqueLoop_chain {sendList : Option Nat} (holds : m.Holds nbls)
    (linked : Segment m.next sendList chain none) (nodup : (nbls ++ chain).Nodup) (passes : Nat)
    (enough : chain.length ≤ passes) :
    enqueLoop passes sendList m = some (chain.foldl queueEnqueTail m) := by
  induction chain generalizing m nbls sendList passes with
  | nil =>
    rw [segment_nil] at linked
    rw [linked, enqueLoop, List.foldl_nil]
  | cons nbl rest ih =>
    rcases linked with ⟨starts, linked⟩
    cases passes with
    | zero => exact absurd enough (Nat.not_succ_le_zero _)
    | succ passes =>
      have regroup : nbls ++ nbl :: rest = (nbls ++ [nbl]) ++ rest := by simp
      rw [regroup] at nodup
      rcases List.nodup_append.mp nodup with ⟨front, _, apart⟩
      have fresh : nbl ∉ nbls := by
        rw [List.nodup_append_comm] at front
        exact (List.nodup_cons.mp front).1
      have kept : Segment (queueEnqueTail m nbl).next (m.next nbl) rest none := by
        apply linked.congr
        intro other later
        have outside : other ∉ nbls := by
          intro queued
          exact apart other (List.mem_append_left _ queued) other later rfl
        have different : other ≠ nbl := by
          intro same
          exact apart other (by simp [same]) other later rfl
        exact enqueTail_frame holds outside different
      rw [starts, enqueLoop, List.foldl_cons]
      exact ih (holds.enqueTail fresh) kept nodup passes (Nat.le_of_succ_le_succ enough)

theorem enqueChain_frame (holds : m.Holds nbls) (nodup : (nbls ++ chain).Nodup)
    (outside : other ∉ nbls) (apart : other ∉ chain) :
    (chain.foldl queueEnqueTail m).next other = m.next other := by
  induction chain generalizing m nbls with
  | nil => rfl
  | cons nbl rest ih =>
    rw [List.mem_cons, not_or] at apart
    have regroup : nbls ++ nbl :: rest = (nbls ++ [nbl]) ++ rest := by simp
    rw [regroup] at nodup
    have front := (List.nodup_append.mp nodup).1
    rw [List.nodup_append_comm] at front
    have fresh : nbl ∉ nbls := (List.nodup_cons.mp front).1
    have beyond : other ∉ nbls ++ [nbl] := by
      rw [List.mem_append, List.mem_singleton, not_or]
      exact ⟨outside, apart.1⟩
    rw [List.foldl_cons, ih (holds.enqueTail fresh) nodup beyond apart.2]
    exact enqueTail_frame holds outside apart.1

theorem call_refines (holds : s.memory.Holds s.nbls) (allowed : Allowed s action) :
    ∃ memory, memoryAfter s.memory action = some memory ∧ memory.Holds (listAfter s.nbls action) ∧
      ∀ other, other ∉ s.nbls → other ∉ touched action → memory.next other = s.memory.next other := by
  cases action with
  | enqueTail nbl =>
    refine ⟨_, rfl, holds.enqueTail allowed, ?_⟩
    intro other outside apart
    exact enqueTail_frame holds outside (List.ne_of_not_mem_cons apart)
  | enqueHead nbl =>
    refine ⟨_, rfl, holds.enqueHead allowed, ?_⟩
    intro other _ apart
    exact enqueHead_frame (List.ne_of_not_mem_cons apart)
  | deque =>
    refine ⟨_, rfl, ?_, fun other outside _ => deque_frame holds outside⟩
    cases shape : s.nbls with
    | nil => exact absurd shape allowed
    | cons nbl rest =>
      rw [shape] at holds
      exact holds.deque.2
  | sendNetBufs sendList chain =>
    rcases allowed with ⟨linked, nodup⟩
    refine ⟨_, enqueLoop_chain holds linked nodup _ (Nat.le_refl _), holds.enqueChain chain nodup, ?_⟩
    intro other outside apart
    exact enqueChain_frame holds nodup outside apart
  | relink nbl target =>
    refine ⟨_, rfl, holds.frame allowed target, ?_⟩
    intro other _ apart
    exact Function.update_of_ne (List.ne_of_not_mem_cons apart) _ _

theorem holds_preserved (s : State) (action : Action) (next : State)
    (holds : s.memory.Holds s.nbls) (stepped : step s action = some next) :
    next.memory.Holds next.nbls := by
  simp only [step, Option.ite_none_right_eq_some] at stepped
  rcases call_refines holds stepped.1 with ⟨memory, called, after, _⟩
  rw [called, Option.map_some, Option.some.injEq] at stepped
  rw [← stepped.2]
  exact after

end Calls

/-- The queue in memory is the list after any calls: its links pass the list and end at `NULL`, its
    tail is the last NBL, and no call writes the link of an NBL that it was not given and that is not
    queued. -/
theorem send_queue_refines (next : Nat → Option Nat) (s : State)
    (reached : (machine next).Reachable s) :
    Segment s.memory.next s.memory.queue.head s.nbls none ∧
      s.memory.queue.tail = s.nbls.getLast? ∧ s.nbls.Nodup ∧
      (s.memory.queue.tail = none ↔ queueEmpty s.memory.queue = true) ∧
      (s.nbls ≠ [] → (queueDeque s.memory).1 = s.nbls.head?) ∧
      ∀ action, Allowed s action → ∃ after, step s action = some after ∧
        after.nbls = listAfter s.nbls action ∧
        ∀ other, other ∉ s.nbls → other ∉ touched action →
          after.memory.next other = s.memory.next other := by
  have holds : s.memory.Holds s.nbls := by
    apply Machine.Reachable.invariant reached (holds_init next)
    exact holds_preserved
  refine ⟨holds.chain, holds.tail, holds.nodup, ?_, ?_, ?_⟩
  · rw [holds.empty_iff, holds.tail, List.getLast?_eq_none_iff]
  · intro notEmpty
    cases shape : s.nbls with
    | nil => exact absurd shape notEmpty
    | cons nbl rest =>
      rw [shape] at holds
      exact holds.deque.1
  · intro action allowed
    rcases call_refines holds allowed with ⟨memory, called, _, frame⟩
    refine ⟨⟨memory, listAfter s.nbls action⟩, ?_, rfl, frame⟩
    rw [step, if_pos allowed, called]
    rfl

def requeue : List Action :=
  [.relink 1 (some 2), .sendNetBufs (some 1) [1, 2], .deque, .enqueHead 1]

theorem send_queue_refines_requeue :
    let m := machine fun _ => none
    let s := (m.run m.start requeue).get (by decide)
    Segment s.memory.next s.memory.queue.head [1, 2] none ∧ s.memory.queue.tail = some 2 := by
  have refines := send_queue_refines (fun _ => none) _ (Machine.reachable_get requeue (by decide))
  exact ⟨refines.1, refines.2.1⟩

end Venet.QueueRefinement
