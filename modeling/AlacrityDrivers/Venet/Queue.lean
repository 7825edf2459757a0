import Mathlib.Data.List.Infix
import AlacrityDrivers.Library.LinkedList

namespace Venet

open LinkedList

/-- `QUEUE_HEADER`. An NBL and the `QUEUE_ENTRY` at its start are one address, a number here. -/
structure QueueHeader where
  head : Option Nat
  tail : Option Nat
deriving DecidableEq, Repr

def QueueHeader.init : QueueHeader := ⟨none, none⟩

/-- A queue together with the `Next` fields of all NBLs. -/
structure QueueMemory where
  next : Nat → Option Nat
  queue : QueueHeader

def queueEmpty (queue : QueueHeader) : Bool := queue.head.isNone

/-- `QueueDeque`: the entry removed, which is `NULL` only where the source assumes it is not. -/
def queueDeque (m : QueueMemory) : Option Nat × QueueMemory :=
  match m.queue.head with
  | none => (none, m)
  | some curr =>
    let head := m.next curr
    (some curr,
      { next := Function.update m.next curr none
        queue := { head := head, tail := if head = none then none else m.queue.tail } })

def queueEnqueTail (m : QueueMemory) (e : Nat) : QueueMemory :=
  let next := Function.update m.next e none
  if queueEmpty m.queue then { next := next, queue := ⟨some e, some e⟩ }
  else
    { next := match m.queue.tail with
        | some tail => Function.update next tail (some e)
        | none => next
      queue := { m.queue with tail := some e } }

def queueEnqueHead (m : QueueMemory) (e : Nat) : QueueMemory :=
  { next := Function.update m.next e m.queue.head
    queue := ⟨some e, if m.queue.tail = none then some e else m.queue.tail⟩ }

/-- The queue holds `nbls`, in order and each once. -/
structure QueueMemory.Holds (m : QueueMemory) (nbls : List Nat) : Prop where
  chain : Segment m.next m.queue.head nbls none
  tail : m.queue.tail = nbls.getLast?
  nodup : nbls.Nodup

section Holds

variable {m : QueueMemory} {nbls : List Nat} {nbl : Nat}

theorem holds_init (next : Nat → Option Nat) : QueueMemory.Holds ⟨next, .init⟩ [] :=
  ⟨rfl, rfl, List.nodup_nil⟩

theorem QueueMemory.Holds.empty_iff (holds : m.Holds nbls) : queueEmpty m.queue = true ↔ nbls = [] := by
  rw [queueEmpty, holds.chain.first_eq]
  cases nbls <;> simp

theorem QueueMemory.Holds.frame (holds : m.Holds nbls) (outside : nbl ∉ nbls) (target : Option Nat) :
    QueueMemory.Holds { m with next := Function.update m.next nbl target } nbls :=
  ⟨holds.chain.update outside target, holds.tail, holds.nodup⟩

theorem QueueMemory.Holds.deque (holds : m.Holds (nbl :: nbls)) :
    (queueDeque m).1 = some nbl ∧ (queueDeque m).2.Holds nbls := by
  rcases holds.chain with ⟨starts, rest⟩
  rcases List.nodup_cons.mp holds.nodup with ⟨fresh, nodup⟩
  have head := rest.first_eq
  simp only [queueDeque, starts]
  refine ⟨trivial, ?_, ?_, nodup⟩
  · exact rest.update fresh none
  · change (if m.next nbl = none then none else m.queue.tail) = nbls.getLast?
    rw [head, holds.tail]
    cases nbls <;> simp

theorem QueueMemory.Holds.enqueHead (holds : m.Holds nbls) (fresh : nbl ∉ nbls) :
    (queueEnqueHead m nbl).Holds (nbl :: nbls) := by
  refine ⟨⟨rfl, ?_⟩, ?_, List.nodup_cons.mpr ⟨fresh, holds.nodup⟩⟩
  · simp only [queueEnqueHead, Function.update_self]
    exact holds.chain.update fresh _
  · simp only [queueEnqueHead, holds.tail]
    cases nbls <;> simp

theorem QueueMemory.Holds.enqueTail (holds : m.Holds nbls) (fresh : nbl ∉ nbls) :
    (queueEnqueTail m nbl).Holds (nbls ++ [nbl]) := by
  have nodup : (nbls ++ [nbl]).Nodup := by
    rw [List.nodup_append_comm]
    exact List.nodup_cons.mpr ⟨fresh, holds.nodup⟩
  have framed := (holds.frame fresh none).chain
  by_cases empty : nbls = []
  · have isEmpty := holds.empty_iff.mpr empty
    subst empty
    simp only [queueEnqueTail, isEmpty, if_true]
    refine ⟨⟨rfl, ?_⟩, rfl, nodup⟩
    simp only [Function.update_self]
    exact rfl
  · have notEmpty : queueEmpty m.queue ≠ true := fun set => empty (holds.empty_iff.mp set)
    rcases List.eq_nil_or_concat nbls |>.resolve_left empty with ⟨front, last, shape⟩
    rw [List.concat_eq_append] at shape
    subst shape
    have tail : m.queue.tail = some last := by simpa using holds.tail
    have unique := holds.nodup
    rw [List.nodup_append_comm] at unique
    have different : nbl ≠ last := by
      intro same
      exact fresh (by simp [same])
    simp only [queueEnqueTail, if_neg notEmpty, tail]
    refine ⟨?_, by simp, nodup⟩
    rw [segment_append]
    refine ⟨some nbl, framed.redirect (List.nodup_cons.mp unique).1 (some nbl), rfl, ?_⟩
    change Function.update (Function.update m.next nbl none) last (some nbl) nbl = none
    rw [Function.update_of_ne different, Function.update_self]

theorem QueueMemory.Holds.enqueChain (holds : m.Holds nbls) (chain : List Nat)
    (nodup : (nbls ++ chain).Nodup) : (chain.foldl queueEnqueTail m).Holds (nbls ++ chain) := by
  induction chain generalizing m nbls with
  | nil =>
    rw [List.append_nil]
    exact holds
  | cons nbl rest ih =>
    have fresh : nbl ∉ nbls := by
      intro present
      exact (List.nodup_append.mp nodup).2.2 nbl present nbl List.mem_cons_self rfl
    have regroup : nbls ++ nbl :: rest = (nbls ++ [nbl]) ++ rest := by simp
    rw [regroup] at nodup ⊢
    exact ih (holds.enqueTail fresh) nodup

end Holds

end Venet
