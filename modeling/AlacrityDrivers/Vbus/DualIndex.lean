import Mathlib.Data.List.Infix
import AlacrityDrivers.Library.Transition
import AlacrityDrivers.Vbus.RingWindow

namespace Vbus.DualIndex

open Transition Circular

def outstanding (head : RingHead) (size : RingSize) (slot : IdxSlot) : List Nat :=
  (List.range (ioqCount head size slot)).map fun k => ((head.idx slot).head + k) % size.count

/-- The ring, and the descriptors of the successful operations in order: pushed by the north, popped
    from the in-use index by the south, reclaimed from the valid index by the north. -/
structure State where
  head : RingHead
  pushed : List Nat
  popped : List Nat
  reclaimed : List Nat

inductive Action where
  | northPush
  | southPop
  | northPop

def northPush (size : RingSize) (head : RingHead) : Option IterResult :=
  (ioqIterInit ⟨.north, size⟩ .both .zero).map fun iter =>
    ioqIterPush head (ioqIterSeek head iter .tail 0).2

def southPop (size : RingSize) (autoupdate : Bool) (head : RingHead) : Option IterResult :=
  (ioqIterInit ⟨.south, size⟩ .inuse ⟨autoupdate, false⟩).map fun iter =>
    ioqIterPop head (ioqIterSeek head iter .head 0).2

def northPop (size : RingSize) (autoupdate : Bool) (head : RingHead) : Option IterResult :=
  (ioqIterInit ⟨.north, size⟩ .valid ⟨autoupdate, true⟩).map fun iter =>
    ioqIterPop head (ioqIterSeek head iter .head 0).2

def logged (log : List Nat) (result : IterResult) (desc : Nat) : List Nat :=
  if result.ret < 0 then log else log ++ [desc]

/-- `southUpdate` and `northUpdate` say whether the two popping iterators carry
    `IOQ_ITER_AUTOUPDATE`. -/
def step (size : RingSize) (southUpdate northUpdate : Bool) (s : State) : Action → Option State
  | .northPush =>
    if ioqFull s.head .valid then none
    else (northPush size s.head).map fun result =>
      { s with head := result.head, pushed := logged s.pushed result (s.head.idx .valid).tail }
  | .southPop => (southPop size southUpdate s.head).map fun result =>
      { s with head := result.head, popped := logged s.popped result (s.head.idx .inuse).head }
  | .northPop =>
    if ioqEmpty s.head size .valid then none
    else (northPop size northUpdate s.head).map fun result =>
      { s with head := result.head, reclaimed := logged s.reclaimed result (s.head.idx .valid).head }

def machine (size : RingSize) (southUpdate northUpdate : Bool) : Machine State Action :=
  ⟨⟨.zeroed, [], [], []⟩, step size southUpdate northUpdate⟩

def places (size : RingSize) (n : Nat) : List Nat := (List.range n).map (· % size.count)

theorem places_succ (size : RingSize) (n : Nat) :
    places size (n + 1) = places size n ++ [n % size.count] := by
  simp [places, List.range_succ]

theorem places_prefix (size : RingSize) {m n : Nat} (le : m ≤ n) :
    places size m <+: places size n := by
  induction le with
  | refl => exact List.prefix_rfl
  | step _ ih =>
    rw [places_succ]
    exact ih.trans (List.prefix_append _ _)

structure Nested (size : RingSize) (head : RingHead) (reclaimed popped pushed : Nat) : Prop where
  valid : (head.idx .valid).Tracks size reclaimed pushed
  inuse : OwnedWindow head size .inuse .south popped pushed
  nested : reclaimed ≤ popped

section Nested

variable {size : RingSize} {head : RingHead} {reclaimed popped pushed : Nat}

theorem Nested.tails (nested : Nested size head reclaimed popped pushed) :
    (head.idx .inuse).tail = (head.idx .valid).tail := by
  rw [nested.inuse.tracks.tail, nested.valid.tail]

def bothIter (size : RingSize) (pos : Nat) : IoqIterator :=
  { ioq := ⟨.north, size⟩, idx := .valid, pos := pos, desc := some pos, update := false,
    dualidx := true, flipowner := true }

theorem push_both (size : RingSize) (head : RingHead)
    (tails : (head.idx .inuse).tail = (head.idx .valid).tail)
    (owned : (head.ring (head.idx .valid).tail).sown = .north) :
    ioqIterPush head (bothIter size (head.idx .valid).tail) =
      finishIter ((head.setIdx .valid (idxTailPush (head.idx .valid) size.count)).setIdx .inuse
        (idxTailPush (head.idx .inuse) size.count)) (bothIter size (head.idx .valid).tail) := by
  simp [ioqIterPush, bothIter, IoqIterator.descSown, owned, idxTailPush_tail, tails]

def bothPushed (size : RingSize) (head : RingHead) : RingHead :=
  ((head.setIdx .valid (idxTailPush (head.idx .valid) size.count)).setIdx .inuse
    (idxTailPush (head.idx .inuse) size.count)).setSown (head.idx .valid).tail .south

theorem Nested.northPush (nested : Nested size head reclaimed popped pushed)
    (room : pushed < reclaimed + size.count) :
    ∃ result, DualIndex.northPush size head = some result ∧ result.ret = 0 ∧
      result.head = bothPushed size head := by
  have within := nested.nested
  have owned : (head.ring (head.idx .valid).tail).sown = .north := by
    rw [← nested.tails]
    apply Locality.eq_other .south
    intro taken
    have full := nested.inuse.tail_owner.mp taken
    omega
  refine ⟨_, rfl, ?_, ?_⟩
  · change (ioqIterPush head (bothIter size (head.idx .valid).tail)).ret = 0
    rw [push_both size head nested.tails owned]
    exact finishIter_ret _ _
  · change (ioqIterPush head (bothIter size (head.idx .valid).tail)).head = _
    rw [push_both size head nested.tails owned]
    rfl

theorem Nested.after_push (nested : Nested size head reclaimed popped pushed)
    (room : pushed < reclaimed + size.count) :
    Nested size (bothPushed size head) reclaimed popped (pushed + 1) := by
  have within := nested.nested
  refine ⟨?_, ⟨?_, ?_⟩, within⟩
  · have grown := nested.valid.push room
    simpa [bothPushed] using grown
  · have grown := nested.inuse.tracks.push (by omega)
    simpa [bothPushed] using grown
  · intro i inside
    have grown := nested.inuse.grow i inside
    rw [bothPushed, RingHead.setSown_sown, nested.valid.tail]
    exact grown

theorem Nested.southPop_empty (nested : Nested size head reclaimed popped pushed) (update : Bool)
    (empty : popped = pushed) :
    ∃ result, southPop size update head = some result ∧ result.ret = -1 ∧ result.head = head := by
  have foreign : (head.ring (head.idx .inuse).head).sown ≠ .south := by
    intro ready
    have nonempty := nested.inuse.head_owner.mp ready
    omega
  have refused := pop_refused head (iterAt ⟨.south, size⟩ .inuse ⟨update, false⟩ (head.idx .inuse).head)
    (Or.inr (by simpa [IoqIterator.descSown, iterAt] using foreign))
  exact ⟨_, congrArg some refused, rfl, rfl⟩

theorem Nested.southPop_ready (nested : Nested size head reclaimed popped pushed) (update : Bool)
    (nonempty : popped < pushed) :
    ∃ result, southPop size update head = some result ∧ result.ret = 0 ∧
      Nested size result.head reclaimed (popped + 1) pushed := by
  have ready := nested.inuse.head_owner.mpr nonempty
  have admitted := pop_admitted head
    (iterAt ⟨.south, size⟩ .inuse ⟨update, false⟩ (head.idx .inuse).head) rfl (congrArg some ready)
  have moved := nested.inuse.tracks.pop nonempty
  have within := nested.nested
  refine ⟨_, congrArg some admitted, finishIter_ret _ _, ⟨?_, ⟨?_, ?_⟩, by omega⟩⟩
  · simpa [iterAt] using nested.valid
  · simpa [iterAt] using moved
  · intro i inside
    have shrunk := nested.inuse.shrink i inside
    rw [finishIter_ring]
    change ((RingHead.setSown _ (head.idx .inuse).head .north).ring i).sown = .south ↔ _
    rw [RingHead.setSown_sown, nested.inuse.tracks.head]
    exact shrunk

theorem Nested.northPop_cases (nested : Nested size head reclaimed popped pushed) (update : Bool)
    (nonempty : reclaimed < pushed) :
    ∃ result, northPop size update head = some result ∧
      ((result.ret = -1 ∧ result.head = head) ∨
        (result.ret = 0 ∧ Nested size result.head (reclaimed + 1) popped pushed)) := by
  by_cases owned : (head.ring (head.idx .valid).head).sown = .north
  · have admitted := pop_admitted head
      (iterAt ⟨.north, size⟩ .valid ⟨update, true⟩ (head.idx .valid).head) rfl (congrArg some owned)
    have moved := nested.valid.pop nonempty
    have behind : reclaimed < popped := by
      by_contra caught
      have same : reclaimed = popped := Nat.le_antisymm nested.nested (by omega)
      have south := nested.inuse.head_owner.mpr (by omega)
      rw [nested.inuse.tracks.head, ← same, ← nested.valid.head, owned] at south
      exact absurd south (by decide)
    refine ⟨_, congrArg some admitted, Or.inr ⟨finishIter_ret _ _, ⟨?_, ⟨?_, ?_⟩, behind⟩⟩⟩
    · simpa [iterAt] using moved
    · simpa [iterAt] using nested.inuse.tracks
    · intro i inside
      rw [finishIter_ring]
      exact nested.inuse.owner i inside
  · have refused := pop_refused head
      (iterAt ⟨.north, size⟩ .valid ⟨update, true⟩ (head.idx .valid).head)
      (Or.inr (by simpa [IoqIterator.descSown, iterAt] using owned))
    exact ⟨_, congrArg some refused, Or.inl ⟨rfl, rfl⟩⟩

end Nested

structure Invariant (size : RingSize) (s : State) : Prop where
  nested : Nested size s.head s.reclaimed.length s.popped.length s.pushed.length
  pushed : s.pushed = places size s.pushed.length
  popped : s.popped = places size s.popped.length
  reclaimed : s.reclaimed = places size s.reclaimed.length

theorem places_append {size : RingSize} {log : List Nat} (known : log = places size log.length)
    {desc : Nat} (next : desc = log.length % size.count) :
    log ++ [desc] = places size (log ++ [desc]).length := by
  rw [List.length_append, List.length_singleton, places_succ, ← known, next]

section Invariant

variable {size : RingSize} {s : State} {southUpdate northUpdate : Bool}

theorem invariant_initial (size : RingSize) : Invariant size ⟨.zeroed, [], [], []⟩ := by
  refine ⟨⟨tracks_zero size, ⟨tracks_zero size, ?_⟩, Nat.le_refl _⟩, rfl, rfl, rfl⟩
  intro i _
  constructor
  · intro impossible
    cases impossible
  · intro impossible
    exact absurd impossible window_empty

theorem Invariant.room (holds : Invariant size s) (notFull : ioqFull s.head .valid = false) :
    s.pushed.length < s.reclaimed.length + size.count := by
  have bound := holds.nested.valid.bound
  by_contra full
  have set := holds.nested.valid.isFull.mpr (by omega)
  exact absurd (notFull.symm.trans set) Bool.false_ne_true

theorem Invariant.nonempty (holds : Invariant size s) (notEmpty : ioqEmpty s.head size .valid = false) :
    s.reclaimed.length < s.pushed.length := by
  have count := holds.nested.valid.count
  by_contra empty
  have zero : ioqCount s.head size .valid = 0 := count.trans (by omega)
  rw [ioqEmpty, zero] at notEmpty
  exact absurd notEmpty (by decide)

theorem invariant_step (s : State) (action : Action) (next : State) (holds : Invariant size s)
    (stepped : step size southUpdate northUpdate s action = some next) : Invariant size next := by
  cases action with
  | northPush =>
    simp only [step, Option.ite_none_left_eq_some, Option.map_eq_some_iff] at stepped
    obtain ⟨notFull, result, ran, stepped⟩ := stepped
    have room := holds.room (Bool.eq_false_of_not_eq_true notFull)
    obtain ⟨same, pushed, success, after⟩ := holds.nested.northPush room
    rw [ran, Option.some.injEq] at pushed
    subst pushed
    rw [← stepped, logged, success, if_neg (Int.lt_irrefl 0)]
    refine ⟨?_, places_append holds.pushed holds.nested.valid.tail, holds.popped, holds.reclaimed⟩
    rw [after, List.length_append]
    exact holds.nested.after_push room
  | southPop =>
    simp only [step, Option.map_eq_some_iff] at stepped
    obtain ⟨result, ran, stepped⟩ := stepped
    have le := holds.nested.inuse.tracks.le
    by_cases ready : s.popped.length < s.pushed.length
    · obtain ⟨same, popped, success, after⟩ := holds.nested.southPop_ready southUpdate ready
      rw [ran, Option.some.injEq] at popped
      subst popped
      rw [← stepped, logged, success, if_neg (Int.lt_irrefl 0)]
      refine ⟨?_, holds.pushed, places_append holds.popped holds.nested.inuse.tracks.head,
        holds.reclaimed⟩
      rw [List.length_append]
      exact after
    · obtain ⟨same, popped, failure, after⟩ := holds.nested.southPop_empty southUpdate (by omega)
      rw [ran, Option.some.injEq] at popped
      subst popped
      rw [← stepped, logged, failure, if_pos (by decide), after]
      exact holds
  | northPop =>
    simp only [step, Option.ite_none_left_eq_some, Option.map_eq_some_iff] at stepped
    obtain ⟨notEmpty, result, ran, stepped⟩ := stepped
    have nonempty := holds.nonempty (Bool.eq_false_of_not_eq_true notEmpty)
    obtain ⟨same, popped, either⟩ := holds.nested.northPop_cases northUpdate nonempty
    rw [ran, Option.some.injEq] at popped
    subst popped
    rcases either with ⟨failure, after⟩ | ⟨success, after⟩
    · rw [← stepped, logged, failure, if_pos (by decide), after]
      exact holds
    · rw [← stepped, logged, success, if_neg (Int.lt_irrefl 0)]
      refine ⟨?_, holds.pushed, holds.popped, places_append holds.reclaimed holds.nested.valid.head⟩
      rw [List.length_append]
      exact after

theorem reachable_invariant (reached : (machine size southUpdate northUpdate).Reachable s) :
    Invariant size s :=
  reached.invariant (invariant_initial size) invariant_step

end Invariant

theorem outstanding_tracks {head : RingHead} {size : RingSize} {slot : IdxSlot} {popped pushed : Nat}
    (tracks : (head.idx slot).Tracks size popped pushed) :
    outstanding head size slot = (List.range' popped (pushed - popped)).map (· % size.count) := by
  have count : ioqCount head size slot = pushed - popped := tracks.count
  rw [outstanding, count, tracks.head, List.range'_eq_map_range, List.map_map]
  apply List.map_congr_left
  intro k _
  exact Nat.mod_add_mod popped size.count k

theorem mem_outstanding {head : RingHead} {size : RingSize} {slot : IdxSlot} {popped pushed i : Nat}
    (tracks : (head.idx slot).Tracks size popped pushed) :
    i ∈ outstanding head size slot ↔ Window size.count popped pushed i := by
  have le := tracks.le
  rw [outstanding_tracks tracks, List.mem_map]
  constructor
  · intro present
    obtain ⟨j, inside, place⟩ := present
    rw [List.mem_range'_1] at inside
    exact ⟨j, inside.1, by omega, place⟩
  · intro inside
    obtain ⟨j, low, high, place⟩ := inside
    exact ⟨j, List.mem_range'_1.mpr ⟨low, by omega⟩, place⟩

theorem Nested.suffix {size : RingSize} {head : RingHead} {reclaimed popped pushed : Nat}
    (nested : Nested size head reclaimed popped pushed) :
    outstanding head size .inuse <:+ outstanding head size .valid := by
  have within := nested.nested
  have le := nested.inuse.tracks.le
  rw [outstanding_tracks nested.valid, outstanding_tracks nested.inuse.tracks]
  apply List.IsSuffix.map
  refine ⟨List.range' reclaimed (popped - reclaimed), ?_⟩
  have split := @List.range'_append_1 reclaimed (popped - reclaimed) (pushed - popped)
  rw [Nat.add_sub_cancel' within] at split
  rw [split]
  congr 1
  omega

/-- Every push that the valid index has room for succeeds, the tails agree, the in-use descriptors
    are the newest of the valid ones and exactly those of the south, and what the north reclaims
    the south has popped before, in the order of the pushes. -/
theorem dual_index_discipline (size : RingSize) (southUpdate northUpdate : Bool) (s : State)
    (reached : (machine size southUpdate northUpdate).Reachable s) :
    (ioqFull s.head .valid = false →
        ∃ result, northPush size s.head = some result ∧ result.ret = 0) ∧
      (s.head.idx .inuse).tail = (s.head.idx .valid).tail ∧
      outstanding s.head size .inuse <:+ outstanding s.head size .valid ∧
      (∀ i, i < size.count →
        (i ∈ outstanding s.head size .inuse ↔ (s.head.ring i).sown = .south)) ∧
      s.reclaimed <+: s.popped ∧ s.popped <+: s.pushed := by
  have holds := reachable_invariant reached
  refine ⟨?_, holds.nested.tails, holds.nested.suffix, ?_, ?_, ?_⟩
  · intro notFull
    obtain ⟨result, ran, success, _⟩ := holds.nested.northPush (holds.room notFull)
    exact ⟨result, ran, success⟩
  · intro i inside
    rw [mem_outstanding holds.nested.inuse.tracks]
    exact (holds.nested.inuse.owner i inside).symm
  · rw [holds.reclaimed, holds.popped]
    exact places_prefix size holds.nested.nested
  · rw [holds.popped, holds.pushed]
    exact places_prefix size holds.nested.inuse.tracks.le

def lap : List Action :=
  [.northPush, .northPush, .southPop, .northPop, .northPop, .northPush]

theorem dual_index_discipline_lap :
    let s := ((machine ⟨2, by decide, by decide⟩ false false).run
      (machine ⟨2, by decide, by decide⟩ false false).start lap).get (by decide)
    outstanding s.head ⟨2, by decide, by decide⟩ .inuse = [1, 0] ∧ s.reclaimed = [0] ∧
      (s.head.idx .inuse).tail = (s.head.idx .valid).tail := by
  have discipline := dual_index_discipline ⟨2, by decide, by decide⟩ false false _
    (Machine.reachable_get lap (by decide))
  exact ⟨by decide, by decide, discipline.2.1⟩

end Vbus.DualIndex
