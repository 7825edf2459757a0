import AlacrityDrivers.Library.Transition
import AlacrityDrivers.Vbus.RingWindow

namespace Vbus.Occupancy

open Transition

/-- A ring shared by any number of iterators of both localities, and the successful operations on
    each index. -/
structure State where
  head : RingHead
  iters : Nat → Option IoqIterator
  pushes : IdxSlot → Nat
  pops : IdxSlot → Nat

inductive Action where
  | init (id : Nat) (locale : Locality) (slot : IdxSlot) (flags : IterFlags)
  | seek (id : Nat) (type : IoqSeekType) (offset : Int)
  | push (id : Nat)
  | pop (id : Nat)

def IdxSlot.type : IdxSlot → IoqIdxType
  | .valid => .valid
  | .inuse => .inuse

def State.setIter (s : State) (id : Nat) (iter : IoqIterator) : State :=
  { s with iters := Function.update s.iters id (some iter) }

def tally (counts : IdxSlot → Nat) (slot : IdxSlot) (ret : Int) : IdxSlot → Nat :=
  if ret < 0 then counts else Function.update counts slot (counts slot + 1)

def push (s : State) (id : Nat) (iter : IoqIterator) : State :=
  let result := ioqIterPush s.head iter
  { s.setIter id result.iter with
    head := result.head
    pushes := tally s.pushes iter.idx result.ret }

def pop (s : State) (id : Nat) (iter : IoqIterator) : State :=
  let result := ioqIterPop s.head iter
  { s.setIter id result.iter with
    head := result.head
    pops := tally s.pops iter.idx result.ret }

def step (size : RingSize) (s : State) : Action → Option State
  | .init id locale slot flags => (ioqIterInit ⟨locale, size⟩ (IdxSlot.type slot) flags).map (s.setIter id)
  | .seek id type offset =>
    (s.iters id).map fun iter => s.setIter id (ioqIterSeek s.head iter type offset).2
  | .push id => (s.iters id).map (push s id)
  | .pop id => (s.iters id).map (pop s id)

def machine (size : RingSize) : Machine State Action :=
  ⟨⟨.zeroed, fun _ => none, fun _ => 0, fun _ => 0⟩, step size⟩

/-- `ioq_count` of each index is its successful pushes minus its successful pops. -/
def Agrees (size : RingSize) (s : State) : Prop :=
  ∀ slot, s.pops slot ≤ s.pushes slot ∧ s.pushes slot - s.pops slot ≤ size.count ∧
    ioqCount s.head size slot = s.pushes slot - s.pops slot

/-- A push that is about to succeed finds its index not full, a pop finds it not empty. -/
def Guarded (size : RingSize) (s : State) : Action → Prop
  | .push id => ∀ iter, s.iters id = some iter → (ioqIterPush s.head iter).ret = 0 →
      ioqFull s.head iter.idx = false
  | .pop id => ∀ iter, s.iters id = some iter → (ioqIterPop s.head iter).ret = 0 →
      ioqEmpty s.head size iter.idx = false
  | _ => True

structure OnRing (iter : IoqIterator) (size : RingSize) : Prop where
  size : iter.ioq.size = size
  single : iter.dualidx = false

structure Counted (size : RingSize) (s : State) : Prop where
  tracks : ∀ slot, (s.head.idx slot).Tracks size (s.pops slot) (s.pushes slot)
  iters : ∀ id iter, s.iters id = some iter → OnRing iter size

section Iterator

variable {size : RingSize} {iter : IoqIterator} {head : RingHead}

theorem OnRing.setpos (known : OnRing iter size) (pos : Nat) : OnRing (ioqIterSetpos iter pos) size :=
  ⟨known.size, known.single⟩

theorem OnRing.seek (known : OnRing iter size) (type : IoqSeekType) (offset : Int) :
    OnRing (ioqIterSeek head iter type offset).2 size := by
  cases type with
  | tail => exact known.setpos _
  | next => exact known.setpos _
  | head => exact known.setpos _
  | set =>
    simp only [ioqIterSeek]
    split
    · exact known
    · exact known.setpos _

end Iterator

theorem tally_success (counts : IdxSlot → Nat) (slot other : IdxSlot) :
    tally counts slot 0 other = if other = slot then counts slot + 1 else counts other := by
  rw [tally, if_neg (Int.lt_irrefl 0), Function.update_apply]

section Step

variable {size : RingSize} {s : State} {id : Nat} {iter : IoqIterator}

theorem Counted.agrees (counted : Counted size s) : Agrees size s := by
  intro slot
  have tracks := counted.tracks slot
  have bound := tracks.bound
  exact ⟨tracks.le, by omega, tracks.count⟩

theorem counted_initial (size : RingSize) : Counted size (machine size).start := by
  refine ⟨fun _ => tracks_zero size, ?_⟩
  intro id iter impossible
  cases impossible

theorem Counted.setIter (counted : Counted size s) (id : Nat) (known : OnRing iter size) :
    Counted size (s.setIter id iter) := by
  refine ⟨counted.tracks, ?_⟩
  intro other found present
  simp only [State.setIter, Function.update_apply] at present
  split at present
  · rw [← Option.some.inj present]
    exact known
  · exact counted.iters other found present

theorem Counted.moved (counted : Counted size s) (id : Nat) {next : State} (slot : IdxSlot) (idx : RingIdx)
    (known : OnRing iter size) (iters : next.iters = Function.update s.iters id (some iter))
    (place : next.head.idx = Function.update s.head.idx slot idx)
    (tracks : idx.Tracks size (next.pops slot) (next.pushes slot))
    (others : ∀ other, other ≠ slot →
      next.pops other = s.pops other ∧ next.pushes other = s.pushes other) :
    Counted size next := by
  refine ⟨?_, ?_⟩
  · intro other
    by_cases same : other = slot
    · subst same
      rw [place, Function.update_self]
      exact tracks
    · rw [place, Function.update_of_ne same, (others other same).1, (others other same).2]
      exact counted.tracks other
  · intro other found present
    have before := (counted.setIter id known).iters other found
    rw [iters] at present
    exact before present

theorem Counted.push (counted : Counted size s) (present : s.iters id = some iter)
    (guarded : (ioqIterPush s.head iter).ret = 0 → ioqFull s.head iter.idx = false) :
    Counted size (push s id iter) := by
  have known := counted.iters id iter present
  have tracks := counted.tracks iter.idx
  rcases push_cases known.single with ⟨standing, result⟩ | ⟨_, result⟩
  · have notFull := guarded ((push_succeeds_iff known.single).mpr standing)
    have bound := tracks.bound
    have room : s.pushes iter.idx < s.pops iter.idx + size.count := by
      by_contra full
      have set := tracks.isFull.mpr (by omega)
      exact absurd (notFull.symm.trans set) Bool.false_ne_true
    refine counted.moved id iter.idx (idxTailPush (s.head.idx iter.idx) size.count)
      (known.setpos (moduloInc iter.pos iter.ioq.size.count)) ?_ ?_ ?_ ?_
    · simp [Occupancy.push, result, State.setIter]
    · simp [Occupancy.push, result, RingHead.setIdx, known.size]
    · have grown := tracks.push room
      simpa [Occupancy.push, result, tally_success, State.setIter] using grown
    · intro other different
      simp [Occupancy.push, result, tally_success, State.setIter, different]
  · have unchanged : Occupancy.push s id iter = s.setIter id iter := by
      simp [Occupancy.push, result, tally, State.setIter]
    rw [unchanged]
    exact counted.setIter id known

theorem Counted.pop (counted : Counted size s) (present : s.iters id = some iter)
    (guarded : (ioqIterPop s.head iter).ret = 0 → ioqEmpty s.head size iter.idx = false) :
    Counted size (pop s id iter) := by
  have known := counted.iters id iter present
  have tracks := counted.tracks iter.idx
  rcases pop_cases s.head iter with ⟨standing, result⟩ | ⟨_, result⟩
  · have notEmpty := guarded ((pop_succeeds_iff s.head iter).mpr standing)
    have nonempty : s.pops iter.idx < s.pushes iter.idx := by
      by_contra empty
      have zero : ioqCount s.head size iter.idx = 0 := tracks.count.trans (by omega)
      rw [ioqEmpty, zero] at notEmpty
      exact absurd notEmpty (by decide)
    refine counted.moved id iter.idx (idxHeadPop (s.head.idx iter.idx) size.count)
      (known.setpos (moduloInc iter.pos iter.ioq.size.count)) ?_ ?_ ?_ ?_
    · simp [Occupancy.pop, result, State.setIter]
    · simp [Occupancy.pop, result, RingHead.setIdx, known.size]
    · have shrunk := tracks.pop nonempty
      simpa [Occupancy.pop, result, tally_success, State.setIter] using shrunk
    · intro other different
      simp [Occupancy.pop, result, tally_success, State.setIter, different]
  · have unchanged : Occupancy.pop s id iter = s.setIter id iter := by
      simp [Occupancy.pop, result, tally, State.setIter]
    rw [unchanged]
    exact counted.setIter id known

theorem guarded_preserved (s : State) (action : Action) (next : State) (counted : Counted size s)
    (guarded : Guarded size s action) (stepped : step size s action = some next) :
    Counted size next := by
  cases action with
  | init id locale slot flags =>
    simp only [step, Option.map_eq_some_iff] at stepped
    obtain ⟨iter, initialised, stepped⟩ := stepped
    rw [← stepped]
    have known : OnRing iter size := by
      cases slot with
      | valid => exact Option.some.inj initialised ▸ ⟨rfl, rfl⟩
      | inuse => exact Option.some.inj initialised ▸ ⟨rfl, rfl⟩
    exact counted.setIter id known
  | seek id type offset =>
    simp only [step, Option.map_eq_some_iff] at stepped
    obtain ⟨iter, present, stepped⟩ := stepped
    rw [← stepped]
    exact counted.setIter id ((counted.iters id iter present).seek type offset)
  | push id =>
    simp only [step, Option.map_eq_some_iff] at stepped
    obtain ⟨iter, present, stepped⟩ := stepped
    rw [← stepped]
    exact counted.push present (guarded iter present)
  | pop id =>
    simp only [step, Option.map_eq_some_iff] at stepped
    obtain ⟨iter, present, stepped⟩ := stepped
    rw [← stepped]
    exact counted.pop present (guarded iter present)

theorem guarded_forced (s : State) (action : Action) (counted : Counted size s)
    (agrees : ∀ next, step size s action = some next → Agrees size next) : Guarded size s action := by
  cases action with
  | init id locale slot flags => exact True.intro
  | seek id type offset => exact True.intro
  | push id =>
    intro iter present success
    have tracks := counted.tracks iter.idx
    have known := counted.iters id iter present
    by_contra full
    have last := tracks.isFull.mp (Bool.eq_true_of_not_eq_false full)
    have range := (agrees (push s id iter) (by simp [step, present]) iter.idx).2.1
    simp only [push, success, tally_success, State.setIter, if_true] at range
    omega
  | pop id =>
    intro iter present success
    have tracks := counted.tracks iter.idx
    have le := tracks.le
    by_contra empty
    have zero : ioqCount s.head size iter.idx = 0 := by
      have set := Bool.eq_true_of_not_eq_false empty
      rw [ioqEmpty, beq_iff_eq] at set
      exact set
    have none := tracks.count.symm.trans zero
    have range := (agrees (pop s id iter) (by simp [step, present]) iter.idx).1
    simp only [pop, success, tally_success, State.setIter, if_true] at range
    omega

end Step

/-- A push or pop is admitted by position and ownership alone, so the reported occupancy is right
    throughout exactly those runs whose operations mind it themselves. -/
theorem occupancy_agrees (size : RingSize) (actions : List Action) :
    ((machine size).Throughout (Agrees size) (machine size).start actions ↔
        (machine size).Meets (Guarded size) (machine size).start actions) ∧
      ∀ (head : RingHead) (iter : IoqIterator), OnRing iter size →
        ((ioqIterPush head iter).ret = 0 ↔ AtTail head iter) ∧
          ((ioqIterPop head iter).ret = 0 ↔ AtHead head iter) := by
  have shown : ∀ s, Counted size s → Agrees size s := fun _ counted => counted.agrees
  have guards := Machine.throughout_iff_meets (m := machine size) shown guarded_preserved guarded_forced
    (counted_initial size) actions
  exact ⟨guards, fun head iter known =>
    ⟨push_succeeds_iff known.single, pop_succeeds_iff head iter⟩⟩

def popFromEmpty : List Action := [.init 0 .north .valid .zero, .seek 0 .head 0, .pop 0]

theorem occupancy_disagrees :
    let m := machine ⟨2, by decide, by decide⟩
    let before := (m.run m.start (popFromEmpty.take 2)).get (by decide)
    let after := (m.run m.start popFromEmpty).get (by decide)
    ioqEmpty before.head ⟨2, by decide, by decide⟩ .valid = true ∧ after.pops .valid = 1 ∧
      after.pushes .valid = 0 ∧ ioqCount after.head ⟨2, by decide, by decide⟩ .valid = 1 := by
  decide

end Vbus.Occupancy
