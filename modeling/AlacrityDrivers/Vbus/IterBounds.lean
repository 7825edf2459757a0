import AlacrityDrivers.Library.Transition
import AlacrityDrivers.Vbus.RingAtomic

namespace Vbus.IterBounds

open Transition

/-- A ring with any number of iterators, and the iterator as the last call has left it if that was not
    `ioq_iter_init` and returned 0. -/
structure State where
  head : RingHead
  iters : Nat → Option IoqIterator
  last : Option IoqIterator

inductive Action where
  | init (id : Nat) (locale : Locality) (type : IoqIdxType) (flags : IterFlags)
  | call (id : Nat) (call : IterCall)

def applyCall (s : State) (id : Nat) (call : IterCall) (iter : IoqIterator) : State :=
  let result := call.result s.head iter
  { head := result.head
    iters := Function.update s.iters id (some result.iter)
    last := if result.ret = 0 then some result.iter else none }

def step (size : RingSize) (s : State) : Action → Option State
  | .init id locale type flags => (ioqIterInit ⟨locale, size⟩ type flags).map fun iter =>
      { s with
        iters := Function.update s.iters id (some iter)
        last := none }
  | .call id call => (s.iters id).map (applyCall s id call)

def machine (size : RingSize) (head : RingHead) : Machine State Action :=
  ⟨⟨head, fun _ => none, none⟩, step size⟩

structure OnDescriptor (size : RingSize) (iter : IoqIterator) : Prop where
  pos : iter.pos < size.count
  desc : iter.desc = some iter.pos

/-- All indices are inside the ring, and so is the iterator that a call has just moved. -/
structure Bounded (size : RingSize) (s : State) : Prop where
  ring : s.head.InRange size
  moved : ∀ iter, s.last = some iter → OnDescriptor size iter

/-- The offset of a `ioq_seek_set` is not negative. -/
def Unsigned : Action → Prop
  | .call _ (.seek .set offset) => 0 ≤ offset.toInt
  | _ => True

structure Placed (size : RingSize) (iter : IoqIterator) : Prop where
  known : iter.ioq.size = size
  place : iter.pos = 2 ^ 32 - 1 ∧ iter.desc = none ∨ OnDescriptor size iter

structure Sound (size : RingSize) (s : State) : Prop where
  bounded : Bounded size s
  iters : ∀ id iter, s.iters id = some iter → Placed size iter

section Call

variable {size : RingSize} {head : RingHead} {iter : IoqIterator} {slot : IdxSlot} {idx : RingIdx}

theorem setIdx_inRange (inside : head.InRange size) (slot : IdxSlot) (first : idx.head < size.count)
    (last : idx.tail < size.count) : (head.setIdx slot idx).InRange size where
  heads := by
    intro other
    by_cases same : other = slot
    · rw [same, RingHead.setIdx_same]
      exact first
    · rw [RingHead.setIdx_ne head slot other idx same]
      exact inside.heads other
  tails := by
    intro other
    by_cases same : other = slot
    · rw [same, RingHead.setIdx_same]
      exact last
    · rw [RingHead.setIdx_ne head slot other idx same]
      exact inside.tails other

theorem push_inRange (inside : head.InRange size) (slot : IdxSlot) :
    (head.setIdx slot (idxTailPush (head.idx slot) size.count)).InRange size := by
  have kept : (idxTailPush (head.idx slot) size.count).head = (head.idx slot).head := by
    simp only [idxTailPush]
    split <;> rfl
  apply setIdx_inRange inside slot
  · rw [kept]
    exact inside.heads slot
  · rw [idxTailPush_tail]
    exact moduloInc_lt (inside.tails slot)

theorem pop_inRange (inside : head.InRange size) (slot : IdxSlot) :
    (head.setIdx slot (idxHeadPop (head.idx slot) size.count)).InRange size := by
  rcases idxHeadPop_ends (head.idx slot) size.count with ⟨first, last⟩
  apply setIdx_inRange inside slot
  · rw [first]
    exact moduloInc_lt (inside.heads slot)
  · rw [last]
    exact inside.tails slot

theorem onDescriptor_setpos (iter : IoqIterator) {pos : Nat} (inside : pos < size.count) :
    OnDescriptor size (ioqIterSetpos iter pos) :=
  ⟨inside, rfl⟩

theorem Placed.next (placed : Placed size iter) :
    moduloInc iter.pos iter.ioq.size.count < size.count := by
  rw [placed.known]
  rcases placed.place with ⟨fresh, _⟩ | onDescriptor
  · have fits := size.fits
    have positive := size.positive
    have apart : ¬ 2 ^ 32 - 1 = size.count - 1 := by omega
    rw [fresh, moduloInc, if_neg apart]
    exact positive
  · exact moduloInc_lt onDescriptor.pos

structure Keeps (size : RingSize) (result : IterResult) : Prop where
  ring : result.head.InRange size
  known : result.iter.ioq.size = size
  moved : result.ret = 0 → OnDescriptor size result.iter
  place : Placed size result.iter

theorem keeps_moved {result : IterResult} (ring : result.head.InRange size)
    (same : result.iter.ioq.size = size) (moved : OnDescriptor size result.iter) :
    Keeps size result :=
  ⟨ring, same, fun _ => moved, same, Or.inr moved⟩

theorem keeps_failed {injected : Bool} (inside : head.InRange size) (placed : Placed size iter) :
    Keeps size ⟨-1, head, iter, injected⟩ where
  ring := inside
  known := placed.known
  moved := by
    intro impossible
    exact absurd impossible (by decide : (-1 : Int) ≠ 0)
  place := placed

theorem keeps_finish (inside : head.InRange size) (placed : Placed size iter) :
    Keeps size (finishIter head iter) := by
  apply keeps_moved
  · constructor
    · rw [finishIter_idx]
      exact inside.heads
    · rw [finishIter_idx]
      exact inside.tails
  · rw [finishIter_iter]
    exact placed.known
  · rw [finishIter_iter]
    exact onDescriptor_setpos iter placed.next

theorem keeps_push (inside : head.InRange size) (placed : Placed size iter) :
    Keeps size (ioqIterPush head iter) := by
  have once := push_inRange inside iter.idx
  simp only [ioqIterPush, placed.known]
  split
  · exact keeps_failed inside placed
  · split
    · split
      · exact keeps_failed (push_inRange once .inuse) placed
      · exact keeps_finish (push_inRange once .inuse) placed
    · exact keeps_finish once placed

theorem keeps_pop (inside : head.InRange size) (placed : Placed size iter) :
    Keeps size (ioqIterPop head iter) := by
  simp only [ioqIterPop, placed.known]
  split
  · exact keeps_failed inside placed
  · exact keeps_finish (pop_inRange inside iter.idx) placed

theorem keeps_seek (inside : head.InRange size) (placed : Placed size iter) (type : IoqSeekType)
    (offset : BitVec 32) (unsigned : type = .set → 0 ≤ offset.toInt) :
    Keeps size ((IterCall.seek type offset).result head iter) := by
  cases type with
  | tail => exact keeps_moved inside placed.known (onDescriptor_setpos iter (inside.tails iter.idx))
  | next => exact keeps_moved inside placed.known (onDescriptor_setpos iter placed.next)
  | head => exact keeps_moved inside placed.known (onDescriptor_setpos iter (inside.heads iter.idx))
  | set =>
    have positive := unsigned rfl
    by_cases beyond : (iter.ioq.size.count : Int) ≤ offset.toInt
    · rw [seekSet_refused beyond]
      exact keeps_failed inside placed
    · rw [seekSet_moves beyond]
      have fits := size.fits
      rw [placed.known] at beyond
      have inRing : (offset.toInt % 2 ^ 32).toNat < size.count := by
        rw [Int.emod_eq_of_lt positive (by omega)]
        omega
      exact keeps_moved inside placed.known (onDescriptor_setpos iter inRing)

theorem seek_negative (head : RingHead) (placed : Placed size iter) {offset : BitVec 32}
    (negative : offset.toInt < 0) :
    ((IterCall.seek .set offset).result head iter).ret = 0 ∧
      ¬ OnDescriptor size ((IterCall.seek .set offset).result head iter).iter := by
  have fits := size.fits
  have low : -(2 : Int) ^ 31 ≤ offset.toInt := BitVec.le_toInt offset
  have below : ¬ (iter.ioq.size.count : Int) ≤ offset.toInt := by
    rw [placed.known]
    omega
  rw [seekSet_moves below]
  refine ⟨rfl, ?_⟩
  intro onDescriptor
  have inside : (offset.toInt % 2 ^ 32).toNat < size.count := onDescriptor.pos
  omega

end Call

section Run

variable {size : RingSize}

theorem sound_preserved (s : State) (action : Action) (next : State) (sound : Sound size s)
    (unsigned : Unsigned action) (stepped : step size s action = some next) : Sound size next := by
  cases action with
  | init id locale type flags =>
    simp only [step, Option.map_eq_some_iff] at stepped
    rcases stepped with ⟨made, initial, rfl⟩
    refine ⟨⟨sound.bounded.ring, fun iter none => nomatch none⟩, ?_⟩
    intro other iter present
    change Function.update s.iters id (some made) other = some iter at present
    by_cases same : other = id
    · rw [same, Function.update_self] at present
      rw [← Option.some.inj present]
      have size : made.ioq = ⟨locale, size⟩ := (init_dual initial).1
      have fresh : made.pos = 2 ^ 32 - 1 ∧ made.desc = none := by
        unfold ioqIterInit at initial
        rw [Option.map_eq_some_iff] at initial
        rcases initial with ⟨slot, _, rfl⟩
        exact ⟨rfl, rfl⟩
      exact ⟨by rw [size], Or.inl fresh⟩
    · rw [Function.update_of_ne same] at present
      exact sound.iters other iter present
  | call id call =>
    simp only [step, Option.map_eq_some_iff] at stepped
    rcases stepped with ⟨iter, present, rfl⟩
    have placed := sound.iters id iter present
    have keeps : Keeps size (call.result s.head iter) := by
      cases call with
      | seek type offset =>
        apply keeps_seek sound.bounded.ring placed
        rintro rfl
        exact unsigned
      | push => exact keeps_push sound.bounded.ring placed
      | pop => exact keeps_pop sound.bounded.ring placed
    refine ⟨⟨keeps.ring, ?_⟩, ?_⟩
    · intro moved last
      change (if (call.result s.head iter).ret = 0 then some (call.result s.head iter).iter else none) =
        some moved at last
      split at last
      · rename_i success
        rw [← Option.some.inj last]
        exact keeps.moved success
      · cases last
    · intro other moved there
      change Function.update s.iters id (some (call.result s.head iter).iter) other = some moved at there
      by_cases same : other = id
      · rw [same, Function.update_self] at there
        rw [← Option.some.inj there]
        exact keeps.place
      · rw [Function.update_of_ne same] at there
        exact sound.iters other moved there

theorem unsigned_forced (s : State) (action : Action) (next : State) (sound : Sound size s)
    (stepped : step size s action = some next) (bounded : Bounded size next) : Unsigned action := by
  cases action with
  | init id locale type flags => exact True.intro
  | call id call =>
    cases call with
    | push => exact True.intro
    | pop => exact True.intro
    | seek type offset =>
      cases type with
      | tail => exact True.intro
      | next => exact True.intro
      | head => exact True.intro
      | set =>
        by_contra negative
        simp only [step, Option.map_eq_some_iff] at stepped
        rcases stepped with ⟨iter, present, rfl⟩
        rcases seek_negative s.head (sound.iters id iter present) (Int.not_le.mp negative) with
          ⟨success, outside⟩
        apply outside
        apply bounded.moved
        change (if ((IterCall.seek .set offset).result s.head iter).ret = 0 then _ else none) = _
        rw [if_pos success]

/-- The iterators stay inside the ring in exactly those runs in which no `ioq_seek_set` has a negative
    offset: the test of the offset is one-sided. -/
theorem iterators_stay_inside (size : RingSize) (head : RingHead) (inside : head.InRange size)
    (actions : List Action) :
    (machine size head).Throughout (Bounded size) (machine size head).start actions ↔
      (machine size head).Meets ((machine size head).OnSteps fun _ action => Unsigned action)
        (machine size head).start actions := by
  have start : Sound size (machine size head).start :=
    ⟨⟨inside, fun iter none => nomatch none⟩, fun id iter none => nomatch none⟩
  exact Machine.throughout_iff_guarded (Sound size) (fun _ sound => sound.bounded) sound_preserved
    unsigned_forced start actions

theorem zeroed_inRange (size : RingSize) : RingHead.zeroed.InRange size :=
  ⟨fun _ => size.positive, fun _ => size.positive⟩

theorem iterators_stay_inside_first :
    let m := machine northPair.size .zeroed
    let actions := [Action.init 0 .north .both .zero, .call 0 (.seek .next 0), .call 0 .push]
    m.Throughout (Bounded northPair.size) m.start actions ↔
      m.Meets (m.OnSteps fun _ action => Unsigned action) m.start actions :=
  iterators_stay_inside northPair.size .zeroed (zeroed_inRange northPair.size) _

theorem seek_to_minus_one_leaves :
    let m := machine northPair.size .zeroed
    let final := (m.run m.start [.init 0 .north .valid .zero, .call 0 (.seek .set (-1))]).get (by decide)
    ¬ Bounded northPair.size final := by
  intro m final bounded
  have inside := (bounded.moved _ rfl).pos
  revert inside
  decide

end Run

end Vbus.IterBounds
