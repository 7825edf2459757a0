import AlacrityDrivers.Vbus.RingWindow

namespace Vbus

/-- A call of `ioq_iter_seek`, `ioq_iter_push` or `ioq_iter_pop`. A `long` has 32 bits. -/
inductive IterCall where
  | seek (type : IoqSeekType) (offset : BitVec 32)
  | push
  | pop
deriving DecidableEq, Repr

def IterCall.result (call : IterCall) (head : RingHead) (iter : IoqIterator) : IterResult :=
  match call with
  | .seek type offset =>
    let (ret, moved) := ioqIterSeek head iter type offset.toInt
    ⟨ret, head, moved, false⟩
  | .push => ioqIterPush head iter
  | .pop => ioqIterPop head iter

structure RingHead.InRange (head : RingHead) (size : RingSize) : Prop where
  heads : ∀ slot, (head.idx slot).head < size.count
  tails : ∀ slot, (head.idx slot).tail < size.count

def IoqIterator.placed (iter : IoqIterator) (pos : Nat) (desc : Option Nat) : IoqIterator :=
  { iter with
    pos := pos
    desc := desc }

/-- A call that reports a failure leaves the indices, the descriptors and the iterator alone. -/
def FailsAtomically (call : IterCall) (head : RingHead) (iter : IoqIterator) : Prop :=
  (call.result head iter).ret < 0 →
    (call.result head iter).head.idx = head.idx ∧ (call.result head iter).head.ring = head.ring ∧
      (call.result head iter).iter.pos = iter.pos ∧ (call.result head iter).iter.desc = iter.desc

/-- The one failure of `ioq_iter_push` behind its updates: on both indices at once, where their tails
    differ. -/
structure TailsDiffer (call : IterCall) (head : RingHead) (iter : IoqIterator) : Prop where
  push : call = .push
  both : iter.dualidx = true
  standing : AtTail head iter
  differ : (head.idx .inuse).tail ≠ (head.idx .valid).tail

section Atomic

variable {size : RingSize} {head : RingHead} {ioq : Ioq} {type : IoqIdxType} {flags : IterFlags}
  {initial iter : IoqIterator} {call : IterCall}

theorem moduloInc_of_lt {n : Nat} (inside : n < size.count) :
    moduloInc n size.count = if n = size.count - 1 then 0 else n + 1 := by
  have fits := size.fits
  unfold moduloInc uint32
  rw [Nat.mod_eq_of_lt (by omega)]

theorem moduloInc_lt {n : Nat} (inside : n < size.count) :
    moduloInc n size.count < size.count := by
  rw [moduloInc_of_lt inside]
  split
  · exact size.positive
  · omega

theorem moduloInc_inj {m n : Nat} (first : m < size.count) (second : n < size.count)
    (same : moduloInc m size.count = moduloInc n size.count) : m = n := by
  rw [moduloInc_of_lt first, moduloInc_of_lt second] at same
  split at same <;> split at same <;> omega

theorem moduloInc_ne {n : Nat} (inside : n < size.count) (several : size.count ≠ 1) :
    moduloInc n size.count ≠ n := by
  rw [moduloInc_of_lt inside]
  split <;> omega

theorem init_dual (made : ioqIterInit ioq type flags = some initial) :
    initial.ioq = ioq ∧ (initial.dualidx = true → initial.idx = .valid) := by
  cases type with
  | valid =>
    rw [← Option.some.inj made]
    exact ⟨rfl, fun _ => rfl⟩
  | inuse =>
    rw [← Option.some.inj made]
    exact ⟨rfl, fun impossible => absurd impossible Bool.false_ne_true⟩
  | both =>
    rw [← Option.some.inj made]
    exact ⟨rfl, fun _ => rfl⟩
  | invalid => cases made

theorem fails_atomically_refused
    (unchanged : call.result head iter = ⟨-1, head, iter, false⟩) : FailsAtomically call head iter := by
  intro _
  rw [unchanged]
  exact ⟨rfl, rfl, rfl, rfl⟩

theorem fails_atomically_success (success : (call.result head iter).ret = 0) :
    FailsAtomically call head iter := by
  intro negative
  rw [success] at negative
  exact absurd negative (by decide)

theorem seekSet_refused {offset : BitVec 32} (beyond : (iter.ioq.size.count : Int) ≤ offset.toInt) :
    (IterCall.seek .set offset).result head iter = ⟨-1, head, iter, false⟩ := by
  simp only [IterCall.result, ioqIterSeek, if_pos beyond]

theorem seekSet_moves {offset : BitVec 32} (below : ¬ (iter.ioq.size.count : Int) ≤ offset.toInt) :
    (IterCall.seek .set offset).result head iter =
      ⟨0, head, ioqIterSetpos iter (offset.toInt % 2 ^ 32).toNat, false⟩ := by
  simp only [IterCall.result, ioqIterSeek, if_neg below]

theorem seek_atomic (type : IoqSeekType) (offset : BitVec 32) (head : RingHead) (iter : IoqIterator) :
    FailsAtomically (.seek type offset) head iter := by
  cases type with
  | tail => exact fails_atomically_success rfl
  | next => exact fails_atomically_success rfl
  | head => exact fails_atomically_success rfl
  | set =>
    by_cases beyond : (iter.ioq.size.count : Int) ≤ offset.toInt
    · exact fails_atomically_refused (seekSet_refused beyond)
    · exact fails_atomically_success (congrArg IterResult.ret (seekSet_moves beyond))

theorem pop_atomic (head : RingHead) (iter : IoqIterator) : FailsAtomically .pop head iter := by
  rcases pop_cases head iter with ⟨_, result⟩ | ⟨_, result⟩
  · apply fails_atomically_success
    change (ioqIterPop head iter).ret = 0
    rw [result, finishIter_ret]
  · exact fails_atomically_refused result

def bothAdvanced (head : RingHead) (size : RingSize) : RingHead :=
  (head.setIdx .valid (idxTailPush (head.idx .valid) size.count)).setIdx .inuse
    (idxTailPush (head.idx .inuse) size.count)

theorem bothAdvanced_tail (head : RingHead) (size : RingSize) (slot : IdxSlot) :
    ((bothAdvanced head size).idx slot).tail = moduloInc (head.idx slot).tail size.count := by
  cases slot with
  | valid => simp [bothAdvanced, idxTailPush_tail]
  | inuse => simp [bothAdvanced, idxTailPush_tail]

theorem push_dual (both : iter.dualidx = true) (valid : iter.idx = .valid)
    (standing : AtTail head iter) :
    ioqIterPush head iter =
      if moduloInc (head.idx .inuse).tail iter.ioq.size.count ≠
          moduloInc (head.idx .valid).tail iter.ioq.size.count then
        ⟨-1, bothAdvanced head iter.ioq.size, iter, false⟩
      else finishIter (bothAdvanced head iter.ioq.size) iter := by
  have admitted : ¬ (iter.pos ≠ (head.idx iter.idx).tail ∨
      iter.descSown head ≠ some iter.ioq.locale) := by
    rw [not_or, not_not, not_not]
    exact standing
  have updated : (head.setIdx .valid (idxTailPush (head.idx .valid) iter.ioq.size.count)).setIdx .inuse
      (idxTailPush ((head.setIdx .valid
        (idxTailPush (head.idx .valid) iter.ioq.size.count)).idx .inuse) iter.ioq.size.count) =
      bothAdvanced head iter.ioq.size := by
    rw [RingHead.setIdx_ne head .valid .inuse _ (by decide)]
    rfl
  simp only [ioqIterPush]
  rw [if_neg admitted, if_pos both, valid, updated, bothAdvanced_tail, bothAdvanced_tail]

theorem push_atomic_iff (inside : head.InRange iter.ioq.size)
    (valid : iter.dualidx = true → iter.idx = .valid) :
    FailsAtomically .push head iter ↔ ¬ TailsDiffer .push head iter := by
  by_cases standing : AtTail head iter
  · cases both : iter.dualidx with
    | false =>
      refine iff_of_true (fails_atomically_success ((push_succeeds_iff both).mpr standing)) ?_
      intro trap
      exact absurd (both.symm.trans trap.both) Bool.false_ne_true
    | true =>
      have pushed := push_dual both (valid both) standing
      by_cases same : (head.idx .inuse).tail = (head.idx .valid).tail
      · refine iff_of_true (fails_atomically_success ?_) (fun trap => trap.differ same)
        change (ioqIterPush head iter).ret = 0
        rw [pushed, same, if_neg (not_not.mpr rfl), finishIter_ret]
      · have apart : moduloInc (head.idx .inuse).tail iter.ioq.size.count ≠
            moduloInc (head.idx .valid).tail iter.ioq.size.count := by
          intro equal
          exact same (moduloInc_inj (inside.tails .inuse) (inside.tails .valid) equal)
        have several : iter.ioq.size.count ≠ 1 := by
          intro one
          have first := inside.tails .inuse
          have second := inside.tails .valid
          omega
        rw [if_pos apart] at pushed
        refine iff_of_false ?_ (fun never => never ⟨rfl, both, standing, same⟩)
        intro atomic
        have negative : (ioqIterPush head iter).ret < 0 := by
          rw [pushed]
          exact Int.negSucc_lt_zero 0
        have kept : (ioqIterPush head iter).head.idx = head.idx := (atomic negative).1
        rw [pushed] at kept
        have tail : ((bothAdvanced head iter.ioq.size).idx .valid).tail = (head.idx .valid).tail :=
          congrArg RingIdx.tail (congrFun kept .valid)
        rw [bothAdvanced_tail] at tail
        exact moduloInc_ne (inside.tails .valid) several tail
  · exact iff_of_true (fails_atomically_refused (push_away standing))
      (fun trap => standing trap.standing)

/-- Every ring operation that fails leaves no trace, except a push on both indices whose tails differ:
    it finds that out behind its two updates. -/
theorem ring_fails_atomically_iff (call : IterCall) (type : IoqIdxType) (flags : IterFlags)
    (pos : Nat) (desc : Option Nat) (inside : head.InRange ioq.size)
    (made : ioqIterInit ioq type flags = some initial) :
    FailsAtomically call head (initial.placed pos desc) ↔
      ¬ TailsDiffer call head (initial.placed pos desc) := by
  rcases init_dual made with ⟨ring, valid⟩
  cases call with
  | seek type offset =>
    exact iff_of_true (seek_atomic type offset head _) (fun trap => nomatch trap.push)
  | pop => exact iff_of_true (pop_atomic head _) (fun trap => nomatch trap.push)
  | push =>
    rw [← ring] at inside
    exact push_atomic_iff inside valid

theorem two_fits : 2 < 2 ^ 31 := by decide

def northPair : Ioq := ⟨.north, ⟨2, Nat.zero_lt_two, two_fits⟩⟩

def unevenRing : RingHead := RingHead.zeroed.setIdx .valid ⟨0, 1, false⟩

theorem unevenRing_inRange : unevenRing.InRange northPair.size where
  heads := by
    intro slot
    cases slot <;> decide
  tails := by
    intro slot
    cases slot <;> decide

theorem ring_fails_atomically_uneven :
    ∃ initial, ioqIterInit northPair .inuse .zero = some initial ∧
      (FailsAtomically .pop unevenRing (initial.placed 1 (some 1)) ↔
        ¬ TailsDiffer .pop unevenRing (initial.placed 1 (some 1))) :=
  ⟨_, rfl, ring_fails_atomically_iff .pop .inuse .zero 1 (some 1) unevenRing_inRange rfl⟩

theorem uneven_push_advances :
    ∃ initial, ioqIterInit northPair .both .zero = some initial ∧
      ¬ FailsAtomically .push unevenRing (initial.placed 1 (some 1)) := by
  refine ⟨_, rfl, ?_⟩
  intro atomic
  have kept := congrFun (atomic (by decide)).1 .valid
  revert kept
  decide

end Atomic

end Vbus
