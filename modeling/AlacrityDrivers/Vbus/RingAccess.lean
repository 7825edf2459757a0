import AlacrityDrivers.Vbus.RingWindow

namespace Vbus

/-- The places in `ioq_iter_push` and `idx_tail_push` before each access to the ring. The argument
    is the local variable `tail`, or the value to return. -/
inductive PushPc where
  | testTail
  | testSown
  | loadTail
  | loadHead (tail : Nat)
  | setFull (tail : Nat)
  | setTail (tail : Nat)
  | flip
  | signal (ret : Int)
deriving DecidableEq, Repr

/-- The places in `ioq_iter_pop` before each access to the ring. -/
inductive PopPc where
  | testHead
  | testSown
  | loadHead
  | setHead (head : Nat)
  | testFull
  | clearFull
  | flip
  | signal (ret : Int)
deriving DecidableEq, Repr

inductive Control (Pc : Type) where
  | goto (pc : Pc)
  | exit (ret : Int)

def Control.pc {Pc : Type} : Control Pc → Option Pc
  | .goto pc => some pc
  | .exit _ => none

def Control.success {Pc : Type} : Control Pc → Nat
  | .goto _ => 0
  | .exit ret => if ret < 0 then 0 else 1

structure Access (Pc : Type) where
  head : RingHead
  iter : IoqIterator
  control : Control Pc

/-- The write of `sown`, and the seek that follows without an access to the ring. -/
def flipAccess {Pc : Type} (head : RingHead) (iter : IoqIterator) (signal : Int → Pc) : Access Pc :=
  let (ret, moved) := ioqIterSeek head iter .next 0
  ⟨flipOwner head iter, moved, if iter.update then .goto (signal ret) else .exit ret⟩

/-- One access of `ioq_iter_push` with an iterator on a single index. -/
def pushStep (head : RingHead) (iter : IoqIterator) : PushPc → Access PushPc
  | .testTail =>
    ⟨head, iter, if iter.pos ≠ (head.idx iter.idx).tail then .exit (-1) else .goto .testSown⟩
  | .testSown =>
    ⟨head, iter,
      if iter.descSown head ≠ some iter.ioq.locale then .exit (-1) else .goto .loadTail⟩
  | .loadTail =>
    ⟨head, iter, .goto (.loadHead (moduloInc (head.idx iter.idx).tail iter.ioq.size.count))⟩
  | .loadHead tail =>
    ⟨head, iter, if (head.idx iter.idx).head = tail then .goto (.setFull tail)
      else .goto (.setTail tail)⟩
  | .setFull tail =>
    ⟨head.setIdx iter.idx { head.idx iter.idx with full := true }, iter, .goto (.setTail tail)⟩
  | .setTail tail =>
    ⟨head.setIdx iter.idx { head.idx iter.idx with tail := tail }, iter, .goto .flip⟩
  | .flip => flipAccess head iter .signal
  | .signal ret => ⟨(ioqSignal head iter.ioq.locale).1, iter, .exit ret⟩

def popStep (head : RingHead) (iter : IoqIterator) : PopPc → Access PopPc
  | .testHead =>
    ⟨head, iter, if iter.pos ≠ (head.idx iter.idx).head then .exit (-1) else .goto .testSown⟩
  | .testSown =>
    ⟨head, iter,
      if iter.descSown head ≠ some iter.ioq.locale then .exit (-1) else .goto .loadHead⟩
  | .loadHead =>
    ⟨head, iter, .goto (.setHead (moduloInc (head.idx iter.idx).head iter.ioq.size.count))⟩
  | .setHead new =>
    ⟨head.setIdx iter.idx { head.idx iter.idx with head := new }, iter, .goto .testFull⟩
  | .testFull =>
    ⟨head, iter, if (head.idx iter.idx).full then .goto .clearFull else .goto .flip⟩
  | .clearFull =>
    ⟨head.setIdx iter.idx { head.idx iter.idx with full := false }, iter, .goto .flip⟩
  | .flip => flipAccess head iter .signal
  | .signal ret => ⟨(ioqSignal head iter.ioq.locale).1, iter, .exit ret⟩

def solo {Pc : Type} (step : RingHead → IoqIterator → Pc → Access Pc) :
    Nat → RingHead → IoqIterator → Pc → Option (Int × RingHead × IoqIterator)
  | 0, _, _, _ => none
  | fuel + 1, head, iter, pc =>
    match (step head iter pc).control with
    | .goto next => solo step fuel (step head iter pc).head (step head iter pc).iter next
    | .exit ret => some (ret, (step head iter pc).head, (step head iter pc).iter)

def IterResult.memory (result : IterResult) : Int × RingHead × IoqIterator :=
  (result.ret, result.head, result.iter)

@[simp] theorem setIdx_setIdx (head : RingHead) (slot : IdxSlot) (first second : RingIdx) :
    (head.setIdx slot first).setIdx slot second = head.setIdx slot second := by
  simp [RingHead.setIdx]

section Solo

variable {Pc : Type} {step : RingHead → IoqIterator → Pc → Access Pc} {head after : RingHead}
  {iter moved : IoqIterator} {pc next : Pc} {ret : Int}

theorem solo_goto (fuel : Nat) (access : step head iter pc = ⟨after, moved, .goto next⟩) :
    solo step (fuel + 1) head iter pc = solo step fuel after moved next := by
  simp [solo, access]

theorem solo_exit (fuel : Nat) (access : step head iter pc = ⟨after, moved, .exit ret⟩) :
    solo step (fuel + 1) head iter pc = some (ret, after, moved) := by
  simp [solo, access]

theorem solo_flip (signal : Int → Pc) (flips : step head iter pc = flipAccess head iter signal)
    (signals : ∀ head iter ret,
      step head iter (signal ret) = ⟨(ioqSignal head iter.ioq.locale).1, iter, .exit ret⟩)
    (fuel : Nat) :
    solo step (fuel + 2) head iter pc = some (IterResult.memory (finishIter head iter)) := by
  cases update : iter.update with
  | true =>
    rw [solo_goto _ (by rw [flips, flipAccess, update]; rfl), solo_exit _ (signals _ _ _)]
    simp [finishIter, IterResult.memory, update, ioqIterSeek, ioqIterSetpos]
  | false =>
    rw [solo_exit _ (by rw [flips, flipAccess, update]; rfl)]
    simp [finishIter, IterResult.memory, update, ioqIterSeek]

end Solo

/-- The accesses of a push, run without interference, are the function. -/
theorem push_solo (head : RingHead) (iter : IoqIterator) (single : iter.dualidx = false) :
    solo pushStep 8 head iter .testTail = some (IterResult.memory (ioqIterPush head iter)) := by
  by_cases position : iter.pos = (head.idx iter.idx).tail
  · rw [solo_goto 7 (by rw [pushStep, if_neg (not_not.mpr position)])]
    by_cases owned : iter.descSown head = some iter.ioq.locale
    · rw [push_admitted head iter single position owned, idxTailPush,
        solo_goto 6 (by rw [pushStep, if_neg (not_not.mpr owned)]), solo_goto 5 rfl]
      by_cases meets : (head.idx iter.idx).head = moduloInc (head.idx iter.idx).tail iter.ioq.size.count
      · rw [solo_goto 4 (by rw [pushStep, if_pos meets]), solo_goto 3 rfl, solo_goto 2 rfl,
          solo_flip .signal rfl (fun _ _ _ => rfl) 0]
        simp [meets]
      · rw [solo_goto 4 (by rw [pushStep, if_neg meets]), solo_goto 3 rfl,
          solo_flip .signal rfl (fun _ _ _ => rfl) 1]
        simp [meets]
    · rw [push_refused head iter (Or.inr owned), solo_exit 6 (by rw [pushStep, if_pos owned])]
      rfl
  · rw [push_refused head iter (Or.inl position), solo_exit 7 (by rw [pushStep, if_pos position])]
    rfl

theorem pop_solo (head : RingHead) (iter : IoqIterator) :
    solo popStep 8 head iter .testHead = some (IterResult.memory (ioqIterPop head iter)) := by
  by_cases position : iter.pos = (head.idx iter.idx).head
  · rw [solo_goto 7 (by rw [popStep, if_neg (not_not.mpr position)])]
    by_cases owned : iter.descSown head = some iter.ioq.locale
    · rw [pop_admitted head iter position owned, idxHeadPop,
        solo_goto 6 (by rw [popStep, if_neg (not_not.mpr owned)]), solo_goto 5 rfl, solo_goto 4 rfl]
      cases full : (head.idx iter.idx).full with
      | true =>
        rw [solo_goto 3 (by rw [popStep, RingHead.setIdx_same, full, if_pos rfl]), solo_goto 2 rfl,
          solo_flip .signal rfl (fun _ _ _ => rfl) 0]
        simp
      | false =>
        rw [solo_goto 3 (by rw [popStep, RingHead.setIdx_same, full, if_neg Bool.false_ne_true]),
          solo_flip .signal rfl (fun _ _ _ => rfl) 1]
        simp [full]
    · rw [pop_refused head iter (Or.inr owned), solo_exit 6 (by rw [popStep, if_pos owned])]
      rfl
  · rw [pop_refused head iter (Or.inl position), solo_exit 7 (by rw [popStep, if_pos position])]
    rfl

end Vbus
