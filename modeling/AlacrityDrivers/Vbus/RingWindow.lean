import AlacrityDrivers.Library.Circular
import AlacrityDrivers.Vbus.Ioq

namespace Vbus

open Circular

section Frame

variable (head : RingHead) (slot other : IdxSlot) (idx : RingIdx) (place : Nat) (owner : Locality)

@[simp] theorem RingHead.setIdx_same : (head.setIdx slot idx).idx slot = idx := by
  simp [RingHead.setIdx]

@[simp] theorem RingHead.setIdx_ne (different : other ≠ slot) :
    (head.setIdx slot idx).idx other = head.idx other := by
  simp [RingHead.setIdx, different]

@[simp] theorem RingHead.setIdx_ring : (head.setIdx slot idx).ring = head.ring := rfl

@[simp] theorem RingHead.setIdx_signal : (head.setIdx slot idx).signal = head.signal := rfl

@[simp] theorem RingHead.setSown_idx : (head.setSown place owner).idx = head.idx := rfl

@[simp] theorem RingHead.setSown_signal : (head.setSown place owner).signal = head.signal := rfl

theorem RingHead.setSown_sown (i : Nat) :
    ((head.setSown place owner).ring i).sown = if i = place then owner else (head.ring i).sown := by
  by_cases same : i = place
  · subst i
    simp [RingHead.setSown]
  · simp [RingHead.setSown, same]

@[simp] theorem ioqSignal_idx (locale : Locality) : (ioqSignal head locale).1.idx = head.idx := rfl

@[simp] theorem ioqSignal_ring (locale : Locality) : (ioqSignal head locale).1.ring = head.ring := rfl

variable (iter : IoqIterator)

@[simp] theorem flipOwner_idx : (flipOwner head iter).idx = head.idx := by
  unfold flipOwner
  split <;> rfl

@[simp] theorem flipOwner_signal : (flipOwner head iter).signal = head.signal := by
  unfold flipOwner
  split <;> rfl

@[simp] theorem finishIter_ret : (finishIter head iter).ret = 0 := by
  simp only [finishIter, ioqIterSeek]
  split <;> rfl

@[simp] theorem finishIter_idx : (finishIter head iter).head.idx = head.idx := by
  simp only [finishIter, ioqIterSeek]
  split <;> simp

@[simp] theorem finishIter_ring : (finishIter head iter).head.ring = (flipOwner head iter).ring := by
  simp only [finishIter, ioqIterSeek]
  split <;> simp

@[simp] theorem finishIter_iter :
    (finishIter head iter).iter = ioqIterSetpos iter (moduloInc iter.pos iter.ioq.size.count) := by
  simp only [finishIter, ioqIterSeek]
  split <;> rfl

theorem finishIter_signal (silent : iter.update = false) :
    (finishIter head iter).head.signal = head.signal := by
  simp [finishIter, ioqIterSeek, silent]

end Frame

theorem moduloInc_mod (size : RingSize) (n : Nat) :
    moduloInc (n % size.count) size.count = (n + 1) % size.count := by
  have small := Nat.mod_lt n size.positive
  have fits := size.fits
  rw [succ_mod size.positive]
  unfold moduloInc uint32
  split
  · rfl
  · exact Nat.mod_eq_of_lt (by omega)

/-- An index whose tail has advanced `pushed` times and whose head `popped` times. `full` decides
    between the two cases in which head and tail coincide, and is free in all others. -/
structure RingIdx.Tracks (idx : RingIdx) (size : RingSize) (popped pushed : Nat) : Prop where
  head : idx.head = popped % size.count
  tail : idx.tail = pushed % size.count
  le : popped ≤ pushed
  bound : pushed ≤ popped + size.count
  full : pushed = popped + size.count → idx.full = true
  empty : pushed = popped → idx.full = false

section Tracks

variable {idx : RingIdx} {size : RingSize} {popped pushed : Nat}

theorem tracks_zero (size : RingSize) : RingIdx.Tracks ⟨0, 0, false⟩ size 0 0 := by
  have positive := size.positive
  refine ⟨?_, ?_, Nat.le_refl _, by omega, ?_, fun _ => rfl⟩
  · exact (Nat.zero_mod _).symm
  · exact (Nat.zero_mod _).symm
  · intro impossible
    omega

theorem RingIdx.Tracks.zero (tracks : idx.Tracks size 0 0) : idx = ⟨0, 0, false⟩ := by
  have head := tracks.head
  have tail := tracks.tail
  have full := tracks.empty rfl
  rw [Nat.zero_mod] at head tail
  obtain ⟨headAt, tailAt, fullAt⟩ := idx
  rw [RingIdx.mk.injEq]
  exact ⟨head, tail, full⟩

theorem RingIdx.Tracks.push (tracks : idx.Tracks size popped pushed)
    (room : pushed < popped + size.count) :
    (idxTailPush idx size.count).Tracks size popped (pushed + 1) := by
  have le := tracks.le
  have tail : moduloInc idx.tail size.count = (pushed + 1) % size.count := by
    rw [tracks.tail, moduloInc_mod]
  have meets := mod_eq_iff size.positive (by omega : popped ≤ pushed + 1) (by omega)
  simp only [idxTailPush, tail, tracks.head]
  by_cases full : popped % size.count = (pushed + 1) % size.count
  · rw [if_pos full]
    refine ⟨rfl, rfl, by omega, by omega, fun _ => rfl, ?_⟩
    intro impossible
    omega
  · rw [if_neg full]
    refine ⟨rfl, rfl, by omega, by omega, ?_, ?_⟩
    · intro last
      exact absurd (meets.mpr (Or.inr last)) full
    · intro impossible
      omega

theorem idxTailPush_tail (idx : RingIdx) (count : Nat) :
    (idxTailPush idx count).tail = moduloInc idx.tail count := by
  simp only [idxTailPush]
  split <;> rfl

theorem idxHeadPop_full (idx : RingIdx) (count : Nat) : (idxHeadPop idx count).full = false := by
  unfold idxHeadPop
  cases idx.full <;> simp

theorem idxHeadPop_ends (idx : RingIdx) (count : Nat) :
    (idxHeadPop idx count).head = moduloInc idx.head count ∧
      (idxHeadPop idx count).tail = idx.tail := by
  unfold idxHeadPop
  cases full : idx.full <;> simp

theorem RingIdx.Tracks.pop (tracks : idx.Tracks size popped pushed) (nonempty : popped < pushed) :
    (idxHeadPop idx size.count).Tracks size (popped + 1) pushed := by
  have bound := tracks.bound
  obtain ⟨head, tail⟩ := idxHeadPop_ends idx size.count
  refine ⟨?_, ?_, nonempty, by omega, ?_, fun _ => idxHeadPop_full _ _⟩
  · rw [head, tracks.head, moduloInc_mod]
  · rw [tail, tracks.tail]
  · intro impossible
    omega

theorem RingIdx.Tracks.isFull (tracks : idx.Tracks size popped pushed) :
    idxFull idx = true ↔ pushed = popped + size.count := by
  have meets := mod_eq_iff size.positive tracks.le tracks.bound
  simp only [idxFull, Bool.and_eq_true, beq_iff_eq, tracks.head, tracks.tail, meets]
  constructor
  · intro full
    rcases full.2 with empty | last
    · rw [tracks.empty empty] at full
      exact absurd full.1 (by decide)
    · exact last
  · intro last
    exact ⟨tracks.full last, Or.inr last⟩

theorem RingIdx.Tracks.count (tracks : idx.Tracks size popped pushed) :
    ioqRingCount idx size.count = pushed - popped := by
  have le := tracks.le
  have bound := tracks.bound
  have full := tracks.isFull
  simp only [idxFull] at full
  by_cases last : pushed = popped + size.count
  · rw [ioqRingCount, if_pos (full.mpr last)]
    omega
  · rw [ioqRingCount, if_neg (fun set => last (full.mp set)), tracks.head, tracks.tail,
      ← distance size.positive le (by omega)]
    have small := Nat.mod_lt pushed size.positive
    have low := Nat.mod_lt popped size.positive
    have fits := size.fits
    unfold uint32
    split <;> omega

end Tracks

def iterAt (ioq : Ioq) (slot : IdxSlot) (flags : IterFlags) (pos : Nat) : IoqIterator :=
  { ioq := ioq, idx := slot, pos := pos, desc := some pos, update := flags.autoupdate,
    dualidx := false, flipowner := !flags.noflipowner }

structure OwnedWindow (head : RingHead) (size : RingSize) (slot : IdxSlot) (consumer : Locality)
    (popped pushed : Nat) : Prop where
  tracks : (head.idx slot).Tracks size popped pushed
  owner : ∀ i, i < size.count →
    ((head.ring i).sown = consumer ↔ Window size.count popped pushed i)

section OwnedWindow

variable {head : RingHead} {size : RingSize} {slot : IdxSlot} {consumer : Locality}
  {popped pushed : Nat}

theorem OwnedWindow.tail_owner (window : OwnedWindow head size slot consumer popped pushed) :
    (head.ring (head.idx slot).tail).sown = consumer ↔ pushed = popped + size.count := by
  rw [window.tracks.tail, window.owner _ (Nat.mod_lt _ size.positive)]
  exact window_tail size.positive window.tracks.bound

theorem OwnedWindow.head_owner (window : OwnedWindow head size slot consumer popped pushed) :
    (head.ring (head.idx slot).head).sown = consumer ↔ popped < pushed := by
  rw [window.tracks.head, window.owner _ (Nat.mod_lt _ size.positive)]
  exact window_head

theorem OwnedWindow.grow (window : OwnedWindow head size slot consumer popped pushed)
    (i : Nat) (inside : i < size.count) :
    (if i = pushed % size.count then consumer else (head.ring i).sown) = consumer ↔
      Window size.count popped (pushed + 1) i := by
  rw [window_push window.tracks.le, ← window.owner i inside]
  split
  · simp_all
  · simp_all

theorem OwnedWindow.shrink (window : OwnedWindow head size slot consumer popped pushed)
    (i : Nat) (inside : i < size.count) :
    (if i = popped % size.count then consumer.other else (head.ring i).sown) = consumer ↔
      Window size.count (popped + 1) pushed i := by
  rw [window_pop size.positive window.tracks.bound, ← window.owner i inside]
  split
  · simp_all
  · simp_all

theorem push_refused (head : RingHead) (iter : IoqIterator)
    (refused : iter.pos ≠ (head.idx iter.idx).tail ∨ iter.descSown head ≠ some iter.ioq.locale) :
    ioqIterPush head iter = ⟨-1, head, iter, false⟩ := by
  rw [ioqIterPush, if_pos refused]

theorem push_admitted (head : RingHead) (iter : IoqIterator) (single : iter.dualidx = false)
    (position : iter.pos = (head.idx iter.idx).tail)
    (owned : iter.descSown head = some iter.ioq.locale) :
    ioqIterPush head iter =
      finishIter (head.setIdx iter.idx (idxTailPush (head.idx iter.idx) iter.ioq.size.count)) iter := by
  simp [ioqIterPush, position, owned, single]

theorem pop_refused (head : RingHead) (iter : IoqIterator)
    (refused : iter.pos ≠ (head.idx iter.idx).head ∨ iter.descSown head ≠ some iter.ioq.locale) :
    ioqIterPop head iter = ⟨-1, head, iter, false⟩ := by
  rw [ioqIterPop, if_pos refused]

theorem pop_admitted (head : RingHead) (iter : IoqIterator)
    (position : iter.pos = (head.idx iter.idx).head)
    (owned : iter.descSown head = some iter.ioq.locale) :
    ioqIterPop head iter =
      finishIter (head.setIdx iter.idx (idxHeadPop (head.idx iter.idx) iter.ioq.size.count)) iter := by
  simp [ioqIterPop, position, owned]

def AtTail (head : RingHead) (iter : IoqIterator) : Prop :=
  iter.pos = (head.idx iter.idx).tail ∧ iter.descSown head = some iter.ioq.locale

def AtHead (head : RingHead) (iter : IoqIterator) : Prop :=
  iter.pos = (head.idx iter.idx).head ∧ iter.descSown head = some iter.ioq.locale

theorem push_away {iter : IoqIterator} (away : ¬ AtTail head iter) :
    ioqIterPush head iter = ⟨-1, head, iter, false⟩ := by
  apply push_refused
  rw [← not_and_or]
  exact away

theorem push_cases {iter : IoqIterator} (single : iter.dualidx = false) :
    (AtTail head iter ∧ ioqIterPush head iter =
        finishIter (head.setIdx iter.idx (idxTailPush (head.idx iter.idx) iter.ioq.size.count)) iter) ∨
      (¬ AtTail head iter ∧ ioqIterPush head iter = ⟨-1, head, iter, false⟩) := by
  by_cases standing : AtTail head iter
  · exact Or.inl ⟨standing, push_admitted head iter single standing.1 standing.2⟩
  · exact Or.inr ⟨standing, push_away standing⟩

theorem pop_cases (head : RingHead) (iter : IoqIterator) :
    (AtHead head iter ∧ ioqIterPop head iter =
        finishIter (head.setIdx iter.idx (idxHeadPop (head.idx iter.idx) iter.ioq.size.count)) iter) ∨
      (¬ AtHead head iter ∧ ioqIterPop head iter = ⟨-1, head, iter, false⟩) := by
  by_cases standing : AtHead head iter
  · exact Or.inl ⟨standing, pop_admitted head iter standing.1 standing.2⟩
  · refine Or.inr ⟨standing, pop_refused head iter ?_⟩
    rw [← not_and_or]
    exact standing

theorem push_succeeds_iff {iter : IoqIterator} (single : iter.dualidx = false) :
    (ioqIterPush head iter).ret = 0 ↔ AtTail head iter := by
  rcases push_cases single with ⟨standing, result⟩ | ⟨away, result⟩
  · rw [result, finishIter_ret]
    exact ⟨fun _ => standing, fun _ => rfl⟩
  · rw [result]
    have refused : (-1 : Int) ≠ 0 := by decide
    exact ⟨fun impossible => absurd impossible refused, fun standing => absurd standing away⟩

theorem pop_succeeds_iff (head : RingHead) (iter : IoqIterator) :
    (ioqIterPop head iter).ret = 0 ↔ AtHead head iter := by
  rcases pop_cases head iter with ⟨standing, result⟩ | ⟨away, result⟩
  · rw [result, finishIter_ret]
    exact ⟨fun _ => standing, fun _ => rfl⟩
  · rw [result]
    have refused : (-1 : Int) ≠ 0 := by decide
    exact ⟨fun impossible => absurd impossible refused, fun standing => absurd standing away⟩

def RingHead.handOver (head : RingHead) (slot : IdxSlot) (idx : RingIdx) (pos : Nat)
    (owner : Locality) : RingHead :=
  (head.setIdx slot idx).setSown pos owner

@[simp] theorem handOver_idx (head : RingHead) (idx : RingIdx) (pos : Nat) (owner : Locality) :
    (head.handOver slot idx pos owner).idx slot = idx := by
  simp [RingHead.handOver]

theorem handOver_idx_ne (head : RingHead) (other : IdxSlot) (different : other ≠ slot)
    (idx : RingIdx) (pos : Nat) (owner : Locality) :
    (head.handOver slot idx pos owner).idx other = head.idx other := by
  simp [RingHead.handOver, different]

@[simp] theorem handOver_signal (head : RingHead) (idx : RingIdx) (pos : Nat) (owner : Locality) :
    (head.handOver slot idx pos owner).signal = head.signal := rfl

theorem handOver_desc (head : RingHead) (idx : RingIdx) (pos : Nat) (owner : Locality) (i : Nat) :
    (head.handOver slot idx pos owner).ring i =
      { head.ring i with sown := if i = pos then owner else (head.ring i).sown } := by
  by_cases same : i = pos
  · simp [RingHead.handOver, RingHead.setSown, same]
  · simp [RingHead.handOver, RingHead.setSown, same]

theorem handOver_sown (head : RingHead) (idx : RingIdx) (pos : Nat) (owner : Locality) (i : Nat) :
    ((head.handOver slot idx pos owner).ring i).sown =
      if i = pos then owner else (head.ring i).sown := by
  rw [handOver_desc]

theorem finishIter_at (head : RingHead) (locale : Locality) (n : Nat) :
    finishIter head (iterAt ⟨locale, size⟩ slot .zero (n % size.count)) =
      ⟨0, head.setSown (n % size.count) locale.other,
        iterAt ⟨locale, size⟩ slot .zero ((n + 1) % size.count), false⟩ := by
  rw [← moduloInc_mod]
  rfl

theorem OwnedWindow.push (window : OwnedWindow head size slot consumer popped pushed)
    (room : pushed < popped + size.count) :
    ioqIterPush head (iterAt ⟨consumer.other, size⟩ slot .zero (head.idx slot).tail) =
      ⟨0, head.handOver slot (idxTailPush (head.idx slot) size.count) (head.idx slot).tail consumer,
        iterAt ⟨consumer.other, size⟩ slot .zero ((pushed + 1) % size.count), false⟩ := by
  have free : (head.ring (head.idx slot).tail).sown = consumer.other := by
    apply Locality.eq_other
    intro taken
    have full := window.tail_owner.mp taken
    omega
  rw [push_admitted head (iterAt ⟨consumer.other, size⟩ slot .zero (head.idx slot).tail) rfl rfl
    (congrArg some free), window.tracks.tail, finishIter_at, Locality.other_other]
  rfl

theorem OwnedWindow.after_push (window : OwnedWindow head size slot consumer popped pushed)
    (room : pushed < popped + size.count) :
    OwnedWindow
      (head.handOver slot (idxTailPush (head.idx slot) size.count) (head.idx slot).tail consumer)
      size slot consumer popped (pushed + 1) := by
  refine ⟨?_, ?_⟩
  · rw [handOver_idx]
    exact window.tracks.push room
  · intro i inside
    rw [handOver_sown, window.tracks.tail]
    exact window.grow i inside

theorem OwnedWindow.push_full (window : OwnedWindow head size slot consumer popped pushed)
    (full : pushed = popped + size.count) :
    ioqIterPush head (iterAt ⟨consumer.other, size⟩ slot .zero (head.idx slot).tail) =
      ⟨-1, head, iterAt ⟨consumer.other, size⟩ slot .zero (head.idx slot).tail, false⟩ := by
  apply push_refused
  right
  have taken := window.tail_owner.mpr full
  have foreign : consumer ≠ consumer.other := (Locality.other_ne consumer).symm
  simpa [IoqIterator.descSown, iterAt, taken] using foreign

theorem OwnedWindow.pop (window : OwnedWindow head size slot consumer popped pushed)
    (nonempty : popped < pushed) :
    ioqIterPop head (iterAt ⟨consumer, size⟩ slot .zero (head.idx slot).head) =
      ⟨0, head.handOver slot (idxHeadPop (head.idx slot) size.count) (head.idx slot).head
          consumer.other,
        iterAt ⟨consumer, size⟩ slot .zero ((popped + 1) % size.count), false⟩ := by
  have ready := window.head_owner.mpr nonempty
  rw [pop_admitted head (iterAt ⟨consumer, size⟩ slot .zero (head.idx slot).head) rfl
    (congrArg some ready), window.tracks.head, finishIter_at]
  rfl

theorem OwnedWindow.after_pop (window : OwnedWindow head size slot consumer popped pushed)
    (nonempty : popped < pushed) :
    OwnedWindow
      (head.handOver slot (idxHeadPop (head.idx slot) size.count) (head.idx slot).head consumer.other)
      size slot consumer (popped + 1) pushed := by
  refine ⟨?_, ?_⟩
  · rw [handOver_idx]
    exact window.tracks.pop nonempty
  · intro i inside
    rw [handOver_sown, window.tracks.head]
    exact window.shrink i inside

end OwnedWindow

end Vbus
