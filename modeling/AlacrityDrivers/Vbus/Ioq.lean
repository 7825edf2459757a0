import Mathlib.Algebra.Group.Int.Defs
import Mathlib.Algebra.Group.Nat.Defs
import AlacrityDrivers.Vbus.ShmSignal

namespace Vbus

structure RingDesc where
  cookie : Nat
  ptr : Nat
  len : Nat
  valid : Bool
  sown : Locality
deriving DecidableEq, Repr

structure RingIdx where
  head : Nat
  tail : Nat
  full : Bool
deriving DecidableEq, Repr

/-- The two elements of `idx[2]`. -/
inductive IdxSlot where
  | valid
  | inuse
deriving DecidableEq, Repr

inductive IoqIdxType where
  | valid
  | inuse
  | both
  | invalid
deriving DecidableEq, Repr

/-- `struct ioq_ring_head`, the memory both sides share. -/
structure RingHead where
  signal : ShmSignalDesc
  idx : IdxSlot → RingIdx
  ring : Nat → RingDesc

/-- The ring as `VbusAlloc` hands it out: every descriptor belongs to the north. -/
def RingHead.zeroed : RingHead where
  signal := .zeroed
  idx := fun _ => ⟨0, 0, false⟩
  ring := fun _ => ⟨0, 0, 0, false, .north⟩

/-- The number of descriptors. The ring code passes it on as an `int`. -/
structure RingSize where
  count : Nat
  positive : 0 < count
  fits : count < 2 ^ 31

/-- The part of `struct ioq` that the ring operations read. -/
structure Ioq where
  locale : Locality
  size : RingSize

/-- `struct ioq_iterator`; `desc` is `NULL` or the address of one element of the ring. -/
structure IoqIterator where
  ioq : Ioq
  idx : IdxSlot
  pos : Nat
  desc : Option Nat
  update : Bool
  dualidx : Bool
  flipowner : Bool

/-- `flags` of `ioq_iter_init`: `IOQ_ITER_AUTOUPDATE` and `IOQ_ITER_NOFLIPOWNER`. -/
structure IterFlags where
  autoupdate : Bool
  noflipowner : Bool
deriving DecidableEq, Repr

def IterFlags.zero : IterFlags := ⟨false, false⟩

inductive IoqSeekType where
  | tail
  | next
  | head
  | set
deriving DecidableEq, Repr

def uint32 (value : Nat) : Nat := value % 2 ^ 32

def moduloInc (val mod : Nat) : Nat :=
  if val = mod - 1 then 0 else uint32 (val + 1)

def idxFull (idx : RingIdx) : Bool := idx.full && idx.head == idx.tail

def ioqRingCount (idx : RingIdx) (count : Nat) : Nat :=
  if idx.full && idx.head == idx.tail then count
  else if idx.head ≤ idx.tail then idx.tail - idx.head
  else uint32 (idx.tail + count + 2 ^ 32 - idx.head)

def idxTailPush (idx : RingIdx) (count : Nat) : RingIdx :=
  let tail := moduloInc idx.tail count
  if idx.head = tail then { idx with full := true, tail := tail } else { idx with tail := tail }

/-- The head and `full` writes of `ioq_iter_pop`. -/
def idxHeadPop (idx : RingIdx) (count : Nat) : RingIdx :=
  let head := moduloInc idx.head count
  if idx.full then { idx with head := head, full := false } else { idx with head := head }

/-- What one ring operation returns and leaves; `injected` says that `ops->inject` ran. -/
structure IterResult where
  ret : Int
  head : RingHead
  iter : IoqIterator
  injected : Bool

def ioqIterSetpos (iter : IoqIterator) (pos : Nat) : IoqIterator :=
  { iter with pos := pos, desc := some pos }

/-- `ioq_iter_seek`: the return value and the iterator. A negative `offset` wraps to a `UINT32`. -/
def ioqIterSeek (head : RingHead) (iter : IoqIterator) (type : IoqSeekType) (offset : Int) :
    Int × IoqIterator :=
  match type with
  | .next => (0, ioqIterSetpos iter (moduloInc iter.pos iter.ioq.size.count))
  | .tail => (0, ioqIterSetpos iter (head.idx iter.idx).tail)
  | .head => (0, ioqIterSetpos iter (head.idx iter.idx).head)
  | .set =>
    if (iter.ioq.size.count : Int) ≤ offset then (-1, iter)
    else (0, ioqIterSetpos iter (offset % 2 ^ 32).toNat)

/-- `iter->desc->sown`; nothing can be read through `NULL`. -/
def IoqIterator.descSown (iter : IoqIterator) (head : RingHead) : Option Locality :=
  iter.desc.map fun slot => (head.ring slot).sown

def RingHead.setIdx (head : RingHead) (slot : IdxSlot) (idx : RingIdx) : RingHead :=
  { head with idx := Function.update head.idx slot idx }

def RingHead.setSown (head : RingHead) (slot : Nat) (owner : Locality) : RingHead :=
  { head with ring := Function.update head.ring slot { head.ring slot with sown := owner } }

def flipOwner (head : RingHead) (iter : IoqIterator) : RingHead :=
  match iter.flipowner, iter.desc with
  | true, some slot => head.setSown slot iter.ioq.locale.other
  | _, _ => head

/-- `ioq_signal`, which injects into the other locality's irq. -/
def ioqSignal (head : RingHead) (locale : Locality) : RingHead × Bool :=
  let (irq, injected) := shmSignalInject (head.signal.irq locale.other)
  ({ head with signal := head.signal.set locale.other irq }, injected)

/-- The common end of push and pop: owner flip, seek to the next descriptor, automatic update. -/
def finishIter (head : RingHead) (iter : IoqIterator) : IterResult :=
  let head := flipOwner head iter
  let (ret, moved) := ioqIterSeek head iter .next 0
  if iter.update then
    let (head, injected) := ioqSignal head iter.ioq.locale
    ⟨ret, head, moved, injected⟩
  else ⟨ret, head, moved, false⟩

def ioqIterPush (head : RingHead) (iter : IoqIterator) : IterResult :=
  if iter.pos ≠ (head.idx iter.idx).tail ∨ iter.descSown head ≠ some iter.ioq.locale then
    ⟨-1, head, iter, false⟩
  else
    let head := head.setIdx iter.idx (idxTailPush (head.idx iter.idx) iter.ioq.size.count)
    if iter.dualidx then
      let head := head.setIdx .inuse (idxTailPush (head.idx .inuse) iter.ioq.size.count)
      if (head.idx .inuse).tail ≠ (head.idx .valid).tail then ⟨-1, head, iter, false⟩
      else finishIter head iter
    else finishIter head iter

def ioqIterPop (head : RingHead) (iter : IoqIterator) : IterResult :=
  if iter.pos ≠ (head.idx iter.idx).head ∨ iter.descSown head ≠ some iter.ioq.locale then
    ⟨-1, head, iter, false⟩
  else
    finishIter (head.setIdx iter.idx (idxHeadPop (head.idx iter.idx) iter.ioq.size.count)) iter

/-- `idxtype_to_idx`, whose result is uninitialised for the last two types. -/
def idxtypeToIdx : IoqIdxType → Option IdxSlot
  | .valid => some .valid
  | .inuse => some .inuse
  | .both => none
  | .invalid => none

/-- `ioq_iter_init`; `none` where the iterator would be left with an uninitialised index. -/
def ioqIterInit (ioq : Ioq) (type : IoqIdxType) (flags : IterFlags) : Option IoqIterator :=
  let dualidx := decide (type = .both)
  let type := if type = .both then .valid else type
  (idxtypeToIdx type).map fun slot =>
    { ioq := ioq, idx := slot, pos := 2 ^ 32 - 1, desc := none, update := flags.autoupdate,
      dualidx := dualidx, flipowner := !flags.noflipowner }

def ioqCount (head : RingHead) (size : RingSize) (slot : IdxSlot) : Nat :=
  ioqRingCount (head.idx slot) size.count

def ioqRemain (head : RingHead) (size : RingSize) (slot : IdxSlot) : Nat :=
  size.count - ioqCount head size slot

def ioqFull (head : RingHead) (slot : IdxSlot) : Bool := idxFull (head.idx slot)

def ioqEmpty (head : RingHead) (size : RingSize) (slot : IdxSlot) : Bool :=
  ioqCount head size slot == 0

end Vbus
