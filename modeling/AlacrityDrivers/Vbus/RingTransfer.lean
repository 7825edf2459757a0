import AlacrityDrivers.Library.AtomicQueue
import AlacrityDrivers.Vbus.FullRace

namespace Vbus.RingTransfer

open Transition Circular FullRace

structure Payload where
  cookie : Nat
  ptr : Nat
  len : Nat
  valid : Bool
deriving DecidableEq, Repr

def payload (desc : RingDesc) : Payload := ⟨desc.cookie, desc.ptr, desc.len, desc.valid⟩

inductive DescWrite where
  | cookie (value : Nat)
  | ptr (value : Nat)
  | len (value : Nat)
  | valid (value : Bool)

def DescWrite.apply (desc : RingDesc) : DescWrite → RingDesc
  | .cookie value => { desc with cookie := value }
  | .ptr value => { desc with ptr := value }
  | .len value => { desc with len := value }
  | .valid value => { desc with valid := value }

@[simp] theorem DescWrite.apply_sown (desc : RingDesc) (write : DescWrite) :
    (write.apply desc).sown = desc.sown := by
  cases write <;> rfl

def fill (head : RingHead) (slot : Nat) (write : DescWrite) : RingHead :=
  { head with ring := Function.update head.ring slot (write.apply (head.ring slot)) }

/-- The places in one pass of the loop of `eventq_wakeup`: the test of `iter.desc->sown`, the read of
    the descriptor, and the pop with what was read. -/
inductive NorthPc where
  | look
  | read
  | pop (value : Payload)
deriving DecidableEq, Repr

structure State where
  ring : FullRace.State
  north : Option NorthPc

/-- The south fills the descriptor at its iterator and pushes it; the north looks at the one at its
    iterator, reads it and pops it. -/
inductive Action where
  | seekPusher
  | fill (write : DescWrite)
  | callPush
  | pushAccess
  | seekPopper
  | callTake
  | takeAccess

def takeStep (s : State) : NorthPc → Option State
  | .look =>
    if s.ring.popper.descSown s.ring.head = some .north then some { s with north := some .read }
    else some { s with north := none }
  | .read =>
    s.ring.popper.desc.map fun slot =>
      { ring := { s.ring with popPc := some .testHead }
        north := some (.pop (payload (s.ring.head.ring slot))) }
  | .pop value =>
    s.ring.popPc.map fun pc =>
      { ring := afterPop s.ring pc
        north := (afterPop s.ring pc).popPc.map fun _ => .pop value }

def step (s : State) : Action → Option State
  | .seekPusher =>
    (FullRace.step s.ring (.seekPusher .tail 0)).map fun ring => { s with ring := ring }
  | .fill write =>
    if s.ring.pushPc = none ∧ s.ring.pusher.descSown s.ring.head = some .south then
      s.ring.pusher.desc.map fun slot =>
        { s with ring := { s.ring with head := RingTransfer.fill s.ring.head slot write } }
    else none
  | .callPush => (FullRace.step s.ring .callPush).map fun ring => { s with ring := ring }
  | .pushAccess => (FullRace.step s.ring .pushAccess).map fun ring => { s with ring := ring }
  | .seekPopper =>
    if s.north.isNone then
      (FullRace.step s.ring (.seekPopper .head 0)).map fun ring => { s with ring := ring }
    else none
  | .callTake => if s.north.isNone then some { s with north := some .look } else none
  | .takeAccess => s.north.bind (takeStep s)

def returns {Pc : Type} : Control Pc → Option Bool
  | .goto _ => none
  | .exit ret => some (decide (0 ≤ ret))

/-- What the callers see: the descriptor that a push offers and its return value, and the values that
    the passes of the loop take out, `none` for the descriptor that ends the loop. -/
def event (s : State) : Action → Option (AtomicQueue.Event Payload)
  | .callPush => s.ring.pusher.desc.map fun slot => .offered (payload (s.ring.head.ring slot))
  | .pushAccess =>
    s.ring.pushPc.bind fun pc =>
      (returns (pushStep s.ring.head s.ring.pusher pc).control).map .returned
  | .callTake => some .asked
  | .takeAccess =>
    s.north.bind fun north =>
      match north with
      | .look =>
        if s.ring.popper.descSown s.ring.head = some .north then none else some (.answered none)
      | .read => none
      | .pop value =>
        s.ring.popPc.bind fun pc =>
          (returns (popStep s.ring.head s.ring.popper pc).control).map fun success =>
            .answered (if success then some value else none)
  | _ => none

/-- Both iterators stand where `ioq_iter_seek` puts them after `ioq_iter_init`. -/
def observed {size : RingSize} (ring : EmptyRing size) (pusherUpdate popperUpdate : Bool) :
    Observed State Action (AtomicQueue.Event Payload) where
  machine :=
    { start :=
        { ring :=
            { (FullRace.machine ring pusherUpdate popperUpdate).start with
              pusher := (ioqIterSeek ring.head (inuseIter .south size pusherUpdate) .tail 0).2
              popper := (ioqIterSeek ring.head (inuseIter .north size popperUpdate) .head 0).2 }
          north := none }
      step := step }
  event := event

section Accesses

variable {head : RingHead} {iter : IoqIterator}

theorem push_payload (pc : PushPc) (slot : Nat) :
    payload ((pushStep head iter pc).head.ring slot) = payload (head.ring slot) := by
  cases pc with
  | flip =>
    simp only [pushStep, flipAccess, flipOwner]
    split
    · rename_i owned _ _
      by_cases same : slot = owned
      · rw [same]
        simp [RingHead.setSown, payload]
      · simp [RingHead.setSown, Function.update_of_ne same]
    · rfl
  | _ => rfl

theorem pop_payload (pc : PopPc) (slot : Nat) :
    payload ((popStep head iter pc).head.ring slot) = payload (head.ring slot) := by
  cases pc with
  | flip => exact push_payload .flip slot
  | _ => rfl

end Accesses

def handed (s : FullRace.State) : Nat :=
  s.pushes + match s.pushPc with
    | some (.signal _) => 1
    | _ => 0

def returned (s : FullRace.State) : Nat :=
  s.pops + match s.popPc with
    | some (.signal _) => 1
    | _ => 0

def contents (size : RingSize) (base : Nat) (s : FullRace.State) : List Payload :=
  listing size.count (fun slot => payload (s.head.ring slot)) (base + returned s) (base + handed s)

section Contents

variable {size : RingSize} {base : Nat} {s next : FullRace.State} {c : Progress}

theorem handed_eq (holds : Invariant size base s c) : c.handed = base + handed s := by
  have facts := holds.pusher
  rcases running : s.pushPc with _ | pc
  · rw [running] at facts
    simp only [handed, running]
    exact facts.2
  · rw [running] at facts
    cases pc with
    | testTail =>
      simp only [handed, running]
      exact facts.2
    | _ =>
      simp only [handed, running]
      exact facts.2.1

theorem returned_eq (holds : Invariant size base s c) : c.returned = base + returned s := by
  have facts := holds.popper
  rcases running : s.popPc with _ | pc
  · rw [running] at facts
    simp only [returned, running]
    exact facts.2
  · rw [running] at facts
    cases pc with
    | testHead =>
      simp only [returned, running]
      exact facts.2
    | _ =>
      simp only [returned, running]
      exact facts.2.1

theorem returned_le (holds : Invariant size base s c) : base + returned s ≤ base + handed s := by
  rw [← handed_eq holds, ← returned_eq holds]
  exact holds.midway.returned_le.trans holds.midway.popped_le

theorem handed_le (holds : Invariant size base s c) :
    base + handed s ≤ base + returned s + size.count := by
  rw [← handed_eq holds, ← returned_eq holds]
  exact holds.midway.handed_le.trans holds.midway.bound

theorem owner_window (holds : Invariant size base s c) {slot : Nat} (inside : slot < size.count) :
    (s.head.ring slot).sown = .north ↔
      Window size.count (base + returned s) (base + handed s) slot := by
  rw [← handed_eq holds, ← returned_eq holds]
  exact holds.midway.owner slot inside

theorem contents_same (payloads : ∀ slot, payload (next.head.ring slot) = payload (s.head.ring slot))
    (sameHanded : handed next = handed s) (sameReturned : returned next = returned s) :
    contents size base next = contents size base s := by
  rw [contents, contents, sameHanded, sameReturned]
  exact listing_congr fun slot _ => payloads slot

theorem contents_handed
    (payloads : ∀ slot, payload (next.head.ring slot) = payload (s.head.ring slot))
    (le : base + returned s ≤ base + handed s) (more : handed next = handed s + 1)
    (sameReturned : returned next = returned s) :
    contents size base next =
      contents size base s ++ [payload (s.head.ring ((base + handed s) % size.count))] := by
  rw [contents, contents, more, sameReturned, ← Nat.add_assoc, listing_push le]
  rw [listing_congr fun slot _ => payloads slot, payloads]

theorem contents_returned
    (payloads : ∀ slot, payload (next.head.ring slot) = payload (s.head.ring slot))
    (nonempty : returned s < handed s) (more : returned next = returned s + 1)
    (sameHanded : handed next = handed s) :
    contents size base s =
      payload (s.head.ring ((base + returned s) % size.count)) :: contents size base next := by
  rw [contents, contents, more, sameHanded, ← Nat.add_assoc, listing_pop (by omega)]
  congr 1
  exact listing_congr fun slot _ => (payloads slot).symm

theorem contents_length : (contents size base s).length = handed s - returned s := by
  rw [contents, listing_length, Nat.add_sub_add_left]

end Contents

end Vbus.RingTransfer
