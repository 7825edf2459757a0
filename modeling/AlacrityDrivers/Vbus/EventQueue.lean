import AlacrityDrivers.Library.Transition
import AlacrityDrivers.Vbus.EventqInit

namespace Vbus.EventQueue

open Transition Circular

/-- What `eventq_intr_dpc` does after its `_ShmSignalWakeup`; any other caller returns. -/
inductive After where
  | done
  | enable
deriving DecidableEq, Repr

/-- The places in the guest's routines: the ISR, the calls into the shm-signal library, and
    `eventq_wakeup` with its final `ioq_signal`. `mark` is the number of postings when the drain
    dispatched the event it is about to retire. -/
inductive GuestPc where
  | isrTest
  | isrDisable
  | isrQueue
  | enable (after : After)
  | disable
  | wakeup (pc : WakeupPc) (after : After)
  | seek (after : After)
  | test (pos : Nat) (after : After)
  | dispatch (pos : Nat) (after : After)
  | clear (pos mark : Nat) (after : After)
  | pop (pos mark : Nat) (after : After)
  | signal (pc : InjectPc) (after : After)
deriving DecidableEq, Repr

inductive Callback where
  | d0Entry
  | d0Exit
  | intrEnable
  | intrDisable
deriving DecidableEq, Repr

def Callback.pc : Callback → GuestPc
  | .d0Entry => .enable .done
  | .d0Exit => .disable
  | .intrEnable => .enable .done
  | .intrDisable => .disable

def After.pc : After → Option GuestPc
  | .done => none
  | .enable => some (.enable .done)

/-- The ring, the host's place in its `ShmSignalInject`, the interrupts on their way, the queued
    DPC, and the guest's threads. An event buffer holds the number of a posting, or nothing after
    the `memset`. -/
structure State where
  head : RingHead
  events : Nat → Option Nat
  host : Option InjectPc
  inFlight : Nat
  dpcQueued : Bool
  guest : Nat → Option GuestPc
  posted : Nat
  pops : Nat
  dispatched : List Nat

inductive Action where
  | post
  | hostStep
  | deliver (thread : Nat)
  | startDpc (thread : Nat)
  | call (thread : Nat) (callback : Callback)
  | guestStep (thread : Nat)

def State.irq (s : State) : ShmSignalIrq := s.head.signal.irq .north

def State.setIrq (s : State) (locale : Locality) (irq : ShmSignalIrq) : State :=
  { s with head := { s.head with signal := s.head.signal.set locale irq } }

def State.goto (s : State) (thread : Nat) (pc : Option GuestPc) : State :=
  { s with guest := Function.update s.guest thread pc }

/-- The iterator after `ioq_iter_init` without flags and `ioq_iter_seek` to the head. -/
def drainIter (size : RingSize) (pos : Nat) : IoqIterator := iterAt ⟨.north, size⟩ .inuse .zero pos

/-- One posting, up to the `ShmSignalInject` that follows an admitted push. -/
def post (size : RingSize) (s : State) : Option State :=
  (hostPush size s.head).map fun pushed =>
    if pushed.ret < 0 then { s with head := pushed.head }
    else
      let cookie := (s.head.ring (s.head.idx .inuse).tail).cookie
      { s with
        head := pushed.head
        events := Function.update s.events cookie (some s.posted)
        host := some .markDirty
        posted := s.posted + 1 }

/-- One access of the host's `ShmSignalInject`; the last one raises the interrupt. -/
def hostStep (s : State) (pc : InjectPc) : State :=
  { s.setIrq .north (injectStep s.irq pc).1 with
    host := (injectStep s.irq pc).2
    inFlight := if pc = .inject then s.inFlight + 1 else s.inFlight }

def guestStep (size : RingSize) (s : State) (thread : Nat) : GuestPc → State
  | .isrTest => s.goto thread (if s.irq.enabled then some .isrDisable else none)
  | .isrDisable => (s.setIrq .north (localStep s.irq .disable).1).goto thread (some .isrQueue)
  | .isrQueue => { s with dpcQueued := true }.goto thread none
  | .enable after =>
    (s.setIrq .north (localStep s.irq .enable).1).goto thread (some (.wakeup .testEnabled after))
  | .disable => (s.setIrq .north (localStep s.irq .disable).1).goto thread none
  | .wakeup .notify after => s.goto thread (some (.seek after))
  | .wakeup pc after =>
    (s.setIrq .north (wakeupStep s.irq pc).1).goto thread
      (match (wakeupStep s.irq pc).2 with
        | some next => some (.wakeup next after)
        | none => after.pc)
  | .seek after => s.goto thread (some (.test (s.head.idx .inuse).head after))
  | .test pos after =>
    s.goto thread (some (if (s.head.ring pos).sown = .north then .dispatch pos after
      else .signal .markDirty after))
  | .dispatch pos after =>
    { s with dispatched := s.dispatched ++ (s.events (s.head.ring pos).cookie).toList }.goto thread
      (some (.clear pos s.posted after))
  | .clear pos mark after =>
    { s with events := Function.update s.events (s.head.ring pos).cookie none }.goto thread
      (some (.pop pos mark after))
  | .pop pos _ after =>
    let popped := ioqIterPop s.head (drainIter size pos)
    { s with
      head := popped.head
      pops := if popped.ret < 0 then s.pops else s.pops + 1 }.goto thread
      (some (.test popped.iter.pos after))
  | .signal pc after =>
    (s.setIrq .south (injectStep (s.head.signal.irq .south) pc).1).goto thread
      (match (injectStep (s.head.signal.irq .south) pc).2 with
        | some next => some (.signal next after)
        | none => after.pc)

def step (size : RingSize) (s : State) : Action → Option State
  | .post => if s.host = none then post size s else none
  | .hostStep => s.host.map (hostStep s)
  | .deliver thread =>
    if 0 < s.inFlight ∧ s.guest thread = none then
      some ({ s with inFlight := s.inFlight - 1 }.goto thread (some .isrTest))
    else none
  | .startDpc thread =>
    if s.dpcQueued = true ∧ s.guest thread = none then
      some ({ s with dpcQueued := false }.goto thread (some (.wakeup .testEnabled .enable)))
    else none
  | .call thread callback =>
    if s.guest thread = none then some (s.goto thread (some callback.pc)) else none
  | .guestStep thread => (s.guest thread).map (guestStep size s thread)

def machine (size : RingSize) : Machine State Action where
  start :=
    { head := eventqStart size, events := fun _ => none, host := none, inFlight := 0,
      dpcQueued := false, guest := fun _ => none, posted := 0, pops := 0, dispatched := [] }
  step := step size

structure State.Quiet (s : State) : Prop where
  host : s.host = none
  inFlight : s.inFlight = 0
  dpcQueued : s.dpcQueued = false
  guest : ∀ thread, s.guest thread = none

/-- The event queue has caught up with the host. -/
structure State.CaughtUp (s : State) : Prop where
  dispatched : ∀ k, k < s.posted → k ∈ s.dispatched
  owner : (s.head.ring (s.head.idx .inuse).head).sown = .south
  dirty : s.irq.dirty = false

def GuestPc.Attends (pending : Bool) : GuestPc → Prop
  | .isrTest => True
  | .isrDisable => True
  | .isrQueue => True
  | .enable _ => True
  | .disable => False
  | .wakeup .testEnabled _ => True
  | .wakeup .testDirty _ => True
  | .wakeup .testPending after => pending = true ∨ after = .enable
  | .wakeup .clearDirty _ => True
  | .wakeup .notify after => after = .enable
  | .seek after => after = .enable
  | .test _ after => after = .enable
  | .dispatch _ after => after = .enable
  | .clear _ _ after => after = .enable
  | .pop _ _ after => after = .enable
  | .signal _ after => after = .enable

def State.Notified (s : State) : Prop :=
  0 < s.inFlight ∨ s.dpcQueued = true ∨
    ∃ thread pc, s.guest thread = some pc ∧ pc.Attends s.irq.pending

/-- The host skips an injection for `pending` only while a notification is on its way, and no drain
    retires a descriptor that was posted again after the drain dispatched it. -/
def Heeded (size : RingSize) (s : State) : Action → Prop
  | .hostStep => s.host = some .testPending → s.irq.pending = true → s.irq.enabled = true →
      s.irq.dirty = true → s.Notified
  | .guestStep thread => ∀ pos mark after,
      s.guest thread = some (.clear pos mark after) ∨ s.guest thread = some (.pop pos mark after) →
        ¬ Window size.count mark s.posted pos
  | _ => True

section Frame

variable (s : State) (thread : Nat) (pc : Option GuestPc) (irq : ShmSignalIrq)

@[simp] theorem goto_guest_self : (s.goto thread pc).guest thread = pc := by
  simp [State.goto]

theorem goto_guest_other {other : Nat} (different : other ≠ thread) :
    (s.goto thread pc).guest other = s.guest other := by
  simp [State.goto, different]

@[simp] theorem goto_irq : (s.goto thread pc).irq = s.irq := rfl

@[simp] theorem setIrq_north : (s.setIrq .north irq).irq = irq := by
  simp [State.setIrq, State.irq]

@[simp] theorem setIrq_south : (s.setIrq .south irq).irq = s.irq :=
  s.head.signal.set_other .south irq

theorem drain_signal (size : RingSize) (head : RingHead) (pos : Nat) :
    (ioqIterPop head (drainIter size pos)).head.signal = head.signal := by
  by_cases admitted : pos = (head.idx .inuse).head ∧ (head.ring pos).sown = .north
  · rw [pop_admitted head (drainIter size pos) admitted.1 (congrArg some admitted.2)]
    exact finishIter_signal _ _ rfl
  · rw [pop_refused head (drainIter size pos)]
    by_cases position : pos = (head.idx .inuse).head
    · right
      intro owned
      exact admitted ⟨position, Option.some.inj owned⟩
    · exact Or.inl position

end Frame

section Outside

def GuestPc.Unplaced : GuestPc → Prop
  | .test _ _ => False
  | .dispatch _ _ => False
  | .clear _ _ _ => False
  | .pop _ _ _ => False
  | _ => True

def GuestPc.InLoop : GuestPc → Prop
  | .seek _ => True
  | pc => ¬ pc.Unplaced

theorem After.unplaced (after : After) (new : GuestPc) (next : after.pc = some new) : new.Unplaced := by
  cases after with
  | done => cases next
  | enable =>
    rw [← Option.some.inj next]
    exact True.intro

theorem unplaced_some {pc : GuestPc} (unplaced : pc.Unplaced) :
    ∀ new, some pc = some new → new.Unplaced := by
  intro new next
  rw [← Option.some.inj next]
  exact unplaced

theorem guestStep_outside (size : RingSize) (s : State) (thread : Nat) (pc : GuestPc)
    (outside : ¬ pc.InLoop) :
    ∃ signal dpcQueued next, guestStep size s thread pc = { s with
        head := { s.head with signal := signal }
        dpcQueued := dpcQueued }.goto thread next ∧
      ∀ new, next = some new → new.Unplaced := by
  cases pc with
  | isrTest =>
    refine ⟨_, _, _, rfl, ?_⟩
    intro new next
    split at next
    · rw [← Option.some.inj next]
      exact True.intro
    · cases next
  | isrDisable => exact ⟨_, _, _, rfl, unplaced_some True.intro⟩
  | isrQueue => exact ⟨_, true, none, rfl, nofun⟩
  | enable after => exact ⟨_, _, _, rfl, unplaced_some True.intro⟩
  | disable => exact ⟨_, _, none, rfl, nofun⟩
  | wakeup pc after =>
    cases pc with
    | notify => exact ⟨_, _, _, rfl, unplaced_some True.intro⟩
    | _ =>
      refine ⟨_, _, _, rfl, ?_⟩
      intro new next
      split at next
      · rw [← Option.some.inj next]
        exact True.intro
      · exact after.unplaced new next
  | signal pc after =>
    refine ⟨_, _, _, rfl, ?_⟩
    intro new next
    split at next
    · rw [← Option.some.inj next]
      exact True.intro
    · exact after.unplaced new next
  | seek after => exact absurd True.intro outside
  | _ => exact absurd id outside

end Outside

end Vbus.EventQueue
