import AlacrityDrivers.Vbus.EventqInit
import Mathlib.Data.Set.Function

namespace Vbus

/-- The event queue in `vbus_pci`: the north's `ioq` and the memory it shares with the host. -/
structure Eventq where
  ioq : Ioq
  head : RingHead

/-- What `eventq_init` returns, the ring it leaves, and whether the notifier was signalled. -/
structure EventqSetup where
  status : NtStatus
  head : RingHead
  notified : Bool

/-- `eventq_ioq_init`; the flags say whether `VbusAlloc` found memory for the ring and the signal. -/
def eventqIoqInit (headAllocated signalAllocated : Bool) (ringsize : RingSize) :
    NtStatus × Option Eventq :=
  if !headAllocated then (.noMemory, none)
  else if !signalAllocated then (.noMemory, none)
  else (.success, some ⟨⟨.north, ringsize⟩, .zeroed⟩)

/-- `eventq_init`; the flag says whether `VbusAlloc` found memory for the events. -/
def eventqInitQueue (allocated : Bool) (qlen : Nat) (eventq : Eventq) : Option EventqSetup :=
  if !allocated then some ⟨.noMemory, eventq.head, false⟩
  else (ioqIterInit eventq.ioq .valid .zero).map fun iter =>
    let primed := eventqInitLoop qlen 0 eventq.head (ioqIterSeek eventq.head iter .tail 0).2
    if primed.1 = .success then
      let enabled := shmSignalEnable (primed.2.signal.irq .north)
      ⟨.success, { primed.2 with signal := primed.2.signal.set .north enabled.1 }, enabled.2⟩
    else ⟨primed.1, primed.2, false⟩

/-- The part of `VbusPciPrepareHardware` that sets the event queue up. -/
def setupEventq (headAllocated signalAllocated allocated : Bool) (qlen : RingSize) :
    Option EventqSetup :=
  match eventqIoqInit headAllocated signalAllocated qlen with
  | (.success, some eventq) => eventqInitQueue allocated qlen.count eventq
  | (status, _) => some ⟨status, .zeroed, false⟩

section Priming

variable {size : RingSize} {head : RingHead}

theorem EventqReady.counts (ready : EventqReady head size) :
    ioqFull head .valid = true ∧ ioqCount head size .valid = size.count ∧
      ioqEmpty head size .inuse = true := by
  have inuse : ioqCount head size .inuse = 0 := ready.inuse.tracks.count
  refine ⟨ready.valid.tracks.isFull.mpr (Nat.zero_add _).symm, ready.valid.tracks.count, ?_⟩
  rw [ioqEmpty, inuse]
  rfl

theorem EventqReady.buffers (ready : EventqReady head size) :
    Set.BijOn (fun i => (head.ring i).cookie) {i | i < size.count} {i | i < size.count} := by
  apply (Set.bijOn_id {i | i < size.count}).congr
  intro i inside
  exact (ready.desc i inside).cookie.symm

theorem eventqInitQueue_zeroed (size : RingSize) :
    ∃ head, eventqInitQueue true size.count ⟨⟨.north, size⟩, .zeroed⟩ = some ⟨.success, head, false⟩ ∧
      EventqReady head size := by
  rcases primed_loop size size.count 0 .zeroed (Nat.zero_add _) (primed_zero size) with
    ⟨after, looped, primed⟩
  refine ⟨ioqNotifyEnable after .north, ?_, primed.ready⟩
  have sought : eventqInitQueue true size.count ⟨⟨.north, size⟩, .zeroed⟩ =
      let primed := eventqInitLoop size.count 0 .zeroed (iterAt ⟨.north, size⟩ .valid .zero 0)
      if primed.1 = .success then
        let enabled := shmSignalEnable (primed.2.signal.irq .north)
        some ⟨.success, { primed.2 with signal := primed.2.signal.set .north enabled.1 }, enabled.2⟩
      else some ⟨primed.1, primed.2, false⟩ := by
    change some (if _ then _ else _) = _
    exact apply_ite some _ _ _
  have quiet : (shmSignalEnable (after.signal.irq .north)).2 = false := by
    rw [primed.signal]
    rfl
  rw [Nat.zero_mod] at looped
  rw [sought, looped]
  change some (EventqSetup.mk .success (ioqNotifyEnable after .north) _) = _
  rw [quiet]

end Priming

end Vbus
