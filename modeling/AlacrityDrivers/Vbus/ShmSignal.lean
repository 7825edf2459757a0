import Mathlib.Tactic.Common

namespace Vbus

/-- `enum shm_signal_locality` and `enum ioq_locality`; also what a descriptor's `sown` says. -/
inductive Locality where
  | north
  | south
deriving DecidableEq, Repr

def Locality.other : Locality → Locality
  | .north => .south
  | .south => .north

@[simp] theorem Locality.other_other (locale : Locality) : locale.other.other = locale := by
  cases locale <;> rfl

@[simp] theorem Locality.other_ne (locale : Locality) : locale.other ≠ locale := by
  cases locale <;> decide

theorem Locality.eq_other (locale side : Locality) (different : side ≠ locale) :
    side = locale.other := by
  cases locale <;> cases side <;> first | rfl | exact absurd rfl different

structure ShmSignalIrq where
  enabled : Bool
  pending : Bool
  dirty : Bool
deriving DecidableEq, Repr

/-- The shared part of `struct shm_signal_desc`: one `irq` for each locality. -/
structure ShmSignalDesc where
  irq : Locality → ShmSignalIrq

def ShmSignalDesc.zeroed : ShmSignalDesc := ⟨fun _ => ⟨false, false, false⟩⟩

def ShmSignalDesc.set (desc : ShmSignalDesc) (locale : Locality) (irq : ShmSignalIrq) :
    ShmSignalDesc := ⟨Function.update desc.irq locale irq⟩

@[simp] theorem ShmSignalDesc.set_same (desc : ShmSignalDesc) (locale : Locality)
    (irq : ShmSignalIrq) : (desc.set locale irq).irq locale = irq := by
  simp [ShmSignalDesc.set]

@[simp] theorem ShmSignalDesc.set_other (desc : ShmSignalDesc) (locale : Locality)
    (irq : ShmSignalIrq) : (desc.set locale irq).irq locale.other = desc.irq locale.other := by
  simp [ShmSignalDesc.set]

/-- `ShmSignalInject` on the irq of the other locality, undisturbed. The flag says whether
    `ops->inject` was called. -/
def shmSignalInject (irq : ShmSignalIrq) : ShmSignalIrq × Bool :=
  let irq := { irq with dirty := true }
  if irq.enabled && !irq.pending then ({ irq with pending := true }, true) else (irq, false)

/-- `_ShmSignalWakeup` on the irq of the own locality, undisturbed. The flag says whether the
    notifier was signalled. -/
def shmSignalWakeup (irq : ShmSignalIrq) : ShmSignalIrq × Bool :=
  if irq.enabled && (irq.dirty || irq.pending) then ({ irq with dirty := false }, true)
  else (irq, false)

def shmSignalEnable (irq : ShmSignalIrq) : ShmSignalIrq × Bool :=
  shmSignalWakeup { irq with enabled := true }

def shmSignalDisable (irq : ShmSignalIrq) : ShmSignalIrq × Bool :=
  ({ irq with enabled := false }, false)

def shmSignalEoi (irq : ShmSignalIrq) : ShmSignalIrq × Bool :=
  shmSignalWakeup { irq with pending := false }

/-- The places in `ShmSignalInject` before each access to the remote irq, and before `ops->inject`. -/
inductive InjectPc where
  | markDirty
  | testEnabled
  | testPending
  | setPending
  | inject
deriving DecidableEq, Repr

/-- One access of `ShmSignalInject`; `none` is its return. -/
def injectStep (irq : ShmSignalIrq) : InjectPc → ShmSignalIrq × Option InjectPc
  | .markDirty => ({ irq with dirty := true }, some .testEnabled)
  | .testEnabled => (irq, if irq.enabled then some .testPending else none)
  | .testPending => (irq, if irq.pending then none else some .setPending)
  | .setPending => ({ irq with pending := true }, some .inject)
  | .inject => (irq, none)

/-- The places in `_ShmSignalWakeup` before each access to the own irq, and before the notifier. -/
inductive WakeupPc where
  | testEnabled
  | testDirty
  | testPending
  | clearDirty
  | notify
deriving DecidableEq, Repr

def wakeupStep (irq : ShmSignalIrq) : WakeupPc → ShmSignalIrq × Option WakeupPc
  | .testEnabled => (irq, if irq.enabled then some .testDirty else none)
  | .testDirty => (irq, if irq.dirty then some .clearDirty else some .testPending)
  | .testPending => (irq, if irq.pending then some .clearDirty else none)
  | .clearDirty => ({ irq with dirty := false }, some .notify)
  | .notify => (irq, none)

/-- The places in `ShmSignalEnable`, `ShmSignalDisable` and `ShmSignalEoi`. -/
inductive LocalPc where
  | enable
  | disable
  | eoi
  | wakeup (pc : WakeupPc)
deriving DecidableEq, Repr

def localStep (irq : ShmSignalIrq) : LocalPc → ShmSignalIrq × Option LocalPc
  | .enable => ({ irq with enabled := true }, some (.wakeup .testEnabled))
  | .disable => ({ irq with enabled := false }, none)
  | .eoi => ({ irq with pending := false }, some (.wakeup .testEnabled))
  | .wakeup pc => ((wakeupStep irq pc).1, (wakeupStep irq pc).2.map .wakeup)

def undisturbed {Pc : Type} (step : ShmSignalIrq → Pc → ShmSignalIrq × Option Pc)
    (point : Pc → Bool) : Nat → ShmSignalIrq → Pc → ShmSignalIrq × Bool
  | 0, irq, _ => (irq, false)
  | fuel + 1, irq, pc =>
    match step irq pc with
    | (irq, none) => (irq, point pc)
    | (irq, some next) =>
      let rest := undisturbed step point fuel irq next
      (rest.1, point pc || rest.2)

/-- The accesses of `ShmSignalInject`, run without interference, are the function. -/
theorem inject_undisturbed (irq : ShmSignalIrq) :
    undisturbed injectStep (· = .inject) 5 irq .markDirty = shmSignalInject irq := by
  obtain ⟨enabled, pending, dirty⟩ := irq
  cases enabled <;> cases pending <;> rfl

def LocalPc.routine : LocalPc → ShmSignalIrq → ShmSignalIrq × Bool
  | .enable => shmSignalEnable
  | .disable => shmSignalDisable
  | .eoi => shmSignalEoi
  | .wakeup _ => shmSignalWakeup

theorem local_undisturbed (irq : ShmSignalIrq) (pc : LocalPc)
    (entry : pc = .enable ∨ pc = .disable ∨ pc = .eoi ∨ pc = .wakeup .testEnabled) :
    undisturbed localStep (· = .wakeup .notify) 6 irq pc = pc.routine irq := by
  obtain ⟨enabled, pending, dirty⟩ := irq
  rcases entry with rfl | rfl | rfl | rfl <;>
    cases enabled <;> cases pending <;> cases dirty <;> rfl

end Vbus
