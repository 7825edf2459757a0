import AlacrityDrivers.Library.Transition
import AlacrityDrivers.Vbus.Proxy

namespace Vbus.BusHandle

open Transition

structure OpenRecord where
  returned : BitVec 64
  obtained : BitVec 64

structure CloseRecord where
  value : BitVec 64
  sent : List BusCall

structure Issue where
  call : BusCall
  opened : Option (BitVec 64)

/-- The PDOs and the `bus_handle`s of their clients, with what the host returned last for each PDO,
    the handles it has open, the values obtained from opens and not closed yet, and logs. -/
structure Bus where
  pdos : Nat → PdoDeviceData
  busHandles : Nat → BitVec 64
  returned : Nat → Option (BitVec 64)
  hostOpen : List (BitVec 64)
  unclosed : List (BitVec 64)
  opens : List OpenRecord
  closes : List CloseRecord
  issued : List Issue

inductive Action where
  | interfaceOpen (pdo client : Nat) (version : BitVec 32) (answer : Option (BitVec 64))
  | interfaceClose (bh : BitVec 64)
  | venetHalt (client : Nat)
  | deviceCall (pdo : Nat) (request : CallRequest)
  | deviceShm (pdo : Nat) (request : ShmRequest) (cookie : Option (BitVec 64))

/-- `VenetGetInterface` calls `VbusInterfaceOpen` with the address of its `bus_handle`. -/
def openDevice (b : Bus) (pdo client : Nat) (version : BitVec 32) : Option (BitVec 64) → Bus
  | none => b
  | some handle =>
    { b with
      pdos := Function.update b.pdos pdo (vbusInterfaceOpen (b.pdos pdo) version (some handle)).2.1
      returned := Function.update b.returned pdo (some handle)
      hostOpen := handle :: b.hostOpen
      unclosed := b.busHandles client :: b.unclosed
      opens := b.opens ++ [⟨handle, b.busHandles client⟩] }

def hostClose (handles : List (BitVec 64)) : BusCall → List (BitVec 64)
  | .devClose handle => handles.erase handle
  | _ => handles

def closeDevice (b : Bus) (bh : BitVec 64) : Bus :=
  { b with
    hostOpen := (vbusInterfaceClose bh).foldl hostClose b.hostOpen
    unclosed := b.unclosed.erase bh
    closes := b.closes ++ [⟨bh, vbusInterfaceClose bh⟩] }

def issue (b : Bus) (pdo : Nat) : Except ProxyError BusCall → Bus
  | .error _ => b
  | .ok call => { b with issued := b.issued ++ [⟨call, b.returned pdo⟩] }

def step (b : Bus) : Action → Option Bus
  | .interfaceOpen pdo client version answer =>
    if answer = some 0#64 then none else some (openDevice b pdo client version answer)
  | .interfaceClose bh => some (closeDevice b bh)
  | .venetHalt client => some (closeDevice b (b.busHandles client))
  | .deviceCall pdo request => some (issue b pdo (vbusProxyDeviceCall (b.pdos pdo) request))
  | .deviceShm pdo request cookie => some (issue b pdo (vbusProxyDeviceShm (b.pdos pdo) request cookie))

/-- The PDOs that `VbusCreatePdo` has made for some ids, and clients with any `bus_handle`s. -/
def machine (ids busHandles : Nat → BitVec 64) : Machine Bus Action where
  start :=
    { pdos := fun pdo => ⟨ids pdo, 0#64, 0#64⟩
      busHandles := busHandles
      returned := fun _ => none
      hostOpen := []
      unclosed := []
      opens := []
      closes := []
      issued := [] }
  step := step

/-- The life of the handles that the host gives out, up to here. -/
structure HandlesKept (b : Bus) : Prop where
  obtained : ∀ record ∈ b.opens, record.obtained = record.returned
  carried : ∀ issue ∈ b.issued, ∀ handle, issue.opened = some handle → issue.call.devh = some handle
  closed : ∀ record ∈ b.closes, (∃ opened ∈ b.opens, opened.obtained = record.value) →
    record.sent = [.devClose record.value]
  drained : b.unclosed = [] → b.hostOpen = []

/-- The client's variable already holds the handle that the host is about to return. -/
def alreadyHolds (b : Bus) : Action → Bool
  | .interfaceOpen _ client _ (some handle) => b.busHandles client == handle
  | _ => true

structure Unset (b : Bus) : Prop where
  handles : ∀ pdo, (b.pdos pdo).handle = 0#64
  issued : b.issued = []

structure Known (b : Bus) : Prop where
  unset : Unset b
  opens : ∀ record ∈ b.opens, record.obtained = record.returned ∧ record.returned ≠ 0#64
  closes : ∀ record ∈ b.closes, record.sent = vbusInterfaceClose record.value
  host : b.unclosed = b.hostOpen
  nonzero : 0#64 ∉ b.hostOpen

section Step

variable {b : Bus} {pdo : Nat}

theorem close_host (bh : BitVec 64) (handles : List (BitVec 64)) (nonzero : 0#64 ∉ handles) :
    (vbusInterfaceClose bh).foldl hostClose handles = handles.erase bh := by
  unfold vbusInterfaceClose
  split
  · rfl
  · rename_i zero
    rw [not_not.mp zero, List.erase_of_not_mem nonzero]
    rfl

theorem known_start (ids busHandles : Nat → BitVec 64) : Known (machine ids busHandles).start :=
  ⟨⟨fun _ => rfl, rfl⟩, by simp [machine], by simp [machine], rfl, by simp [machine]⟩

theorem Known.handlesKept (known : Known b) : HandlesKept b := by
  refine ⟨fun record logged => (known.opens record logged).1, ?_, ?_, ?_⟩
  · intro issue logged
    rw [known.unset.issued] at logged
    cases logged
  · intro record logged opened
    rcases opened with ⟨first, opened, same⟩
    have returned := known.opens first opened
    have nonzero : record.value ≠ 0#64 := by
      rw [← same, returned.1]
      exact returned.2
    rw [known.closes record logged, vbusInterfaceClose, if_pos nonzero]
  · intro none
    rw [← known.host, none]

theorem Known.closed (known : Known b) (bh : BitVec 64) : Known (closeDevice b bh) := by
  refine ⟨⟨known.unset.handles, known.unset.issued⟩, known.opens, ?_, ?_, ?_⟩
  · intro record logged
    rcases List.mem_append.mp logged with earlier | last
    · exact known.closes record earlier
    · rw [List.mem_singleton.mp last]
  · change b.unclosed.erase bh = (vbusInterfaceClose bh).foldl hostClose b.hostOpen
    rw [close_host bh b.hostOpen known.nonzero, known.host]
  · change 0#64 ∉ (vbusInterfaceClose bh).foldl hostClose b.hostOpen
    rw [close_host bh b.hostOpen known.nonzero]
    intro present
    exact known.nonzero (List.mem_of_mem_erase present)

theorem call_refused (zero : (b.pdos pdo).handle = 0#64) (request : CallRequest) :
    issue b pdo (vbusProxyDeviceCall (b.pdos pdo) request) = b := by
  cases result : vbusProxyDeviceCall (b.pdos pdo) request with
  | error status => rfl
  | ok call => exact absurd zero (deviceCall_carries result).1

theorem shm_refused (zero : (b.pdos pdo).handle = 0#64) (request : ShmRequest)
    (cookie : Option (BitVec 64)) :
    issue b pdo (vbusProxyDeviceShm (b.pdos pdo) request cookie) = b := by
  cases result : vbusProxyDeviceShm (b.pdos pdo) request cookie with
  | error status => rfl
  | ok call => exact absurd zero (deviceShm_carries result).1

theorem unset_step {action : Action} {next : Bus} (unset : Unset b)
    (stepped : step b action = some next) : Unset next := by
  cases action with
  | interfaceOpen pdo client version answer =>
    simp only [step, Option.ite_none_left_eq_some, Option.some.injEq] at stepped
    rw [← stepped.2]
    cases answer with
    | none => exact unset
    | some handle =>
      refine ⟨?_, unset.issued⟩
      intro other
      simp only [openDevice, vbusInterfaceOpen, Function.update_apply]
      split
      · exact unset.handles pdo
      · exact unset.handles other
  | interfaceClose bh =>
    rw [← Option.some.inj stepped]
    exact ⟨unset.handles, unset.issued⟩
  | venetHalt client =>
    rw [← Option.some.inj stepped]
    exact ⟨unset.handles, unset.issued⟩
  | deviceCall pdo request =>
    rw [← Option.some.inj stepped, call_refused (unset.handles pdo)]
    exact unset
  | deviceShm pdo request cookie =>
    rw [← Option.some.inj stepped, shm_refused (unset.handles pdo)]
    exact unset

theorem Known.opened {client : Nat} {handle : BitVec 64} {next : Bus} {pdo : Nat} {version : BitVec 32}
    (known : Known b) (holds : b.busHandles client = handle) (nonzero : handle ≠ 0#64)
    (unset : Unset next) (after : openDevice b pdo client version (some handle) = next) :
    Known next := by
  rw [← after] at unset ⊢
  refine ⟨unset, ?_, known.closes, ?_, ?_⟩
  · intro record logged
    rcases List.mem_append.mp logged with earlier | last
    · exact known.opens record earlier
    · rw [List.mem_singleton.mp last]
      exact ⟨holds, nonzero⟩
  · change b.busHandles client :: b.unclosed = handle :: b.hostOpen
    rw [holds, known.host]
  · intro present
    rcases List.mem_cons.mp present with zero | earlier
    · exact nonzero zero.symm
    · exact known.nonzero earlier

theorem known_preserved (b : Bus) (action : Action) (next : Bus) (known : Known b)
    (guarded : alreadyHolds b action = true) (stepped : step b action = some next) : Known next := by
  have unset := unset_step known.unset stepped
  cases action with
  | interfaceOpen pdo client version answer =>
    simp only [step, Option.ite_none_left_eq_some, Option.some.injEq] at stepped
    cases answer with
    | none =>
      rw [← stepped.2]
      exact known
    | some handle =>
      have nonzero : handle ≠ 0#64 := by
        intro zero
        exact stepped.1 (by rw [zero])
      exact known.opened (beq_iff_eq.mp guarded) nonzero unset stepped.2
  | interfaceClose bh =>
    rw [← Option.some.inj stepped]
    exact known.closed bh
  | venetHalt client =>
    rw [← Option.some.inj stepped]
    exact known.closed (b.busHandles client)
  | deviceCall pdo request =>
    rw [← Option.some.inj stepped, call_refused (known.unset.handles pdo)]
    exact known
  | deviceShm pdo request cookie =>
    rw [← Option.some.inj stepped, shm_refused (known.unset.handles pdo)]
    exact known

theorem known_forced (b : Bus) (action : Action) (next : Bus) (_ : Known b)
    (stepped : step b action = some next) (kept : HandlesKept next) : alreadyHolds b action = true := by
  cases action with
  | interfaceOpen pdo client version answer =>
    cases answer with
    | none => rfl
    | some handle =>
      simp only [step, Option.ite_none_left_eq_some, Option.some.injEq] at stepped
      have logged : (⟨handle, b.busHandles client⟩ : OpenRecord) ∈ next.opens := by
        rw [← stepped.2]
        simp [openDevice]
      exact beq_iff_eq.mpr (kept.obtained _ logged)
  | _ => rfl

end Step

/-- `VbusInterfaceOpen` hands the host's handle neither to its caller nor to the proxies: the handles
    are kept in exactly the runs in which each client already holds the handle that its open is
    answered with, and no DEVCALL or DEVSHM is issued in any run. -/
theorem bus_handles_kept (ids busHandles : Nat → BitVec 64) (actions : List Action) :
    ((machine ids busHandles).Throughout HandlesKept (machine ids busHandles).start actions ↔
        (machine ids busHandles).Meets
          ((machine ids busHandles).OnSteps fun b action => alreadyHolds b action = true)
          (machine ids busHandles).start actions) ∧
      ∀ final, (machine ids busHandles).run (machine ids busHandles).start actions = some final →
        final.issued = [] := by
  constructor
  · apply Machine.throughout_iff_guarded Known _ known_preserved known_forced
      (known_start ids busHandles)
    intro b known
    exact known.handlesKept
  · intro final ran
    have reached := Machine.reachable_of_run ran
    have unset : Unset final := by
      apply reached.invariant ⟨fun _ => rfl, rfl⟩
      intro b action next unset stepped
      exact unset_step unset stepped
    exact unset.issued

def openAndHalt : List Action := [.interfaceOpen 0 0 1#32 (some 5#64), .venetHalt 0]

theorem open_loses_handle :
    let m := machine (fun _ => 0#64) fun _ => 0#64
    let final := (m.run m.start openAndHalt).get (by decide)
    ¬ HandlesKept final ∧ final.unclosed = [] ∧ final.hostOpen = [5#64] := by
  refine ⟨?_, by decide, by decide⟩
  intro kept
  have drained := kept.drained (by decide)
  revert drained
  decide

end Vbus.BusHandle
