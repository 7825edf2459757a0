import Mathlib.Tactic.Common

namespace Vbus

inductive ProxyError where
  | invalidHandle
  | invalidParameter
  | noMemory
deriving DecidableEq, Repr

/-- The numbers in `PDO_DEVICE_DATA`. The framework hands the context out zeroed. -/
structure PdoDeviceData where
  id : BitVec 64
  handle : BitVec 64
  bh : BitVec 64
deriving DecidableEq, Repr

/-- `struct vbus_pci_devicecall`, with a physical address in `datap`. -/
structure DeviceCall where
  devh : BitVec 64
  func : BitVec 32
  len : BitVec 32
  flags : BitVec 32
  datap : BitVec 64
deriving DecidableEq, Repr

/-- The member `signal` of `struct vbus_pci_deviceshm`. -/
structure ShmSignalParams where
  offset : BitVec 32
  prio : BitVec 32
  cookie : BitVec 64
deriving DecidableEq, Repr

/-- `struct vbus_pci_deviceshm`. Without a signal its offset is -1 and the rest of it unset. -/
structure DeviceShm where
  devh : BitVec 64
  id : BitVec 32
  len : BitVec 32
  flags : BitVec 32
  signal : Option ShmSignalParams
  datap : BitVec 64
deriving DecidableEq, Repr

inductive BusCall where
  | devOpen (devid version : BitVec 32)
  | devClose (handle : BitVec 64)
  | devCall (params : DeviceCall)
  | devShm (params : DeviceShm)
deriving DecidableEq, Repr

/-- The arguments of `VbusProxyDeviceCall`, and the physical address of its data. -/
structure CallRequest where
  func : BitVec 32
  datap : BitVec 64
  len : BitVec 64
  flags : BitVec 32

/-- The arguments of `VbusProxyDeviceShm`, and the physical address of `ptr`. -/
structure ShmRequest where
  prio : BitVec 32
  ptr : BitVec 64
  datap : BitVec 64
  len : BitVec 64
  sdesc : BitVec 64
  signal : Bool
  flags : BitVec 32

/-- `sizeof(struct shm_signal_desc)` -/
def shmSignalDescSize : BitVec 64 := 16#64

/-- `VbusInterfaceOpen` when the host answers DEVOPEN with a handle or a failure: the call, the
    context and the value returned. The caller's `bh` is not written. -/
def vbusInterfaceOpen (pd : PdoDeviceData) (version : BitVec 32) (answer : Option (BitVec 64)) :
    BusCall × PdoDeviceData × Int :=
  let call := BusCall.devOpen (pd.id.setWidth 32) version
  match answer with
  | none => (call, pd, -1)
  | some handle => (call, { pd with bh := handle }, 0)

def vbusInterfaceClose (bh : BitVec 64) : List BusCall := if bh ≠ 0#64 then [.devClose bh] else []

/-- `VbusProxyDeviceCall` up to its buscall. -/
def vbusProxyDeviceCall (pd : PdoDeviceData) (request : CallRequest) : Except ProxyError BusCall :=
  if pd.handle = 0#64 then .error .invalidHandle
  else .ok (.devCall
    { devh := pd.handle
      func := request.func
      len := request.len.setWidth 32
      flags := request.flags
      datap := request.datap })

def outsideShm (request : ShmRequest) : Bool :=
  request.sdesc == 0#64 || request.len < shmSignalDescSize || request.sdesc < request.ptr ||
    request.sdesc > request.ptr + request.len - shmSignalDescSize

/-- `VbusProxyDeviceShm` up to its buscall; `cookie` is the token for the new `struct _signal`, or
    `none` if the allocation fails. -/
def vbusProxyDeviceShm (pd : PdoDeviceData) (request : ShmRequest) (cookie : Option (BitVec 64)) :
    Except ProxyError BusCall :=
  let params (signal : Option ShmSignalParams) := BusCall.devShm
    { devh := pd.handle
      id := pd.id.setWidth 32
      len := request.len.setWidth 32
      flags := request.flags
      signal := signal
      datap := request.datap }
  if pd.handle = 0#64 then .error .invalidHandle
  else if request.signal then
    if outsideShm request then .error .invalidParameter
    else match cookie with
      | none => .error .noMemory
      | some cookie => .ok (params (some
          ⟨(request.sdesc - request.ptr).setWidth 32, request.prio, cookie⟩))
  else .ok (params none)

def BusCall.devh : BusCall → Option (BitVec 64)
  | .devOpen _ _ => none
  | .devClose handle => some handle
  | .devCall params => some params.devh
  | .devShm params => some params.devh

section Proxy

variable {pd : PdoDeviceData} {call : BusCall}

theorem deviceCall_carries {request : CallRequest}
    (issued : vbusProxyDeviceCall pd request = .ok call) :
    pd.handle ≠ 0#64 ∧ call.devh = some pd.handle := by
  unfold vbusProxyDeviceCall at issued
  split at issued
  · cases issued
  · rename_i valid
    cases issued
    exact ⟨valid, rfl⟩

theorem deviceShm_carries {request : ShmRequest} {cookie : Option (BitVec 64)}
    (issued : vbusProxyDeviceShm pd request cookie = .ok call) :
    pd.handle ≠ 0#64 ∧ call.devh = some pd.handle := by
  unfold vbusProxyDeviceShm at issued
  dsimp only at issued
  split at issued
  · cases issued
  · rename_i valid
    refine ⟨valid, ?_⟩
    split at issued
    · split at issued
      · cases issued
      · cases cookie with
        | none => cases issued
        | some cookie =>
          cases issued
          rfl
    · cases issued
      rfl

end Proxy

end Vbus
