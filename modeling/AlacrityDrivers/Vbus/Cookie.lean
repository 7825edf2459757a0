import Mathlib.Algebra.Group.Nat.Defs
import AlacrityDrivers.Vbus.Proxy

namespace Vbus

/-- The two builds of the driver, NTx86 and NTamd64. -/
inductive Build where
  | x86
  | amd64
deriving DecidableEq, Repr

def Build.bits : Build → Nat
  | .x86 => 32
  | .amd64 => 64

abbrev Pointer (build : Build) := BitVec build.bits

variable {build : Build}

/-- `(unsigned long)` of a pointer. Both builds have 32 bits in it. -/
def unsignedLong (p : Pointer build) : BitVec 32 := p.setWidth 32

/-- `(UINT64)(unsigned long)` of a pointer. -/
def toCookie (p : Pointer build) : BitVec 64 := (unsignedLong p).setWidth 64

/-- `(struct vbus_pci_event *)(unsigned long)` or `(struct _signal *)(unsigned long)` of a cookie. -/
def fromCookie (build : Build) (cookie : BitVec 64) : Pointer build :=
  (cookie.setWidth 32).setWidth build.bits

/-- `(UINT64)` of a pointer, which extends the sign of a shorter one. -/
def toUint64 (p : Pointer build) : BitVec 64 := p.signExtend 64

/-- What `VbusProxyDeviceShm` stores in `params.signal.offset`. -/
def shmOffset (sdesc ptr : Pointer build) : BitVec 32 := (toCookie sdesc - toCookie ptr).setWidth 32

structure ShmCall (build : Build) where
  prio : BitVec 32
  ptr : Pointer build
  datap : BitVec 64
  len : Pointer build
  sdesc : Pointer build
  flags : BitVec 32

def ShmCall.request (call : ShmCall build) : ShmRequest where
  prio := call.prio
  ptr := toUint64 call.ptr
  datap := call.datap
  len := call.len.setWidth 64
  sdesc := toUint64 call.sdesc
  signal := true
  flags := call.flags

/-- `VbusProxyDeviceShm` with the pointers of one build, where `VbusAlloc` returns `_signal`. -/
def proxyShm (pd : PdoDeviceData) (call : ShmCall build) (signal : Option (Pointer build)) :
    Except ProxyError BusCall :=
  vbusProxyDeviceShm pd call.request (signal.map toCookie)

structure ShmCall.Inside (call : ShmCall build) : Prop where
  start : call.ptr.toNat ≤ call.sdesc.toNat
  within : call.sdesc.toNat < call.ptr.toNat + call.len.toNat

section Cookie

variable {event signal : Pointer build} {call : ShmCall build} {pd : PdoDeviceData}

theorem toCookie_toNat (p : Pointer build) : (toCookie p).toNat = p.toNat % 2 ^ 32 := by
  rw [toCookie, unsignedLong, BitVec.toNat_setWidth_of_le (by decide), BitVec.toNat_setWidth]

theorem fromCookie_toCookie_toNat (p : Pointer build) :
    (fromCookie build (toCookie p)).toNat = p.toNat % 2 ^ 32 := by
  have wide : 32 ≤ build.bits := by cases build <;> decide
  rw [fromCookie, BitVec.toNat_setWidth_of_le wide, BitVec.toNat_setWidth, toCookie_toNat, Nat.mod_mod]

theorem cookie_recovers_iff (p : Pointer build) :
    fromCookie build (toCookie p) = p ↔ p.toNat < 2 ^ 32 := by
  rw [← BitVec.toNat_inj, fromCookie_toCookie_toNat]
  constructor
  · intro same
    rw [← same]
    exact Nat.mod_lt _ (by decide)
  · exact Nat.mod_eq_of_lt

theorem shmOffset_toNat (sdesc ptr : Pointer build) (start : ptr.toNat ≤ sdesc.toNat) :
    (shmOffset sdesc ptr).toNat = (sdesc.toNat - ptr.toNat) % 2 ^ 32 := by
  rw [shmOffset, BitVec.toNat_setWidth, BitVec.toNat_sub, toCookie_toNat, toCookie_toNat]
  omega

theorem toUint64_low (p : Pointer build) : (toUint64 p).setWidth 32 = unsignedLong p := by
  have wide : 32 ≤ build.bits := by cases build <;> decide
  rw [toUint64, unsignedLong]
  ext i below
  rw [BitVec.getElem_setWidth, BitVec.getElem_setWidth, BitVec.getLsbD_signExtend,
    if_pos (Nat.lt_of_lt_of_le below wide)]
  simp
  omega

theorem setWidth_sub_low (x y : BitVec 64) :
    (x - y).setWidth 32 = x.setWidth 32 - y.setWidth 32 := by
  apply BitVec.eq_of_toNat_eq
  simp only [BitVec.toNat_setWidth, BitVec.toNat_sub]
  omega

theorem shmOffset_eq (sdesc ptr : Pointer build) :
    shmOffset sdesc ptr = (toUint64 sdesc - toUint64 ptr).setWidth 32 := by
  rw [shmOffset, setWidth_sub_low, setWidth_sub_low, toUint64_low, toUint64_low, toCookie, toCookie,
    BitVec.setWidth_setWidth_of_le _ (by decide), BitVec.setWidth_setWidth_of_le _ (by decide),
    BitVec.setWidth_eq, BitVec.setWidth_eq]

theorem proxyShm_sends {params : DeviceShm} {sent : ShmSignalParams}
    (issued : proxyShm pd call (some signal) = .ok (.devShm params))
    (signalled : params.signal = some sent) :
    sent.offset = shmOffset call.sdesc call.ptr ∧ sent.cookie = toCookie signal := by
  unfold proxyShm vbusProxyDeviceShm at issued
  dsimp only at issued
  split at issued
  · cases issued
  · have signals : call.request.signal = true := rfl
    rw [if_pos signals] at issued
    split at issued
    · cases issued
    · simp only [Option.map_some, Except.ok.injEq, BusCall.devShm.injEq] at issued
      rw [← issued, Option.some.injEq] at signalled
      rw [← signalled, shmOffset_eq]
      exact ⟨rfl, rfl⟩

/-- Pointers come back from the host, and the offset is right, exactly where the upper half of the
    pointers and of the distance is zero: `unsigned long` has 32 bits in the 64-bit build too. -/
theorem cookies_round_trip_iff (build : Build) (event signal : Pointer build) (call : ShmCall build)
    (pd : PdoDeviceData) (params : DeviceShm) (sent : ShmSignalParams)
    (issued : proxyShm pd call (some signal) = .ok (.devShm params))
    (signalled : params.signal = some sent) (inside : call.Inside) :
    (fromCookie build (toCookie event) = event ∧ fromCookie build sent.cookie = signal ∧
        sent.offset.toNat = call.sdesc.toNat - call.ptr.toNat) ↔
      event.toNat < 2 ^ 32 ∧ signal.toNat < 2 ^ 32 ∧
        call.sdesc.toNat - call.ptr.toNat < 2 ^ 32 := by
  rcases proxyShm_sends issued signalled with ⟨offset, cookie⟩
  have distance : sent.offset.toNat = call.sdesc.toNat - call.ptr.toNat ↔
      call.sdesc.toNat - call.ptr.toNat < 2 ^ 32 := by
    rw [offset, shmOffset_toNat _ _ inside.start]
    omega
  rw [cookie, cookie_recovers_iff, cookie_recovers_iff, distance]

def secondPage (build : Build) (base : Pointer build) : ShmCall build where
  prio := 0#32
  ptr := base
  datap := 0x2000#64
  len := BitVec.ofNat build.bits 32
  sdesc := base + BitVec.ofNat build.bits 16
  flags := 0#32

def opened : PdoDeviceData where
  id := 3#64
  handle := 7#64
  bh := 7#64

def secondPageParams (token : BitVec 64) : DeviceShm where
  devh := 7#64
  id := 3#32
  len := 32#32
  flags := 0#32
  signal := some ⟨16#32, 0#32, token⟩
  datap := 0x2000#64

theorem cookies_round_trip_iff_low :
    (fromCookie .amd64 (@toCookie .amd64 0x5000#64) = 0x5000#64 ∧
        fromCookie .amd64 0x6000#64 = 0x6000#64 ∧ (16#32).toNat = 0x2010 - 0x2000) ↔
      0x5000 < 2 ^ 32 ∧ 0x6000 < 2 ^ 32 ∧ 0x2010 - 0x2000 < 2 ^ 32 :=
  cookies_round_trip_iff .amd64 0x5000#64 0x6000#64 (secondPage .amd64 0x2000#64) opened
    (secondPageParams 0x6000#64) ⟨16#32, 0#32, 0x6000#64⟩ rfl rfl ⟨by decide, by decide⟩

/-- Nonpaged pool of the 64-bit build lies in the upper half of the address space. -/
theorem pool_cookies_truncated :
    proxyShm opened (secondPage .amd64 0xFFFFFA8000002000#64) (some 0xFFFFFA8000006000#64) =
        .ok (.devShm (secondPageParams 0x6000#64)) ∧
      fromCookie .amd64 (@toCookie .amd64 0xFFFFFA8000005000#64) ≠ 0xFFFFFA8000005000#64 ∧
      fromCookie .amd64 0x6000#64 ≠ 0xFFFFFA8000006000#64 := by
  constructor
  · rfl
  · constructor
    · intro same
      have below := (cookie_recovers_iff _).mp same
      revert below
      decide
    · intro same
      have values := congrArg BitVec.toNat same
      revert values
      decide

theorem cookies_round_trip_x86 (p : Pointer .x86) : fromCookie .x86 (toCookie p) = p :=
  (cookie_recovers_iff p).mpr p.isLt

end Cookie

end Vbus
