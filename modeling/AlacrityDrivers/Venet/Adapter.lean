import Mathlib.Algebra.Group.Nat.Defs
import Mathlib.Data.List.Basic
import Mathlib.Logic.Function.Basic
import Mathlib.Tactic.Common

namespace Venet

inductive NdisStatus where
  | success
  | failure
  | resources
  | requestAborted
  | resetInProgress
  | paused
  | deviceFailed
  | closing
  | bytes (count : Nat)
deriving DecidableEq, Repr

section Flags

def vnetAdapterReset : BitVec 32 := 0x00000001#32

def vnetDisconnected : BitVec 32 := 0x00000002#32

def vnetAdapterHaltInProgress : BitVec 32 := 0x00000004#32

def vnetAdapterSurpriseRemoved : BitVec 32 := 0x00000008#32

def vnetAdapterShutdown : BitVec 32 := 0x00000020#32

def vnetAdapterNoLink : BitVec 32 := 0x00000040#32

def vnetAdapterSuspending : BitVec 32 := 0x00000080#32

def vnetAdapterPaused : BitVec 32 := 0x00000200#32

def vnetIsNotReadyMask : BitVec 32 :=
  vnetDisconnected ||| vnetAdapterReset ||| vnetAdapterHaltInProgress ||| vnetAdapterNoLink |||
    vnetAdapterSuspending ||| vnetAdapterShutdown ||| vnetAdapterPaused

def venetSetFlag (state flag : BitVec 32) : BitVec 32 := state ||| flag

def venetClearFlag (state flag : BitVec 32) : BitVec 32 := state &&& ~~~flag

def venetTestFlag (state flag : BitVec 32) : Bool := state &&& flag != 0#32

def venetIsNotReady (state : BitVec 32) : Bool := venetTestFlag state vnetIsNotReadyMask

def srGetAdapterStatus (state : BitVec 32) : NdisStatus :=
  if venetTestFlag state vnetAdapterReset then .resetInProgress
  else if venetTestFlag state vnetAdapterPaused then .paused
  else if venetTestFlag state vnetAdapterNoLink then .deviceFailed
  else if venetTestFlag state vnetAdapterHaltInProgress then .closing
  else if venetTestFlag state vnetAdapterSurpriseRemoved then .closing
  else if venetTestFlag state vnetAdapterShutdown then .closing
  else .failure

variable {state flag other : BitVec 32}

theorem testFlag_iff : venetTestFlag state flag = true ↔ state &&& flag ≠ 0#32 := by
  simp [venetTestFlag]

theorem testFlag_mono (within : other &&& flag = flag) (set : venetTestFlag state flag = true) :
    venetTestFlag state other = true := by
  rw [testFlag_iff] at set ⊢
  intro clear
  apply set
  rw [← within, ← BitVec.and_assoc, clear]
  exact BitVec.zero_and

theorem notReady_of_paused (set : venetTestFlag state vnetAdapterPaused = true) :
    venetIsNotReady state = true := testFlag_mono (by decide) set

theorem notReady_of_halting (set : venetTestFlag state vnetAdapterHaltInProgress = true) :
    venetIsNotReady state = true := testFlag_mono (by decide) set

theorem testFlag_set (set : venetTestFlag state flag = true) (other : BitVec 32) :
    venetTestFlag (venetSetFlag state other) flag = true := by
  rw [testFlag_iff] at set ⊢
  rw [venetSetFlag, BitVec.and_or_distrib_right, Ne, BitVec.or_eq_zero_iff, not_and_or]
  exact Or.inl set

theorem testFlag_setSelf (state : BitVec 32) (flag : BitVec 32) (nonzero : flag ≠ 0#32) :
    venetTestFlag (venetSetFlag state flag) flag = true := by
  rw [testFlag_iff, venetSetFlag, BitVec.and_or_distrib_right, Ne, BitVec.or_eq_zero_iff, not_and_or,
    BitVec.and_self]
  exact Or.inr nonzero

theorem testFlag_clear (apart : ~~~other &&& flag = flag) :
    venetTestFlag (venetClearFlag state other) flag = venetTestFlag state flag := by
  rw [venetTestFlag, venetTestFlag, venetClearFlag, BitVec.and_assoc, apart]

end Flags

/-- `--` on a `ULONG` -/
@[irreducible] def decrementULong (n : Nat) : Nat := (n + (2 ^ 32 - 1)) % 2 ^ 32

theorem decrementULong_zero : decrementULong 0 ≠ 0 := by
  unfold decrementULong
  decide

/-- `TCB`, a transfer control block. -/
structure Tcb where
  nbl : Option Nat
  status : NdisStatus
  nbCount : Nat
deriving DecidableEq, Repr

/-- The transmit side of an adapter. The two `LIST_ENTRY` lists hold the numbers of the TCBs;
    `sendEvent` is a notification event. -/
structure Tx where
  tcbs : Nat → Tcb
  tcbFree : List Nat
  tcbBusy : List Nat
  numTCBsFree : Nat
  sendEvent : Bool

/-- The loop of `VenetSetupTx` over the TCBs from number `i` on, every allocation succeeding. -/
def setupTxLoop : Nat → Nat → List Nat → List Nat
  | 0, _, free => free
  | n + 1, i, free => setupTxLoop n (i + 1) (i :: free)

/-- `VenetSetupTx` after `VenetSetupAdapter`, which sets the event. -/
def venetSetupTx (numTcbs : Nat) : Tx where
  tcbs := fun _ => ⟨none, .success, 0⟩
  tcbFree := setupTxLoop numTcbs 0 []
  tcbBusy := []
  numTCBsFree := numTcbs
  sendEvent := true

/-- `VenetAllocTCB` up to its event; `none` where it returns `NULL`. -/
def allocTcbList (tx : Tx) (nbl : Nat) : Option (Nat × Tx) :=
  match tx.tcbFree with
  | [] => none
  | tcb :: rest => some (tcb,
      { tx with
        tcbs := Function.update tx.tcbs tcb ⟨some nbl, .success, 0⟩
        tcbFree := rest
        tcbBusy := tcb :: tx.tcbBusy })

/-- `NdisResetEvent` and the counter of `VenetAllocTCB`. -/
def allocTcbEvent (tx : Tx) : Tx := { tx with sendEvent := false, numTCBsFree := tx.numTCBsFree - 1 }

/-- `VenetReleaseTCB` up to its event. -/
def releaseTcbList (tx : Tx) (tcb : Nat) : Tx :=
  { tx with
    tcbBusy := tx.tcbBusy.erase tcb
    tcbFree := tcb :: tx.tcbFree
    numTCBsFree := tx.numTCBsFree + 1 }

def releaseTcbEvent (tx : Tx) : Tx := if tx.tcbBusy = [] then { tx with sendEvent := true } else tx

/-- The two halves of `VenetAllocTCB` without interference. -/
def venetAllocTCB (tx : Tx) (nbl : Nat) : Option (Nat × Tx) :=
  (allocTcbList tx nbl).map fun result => (result.1, allocTcbEvent result.2)

/-- The two halves of `VenetReleaseTCB` without interference. -/
def venetReleaseTCB (tx : Tx) (tcb : Nat) : Tx := releaseTcbEvent (releaseTcbList tx tcb)

/-- A `NET_BUFFER_LIST` as its owner hands it over: the cancel id, 0 for `NULL`, and the number of
    its `NET_BUFFER`s. -/
structure Nbl where
  cancelId : Nat
  netBuffers : Nat
  fits : netBuffers < 2 ^ 32

/-- `SrCountNBL`, with a `ULONG` for the count. -/
def srCountNBL : Nat → Nat
  | 0 => 0
  | n + 1 => (srCountNBL n + 1) % 2 ^ 32

theorem srCountNBL_eq (n : Nat) (fits : n < 2 ^ 32) : srCountNBL n = n := by
  induction n with
  | zero => rfl
  | succ n ih =>
    rw [srCountNBL, ih (by omega)]
    exact Nat.mod_eq_of_lt fits

/-- The status that `SrProcessNBL` takes from `SrCopyFrame`: its return value, which counts bytes. -/
def copyStatus (count : Nat) : NdisStatus := if count = 0 then .success else .bytes count

end Venet
