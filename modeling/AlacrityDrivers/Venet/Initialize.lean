import AlacrityDrivers.Library.Allocation
import AlacrityDrivers.Venet.Adapter

namespace Venet.Initialize

open Allocation

inductive InitStatus where
  | success
  | failure
  | resources
  | noMemory
deriving DecidableEq, Repr

/-- `sizeof(ADAPTER)` and `sizeof(TCB)`, which depend on the build. -/
structure Sizes where
  adapter : Nat
  tcb : Nat

/-- Which function pointers of a `VBUS_IF` are set. -/
structure VbusIf where
  opens : Bool
  closes : Bool
  creates : Bool
  destroys : Bool
deriving DecidableEq, Repr

def VbusIf.zeroed : VbusIf := ⟨false, false, false, false⟩

def VbusIf.exported : VbusIf := ⟨true, true, true, true⟩

/-- An `ADAPTER` and its address. TCBs are represented by their addresses, and timers and queue
    handles by whether they are allocated. -/
structure Adapter where
  self : Nat
  state : BitVec 32
  vif : VbusIf
  resetTimer : Bool
  recvTimer : Bool
  numTcbs : Nat
  numTCBsFree : Nat
  tcbFree : List Nat
  tcbBusy : List Nat
  rxHandle : Bool
  txHandle : Bool
deriving DecidableEq, Repr

/-- The memory of the driver, by address and size, and its global list of adapters. -/
structure System where
  memory : Store Nat
  adapterList : List Nat
deriving DecidableEq, Repr

structure Setup where
  system : System
  adapter : Adapter
deriving DecidableEq, Repr

/-- What the steps of `VenetInitialize` meet. `query` and the two allocations before it are those of
    `VenetGetInterface` and `VenetSetupAdapter`; `opened` is the value that `open` returns. -/
structure Outcomes where
  adapter : Bool
  resetTimer : Bool
  recvTimer : Bool
  miniport : Bool
  query : Bool
  opened : Int
  rx : Bool
  tcb : Nat → Bool
  tx : Bool
  registration : Bool
  general : Bool

/-- Calling through a null function pointer stops the system: the error. -/
def call (s : Setup) (pointer : VbusIf → Bool) : Except System Unit :=
  if pointer s.adapter.vif then .ok () else .error s.system

def venetAttach (system : System) (a : Nat) : System :=
  { system with adapterList := system.adapterList ++ [a] }

def venetDetach (system : System) (a : Nat) : System :=
  { system with adapterList := system.adapterList.erase a }

def venetFree (system : System) (p size : Nat) : System :=
  { system with memory := system.memory.free (p, size) }

/-- A loop of `VenetFreeTx`. It passes the size of an adapter. -/
def freeTcbs (sizes : Sizes) (system : System) (tcbs : List Nat) : System :=
  tcbs.foldl (fun system tcb => venetFree system tcb sizes.adapter) system

def venetFreeTx (sizes : Sizes) (s : Setup) : Except System Setup := do
  let system := freeTcbs sizes (freeTcbs sizes s.system s.adapter.tcbFree) s.adapter.tcbBusy
  let s : Setup := ⟨system, { s.adapter with tcbFree := [], tcbBusy := [] }⟩
  call s VbusIf.destroys
  .ok { s with adapter := { s.adapter with txHandle := false } }

def venetFreeRx (s : Setup) : Except System Setup := do
  call s VbusIf.destroys
  .ok { s with adapter := { s.adapter with rxHandle := false } }

def venetSetupAdapter (numTcbs : Nat) (outcomes : Outcomes) (s : Setup) : InitStatus × Setup :=
  let a := { s.adapter with
    numTcbs := numTcbs
    state := venetSetFlag s.adapter.state vnetDisconnected
    tcbFree := []
    tcbBusy := [] }
  if outcomes.resetTimer = false then (.resources, { s with adapter := a })
  else if outcomes.recvTimer = false then
    (.resources, { s with adapter := { a with resetTimer := true } })
  else (.success, { s with adapter := { a with resetTimer := true, recvTimer := true } })

def venetGetInterface (outcomes : Outcomes) (s : Setup) :
    Except System (InitStatus × Setup) := do
  if outcomes.miniport = false then .ok (.failure, s)
  else if outcomes.query = false then .ok (.failure, s)
  else
    let s := { s with adapter := { s.adapter with vif := .exported } }
    call s VbusIf.opens
    if outcomes.opened ≠ 0 then .ok (.failure, s) else .ok (.success, s)

def venetSetupRx (outcomes : Outcomes) (s : Setup) : Except System (InitStatus × Setup) := do
  call s VbusIf.creates
  let s := { s with adapter := { s.adapter with rxHandle := outcomes.rx } }
  if outcomes.rx = false then
    let s ← venetFreeRx s
    .ok (.failure, s)
  else .ok (.success, s)

/-- The loop of `VenetSetupTx` from TCB `i` on, with `n` to go, and whether it is completed. -/
def setupTcbs (sizes : Sizes) (granted : Nat → Bool) : Nat → Nat → Setup → Bool × Setup
  | 0, _, s => (true, s)
  | n + 1, i, s =>
    match s.system.memory.tryAlloc (granted i) sizes.tcb with
    | (none, memory) => (false, { s with system := { s.system with memory := memory } })
    | (some tcb, memory) => setupTcbs sizes granted n (i + 1)
      ⟨{ s.system with memory := memory },
        { s.adapter with tcbFree := tcb.1 :: s.adapter.tcbFree }⟩

/-- The end of `VenetSetupTx`, with the TCBs on their list. -/
def createTx (sizes : Sizes) (outcomes : Outcomes) (s : Setup) :
    Except System (InitStatus × Setup) := do
  call s VbusIf.creates
  let s : Setup := { s with adapter := { s.adapter with
    numTCBsFree := s.adapter.numTcbs
    txHandle := outcomes.tx } }
  if outcomes.tx = false then
    let s ← venetFreeTx sizes s
    .ok (.failure, s)
  else .ok (.success, s)

def venetSetupTx (sizes : Sizes) (outcomes : Outcomes) (s : Setup) :
    Except System (InitStatus × Setup) :=
  let filled := setupTcbs sizes outcomes.tcb s.adapter.numTcbs 0 s
  if filled.1 = false then .ok (.noMemory, filled.2) else createTx sizes outcomes filled.2

/-- The two calls of `NdisMSetMiniportAttributes`. The steps between, `VenetGetMacAddress` and
    `VenetRegistryParams`, cannot fail. -/
def setAttributes (outcomes : Outcomes) (s : Setup) : InitStatus × Setup :=
  if outcomes.registration = false then (.failure, s)
  else if outcomes.general = false then (.failure, s)
  else (.success, { s with adapter := { s.adapter with
    state := venetClearFlag s.adapter.state vnetDisconnected } })

/-- `VenetInitialize` from `VenetSetupTx` to the end of its straight path. -/
def setUpTx (sizes : Sizes) (outcomes : Outcomes) (s : Setup) :
    Except System (InitStatus × Setup) := do
  let sent ← venetSetupTx sizes outcomes s
  if sent.1 ≠ .success then .ok sent else .ok (setAttributes outcomes sent.2)

/-- `VenetInitialize` from `VenetSetupAdapter` on. -/
def setUp (sizes : Sizes) (numTcbs : Nat) (outcomes : Outcomes) (s : Setup) :
    Except System (InitStatus × Setup) := do
  let timed := venetSetupAdapter numTcbs outcomes s
  if timed.1 ≠ .success then .ok timed
  else
    let connected ← venetGetInterface outcomes timed.2
    if connected.1 ≠ .success then .ok connected
    else
      let received ← venetSetupRx outcomes connected.2
      if received.1 ≠ .success then .ok received else setUpTx sizes outcomes received.2

/-- `VenetHalt` calls `close` only where it is set. -/
def closeInterface (s : Setup) : Except System Unit :=
  if s.adapter.vif.closes then call s VbusIf.closes else .ok ()

/-- `VenetHalt`, with no packets queued. A null adapter stops the system. -/
def venetHalt (sizes : Sizes) (system : System) : Option Adapter → Except System System
  | none => .error system
  | some a => do
    let a := { a with state := venetSetFlag a.state vnetAdapterHaltInProgress }
    let s : Setup := ⟨venetDetach system a.self, { a with resetTimer := false, recvTimer := false }⟩
    let s ← venetFreeRx s
    let s ← venetFreeTx sizes s
    closeInterface s
    .ok (venetFree s.system s.adapter.self sizes.adapter)

def freshAdapter (a : Nat) : Adapter :=
  ⟨a, 0, .zeroed, false, false, 0, 0, [], [], false, false⟩

def venetInitialize (sizes : Sizes) (numTcbs : Nat) (outcomes : Outcomes) (system : System) :
    Except System (InitStatus × System) :=
  match system.memory.tryAlloc outcomes.adapter sizes.adapter with
  | (none, _) => do
    let system ← venetHalt sizes system none
    .ok (.resources, system)
  | (some block, memory) => do
    let attached := venetAttach { system with memory := memory } block.1
    let finished ← setUp sizes numTcbs outcomes ⟨attached, freshAdapter block.1⟩
    if finished.1 = .success then .ok (.success, finished.2.system)
    else
      let system ← venetHalt sizes finished.2.system (some finished.2.adapter)
      .ok (finished.1, system)

def tcbBlocks (sizes : Sizes) (tcbs : List Nat) : List (Nat × Nat) :=
  tcbs.map fun tcb => (tcb, sizes.tcb)

structure Built (sizes : Sizes) (others : List (Nat × Nat)) (s : Setup) : Prop where
  memory : s.system.memory.Holds
    (tcbBlocks sizes s.adapter.tcbFree ++ (s.adapter.self, sizes.adapter) :: others)
  idle : s.adapter.tcbBusy = []

structure Clean (sizes : Sizes) (others : List (Nat × Nat)) (s : Setup) : Prop where
  built : Built sizes others s
  fits : sizes.tcb = sizes.adapter ∨ s.adapter.tcbFree = []

def Spoilt (sizes : Sizes) (others : List (Nat × Nat)) (s : Setup) : Prop :=
  s.system.memory.misused = true ∨
    Built sizes others s ∧ sizes.tcb ≠ sizes.adapter ∧ s.adapter.tcbFree ≠ []

structure Keeps (before after : Setup) : Prop where
  adapterList : after.system.adapterList = before.system.adapterList
  self : after.adapter.self = before.adapter.self

section FreeTx

variable {sizes : Sizes} {others rest : List (Nat × Nat)} {system : System} {s : Setup}

theorem freeTcbs_clean (tcbs : List Nat) (fits : sizes.tcb = sizes.adapter ∨ tcbs = [])
    (held : system.memory.Holds (tcbBlocks sizes tcbs ++ rest)) :
    (freeTcbs sizes system tcbs).memory.Holds rest := by
  induction tcbs generalizing system with
  | nil => exact held
  | cons tcb tcbs ih =>
    rcases fits with same | none
    · have freed : (venetFree system tcb sizes.adapter).memory.Holds
          (tcbBlocks sizes tcbs ++ rest) := by
        rw [← same]
        exact Store.Holds.free held
      exact ih (Or.inl same) freed
    · cases none

theorem freeTcbs_misused (tcbs : List Nat) (misused : system.memory.misused = true) :
    (freeTcbs sizes system tcbs).memory.misused = true := by
  induction tcbs generalizing system with
  | nil => exact misused
  | cons tcb tcbs ih => exact ih (Store.misused_free misused _)

theorem freeTcbs_wrong {tcbs : List Nat} (some : tcbs ≠ []) (wrong : sizes.tcb ≠ sizes.adapter)
    (held : system.memory.Holds (tcbBlocks sizes tcbs ++ rest)) :
    (freeTcbs sizes system tcbs).memory.misused = true := by
  cases tcbs with
  | nil => exact absurd rfl some
  | cons tcb tcbs => exact freeTcbs_misused tcbs (Store.Holds.free_wrong held wrong.symm)

theorem freeTcbs_adapterList (tcbs : List Nat) :
    (freeTcbs sizes system tcbs).adapterList = system.adapterList := by
  induction tcbs generalizing system with
  | nil => rfl
  | cons tcb tcbs ih => exact ih

end FreeTx

section Halt

variable {sizes : Sizes} {others : List (Nat × Nat)} {system : System} {a : Adapter}

theorem halt_unset (unset : a.vif = .zeroed) :
    venetHalt sizes system (some a) = .error (venetDetach system a.self) := by
  simp [venetHalt, venetFreeRx, call, unset, VbusIf.zeroed, bind, Except.bind]

theorem halt_eq (idle : a.tcbBusy = []) (exported : a.vif = .exported) :
    venetHalt sizes system (some a) =
      .ok (venetFree (freeTcbs sizes (venetDetach system a.self) a.tcbFree) a.self
        sizes.adapter) := by
  simp [venetHalt, venetFreeRx, venetFreeTx, closeInterface, call, idle, exported,
    VbusIf.exported, freeTcbs, bind, Except.bind]

theorem halt_clean {listed : List Nat} (clean : Clean sizes others ⟨system, a⟩)
    (attached : system.adapterList = listed ++ [a.self]) (fresh : a.self ∉ listed)
    (exported : a.vif = .exported) :
    ∃ after, venetHalt sizes system (some a) = .ok after ∧ after.memory.Holds others ∧
      after.adapterList = listed := by
  refine ⟨_, halt_eq clean.built.idle exported, ?_, ?_⟩
  · exact Store.Holds.free (freeTcbs_clean _ clean.fits clean.built.memory)
  · rw [venetFree, freeTcbs_adapterList, venetDetach, attached,
      List.erase_append_right _ fresh, List.erase_cons_head, List.append_nil]

theorem halt_spoilt (spoilt : Spoilt sizes others ⟨system, a⟩) (idle : a.tcbBusy = [])
    (exported : a.vif = .exported) :
    ∃ after, venetHalt sizes system (some a) = .ok after ∧ after.memory.misused = true := by
  refine ⟨_, halt_eq idle exported, ?_⟩
  have freed : (freeTcbs sizes (venetDetach system a.self) a.tcbFree).memory.misused = true := by
    rcases spoilt with misused | ⟨built, wrong, some⟩
    · exact freeTcbs_misused _ misused
    · exact freeTcbs_wrong some wrong built.memory
  exact Store.misused_free freed _

end Halt

end Venet.Initialize
