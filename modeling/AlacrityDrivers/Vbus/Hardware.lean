import AlacrityDrivers.Library.Allocation
import AlacrityDrivers.Vbus.EventqPriming

namespace Vbus.Hardware

open Allocation

inductive HardwareStatus where
  | success
  | alreadyAttached
  | lockFailed
  | configurationError
  | protocolError
  | noMemory
  | noMoreEntries
deriving DecidableEq, Repr

structure Window where
  start : BitVec 64
  length : BitVec 32
deriving DecidableEq, Repr

/-- A `CM_PARTIAL_RESOURCE_DESCRIPTOR` by its type. `mapped` tells what `MmMapIoSpace` makes of
    the memory: a mapping or NULL. -/
inductive Descriptor where
  | port (window : Window)
  | memory (window : Window) (mapped : Bool)
  | interrupt
  | other
deriving DecidableEq, Repr

/-- A translated resource list: what `WdfCmResourceListGetDescriptor` returns for each index. -/
abbrev ResourceList := List (Option Descriptor)

abbrev Mapping := Nat × Window

inductive PoolUse where
  | ringHead
  | signal
  | eventRing
deriving DecidableEq, Repr

abbrev Block := Nat × PoolUse

/-- The members of `struct vbus_pci` that own something, the two windows and `enabled`. -/
structure VbusPci where
  headDesc : Option Block
  signal : Option Block
  ring : Option Block
  regs : Option Mapping
  regsLength : BitVec 32
  signals : BitVec 32
  signalsLength : BitVec 32
  enabled : Bool
deriving DecidableEq, Repr

def VbusPci.zeroed : VbusPci := ⟨none, none, none, none, 0, 0, 0, false⟩

def VbusPci.blocks (pci : VbusPci) : List Block :=
  pci.headDesc.toList ++ (pci.signal.toList ++ pci.ring.toList)

inductive BridgeCall where
  | negotiate (magic version : BitVec 32) (capabilities : BitVec 64)
  | fastcallAdd
  | qreg (count : Nat) (ring data : Option Block)
deriving DecidableEq, Repr

/-- `calls` are the bridgecalls of the current prepare, each with `vbus_pci.regs` when issued. -/
structure Bridge where
  pci : VbusPci
  mappings : Store Window
  pool : Store PoolUse
  calls : List (BridgeCall × Option Mapping)
deriving DecidableEq, Repr

def Bridge.initial : Bridge := ⟨.zeroed, .empty, .empty, []⟩

def vbusPciParseResource (bridge : Bridge) : Option Descriptor → HardwareStatus × Bridge
  | none => (.configurationError, bridge)
  | some (.port window) =>
    (.success, { bridge with
      pci := { bridge.pci with
        signals := window.start.setWidth 32
        signalsLength := window.length } })
  | some (.memory window mapped) =>
    (.success, { bridge with
      mappings := (bridge.mappings.tryAlloc mapped window).2
      pci := { bridge.pci with
        regs := (bridge.mappings.tryAlloc mapped window).1
        regsLength := window.length } })
  | some .interrupt => (.success, bridge)
  | some .other => (.success, bridge)

/-- The loop of `vbus_pci_map_resources`, with the status so far. -/
def mapLoop : HardwareStatus → Bridge → ResourceList → HardwareStatus × Bridge
  | rc, bridge, [] => (rc, bridge)
  | _, bridge, descriptor :: rest =>
    let parsed := vbusPciParseResource bridge descriptor
    if parsed.1 = .success then mapLoop parsed.1 parsed.2 rest else parsed

def vbusPciMapResources (bridge : Bridge) (list : ResourceList) : HardwareStatus × Bridge :=
  mapLoop .configurationError bridge list

def mmUnmapIoSpace (mappings : Store Window) (regs : Option Mapping) (length : BitVec 32) :
    Store Window :=
  mappings.freeOption (regs.map fun mapping => (mapping.1, ⟨mapping.2.start, length⟩))

def vbusPciCleanup (bridge : Bridge) : Bridge :=
  { bridge with
    mappings := mmUnmapIoSpace bridge.mappings bridge.pci.regs bridge.pci.regsLength
    pool := ((bridge.pool.freeOption bridge.pci.headDesc).freeOption bridge.pci.signal).freeOption
      bridge.pci.ring
    pci := .zeroed }

def Bridge.issue (bridge : Bridge) (nr : BridgeCall) : Bridge :=
  { bridge with calls := bridge.calls ++ [(nr, bridge.pci.regs)] }

/-- Writing through a null `vbus_pci.regs` stops the system: the error. -/
def vbusPciBridgecall (bridge : Bridge) (nr : BridgeCall) (answer : BitVec 32) :
    Except Bridge (Int × Bridge) :=
  match bridge.pci.regs with
  | none => .error (bridge.issue nr)
  | some _ => .ok (answer.toInt, bridge.issue nr)

/-- What each step of `VbusPciPrepareHardware` meets after the resources: the answers of the host,
    the allocations, and whether every `ioq_iter_push` of `eventq_init` succeeds. -/
structure Outcomes where
  lock : Bool
  fastlock : Bool
  negotiate : BitVec 32
  fastcall : BitVec 32
  head : Bool
  signal : Bool
  ring : Bool
  pushed : Bool
  register : BitVec 32
deriving DecidableEq, Repr

def vbusPciOpen (bridge : Bridge) (answer : BitVec 32) : Except Bridge (Int × Bridge) :=
  vbusPciBridgecall bridge (.negotiate 0xbf53eef5#32 1#32 0#64) answer

def vbusPciSetupFastcall (bridge : Bridge) (answer : BitVec 32) : Except Bridge (Int × Bridge) :=
  vbusPciBridgecall bridge .fastcallAdd answer

def qlen : Nat := 1024

def vbusPciEventqRegister (bridge : Bridge) (answer : BitVec 32) : Except Bridge (Int × Bridge) :=
  vbusPciBridgecall bridge (.qreg qlen bridge.pci.headDesc bridge.pci.ring) answer

def eventqIoqInit (bridge : Bridge) (head signal : Bool) : HardwareStatus × Bridge :=
  match bridge.pool.tryAlloc head .ringHead with
  | (none, pool) => (.noMemory, { bridge with pool := pool })
  | (some headDesc, pool) =>
    match pool.tryAlloc signal .signal with
    | (none, pool) => (.noMemory, { bridge with pool := pool.free headDesc })
    | (some shmSignal, pool) =>
      (.success, { bridge with
        pool := pool
        pci := { bridge.pci with headDesc := some headDesc, signal := some shmSignal } })

def eventqInit (bridge : Bridge) (ring pushed : Bool) : HardwareStatus × Bridge :=
  let allocated := bridge.pool.tryAlloc ring .eventRing
  let after := { bridge with
    pool := allocated.2
    pci := { bridge.pci with ring := allocated.1 } }
  if allocated.1 = none then (.noMemory, after)
  else if pushed then (.success, after)
  else (.noMoreEntries, after)

/-- `VbusPciPrepareHardware` from the allocation of the queue to its registration. -/
def setupQueue (bridge : Bridge) (outcomes : Outcomes) :
    Except Bridge (HardwareStatus × Bridge) := do
  let queue := eventqIoqInit bridge outcomes.head outcomes.signal
  if queue.1 ≠ .success then .ok queue
  else
    let primed := eventqInit queue.2 outcomes.ring outcomes.pushed
    if primed.1 ≠ .success then .ok primed
    else
      let registered ← vbusPciEventqRegister primed.2 outcomes.register
      if registered.1 < 0 then .ok (.protocolError, registered.2)
      else .ok (.success, registered.2)

/-- `VbusPciPrepareHardware` from the negotiation on. -/
def bringUp (bridge : Bridge) (outcomes : Outcomes) : Except Bridge (HardwareStatus × Bridge) := do
  let opened ← vbusPciOpen bridge outcomes.negotiate
  if opened.1 < 0 then .ok (.protocolError, opened.2)
  else
    let fastcall ← vbusPciSetupFastcall opened.2 outcomes.fastcall
    if fastcall.1 ≠ 0 then .ok (.configurationError, fastcall.2)
    else setupQueue fastcall.2 outcomes

/-- What follows the bring-up: `enabled` is set, or everything is cleaned up. -/
def conclude (outcome : HardwareStatus × Bridge) : HardwareStatus × Bridge :=
  if outcome.1 = .success then
    (.success, { outcome.2 with pci := { outcome.2.pci with enabled := true } })
  else (outcome.1, vbusPciCleanup outcome.2)

def vbusPciPrepareHardware (bridge : Bridge) (list : ResourceList) (outcomes : Outcomes) :
    Except Bridge (HardwareStatus × Bridge) :=
  let bridge := { bridge with calls := [] }
  if bridge.pci.enabled then .ok (.alreadyAttached, bridge)
  else if outcomes.lock = false then .ok (.lockFailed, bridge)
  else if outcomes.fastlock = false then .ok (.lockFailed, bridge)
  else
    let mapped := vbusPciMapResources bridge list
    if mapped.1 ≠ .success then .ok (mapped.1, vbusPciCleanup mapped.2)
    else (bringUp mapped.2 outcomes).map conclude

def vbusPciReleaseHardware (bridge : Bridge) : Bridge := vbusPciCleanup bridge

structure SameWindows (before after : Bridge) : Prop where
  regs : after.pci.regs = before.pci.regs
  regsLength : after.pci.regsLength = before.pci.regsLength
  signals : after.pci.signals = before.pci.signals
  signalsLength : after.pci.signalsLength = before.pci.signalsLength
  enabled : after.pci.enabled = before.pci.enabled
  mappings : after.mappings = before.mappings

structure Advances (mapping : Mapping) (before after : Bridge) : Prop where
  windows : SameWindows before after
  pool : after.pool.Holds after.pci.blocks
  calls : ∀ call ∈ after.calls, call ∈ before.calls ∨ call.2 = some mapping

structure Outcomes.QueueSucceeds (outcomes : Outcomes) : Prop where
  head : outcomes.head = true
  signal : outcomes.signal = true
  ring : outcomes.ring = true
  pushed : outcomes.pushed = true
  register : 0 ≤ outcomes.register.toInt

structure Outcomes.Succeed (outcomes : Outcomes) : Prop where
  negotiate : 0 ≤ outcomes.negotiate.toInt
  fastcall : outcomes.fastcall.toInt = 0
  queue : outcomes.QueueSucceeds

def HardwareStatus.PastLocks (status : HardwareStatus) : Prop :=
  status ≠ .success ∧ status ≠ .alreadyAttached ∧ status ≠ .lockFailed

section BringUp

variable {bridge before middle after : Bridge} {mapping : Mapping} {outcomes : Outcomes}

theorem blocks_eq_nil {pci : VbusPci} :
    pci.blocks = [] ↔ pci.headDesc = none ∧ pci.signal = none ∧ pci.ring = none := by
  simp [VbusPci.blocks]

theorem blocks_ring {pci : VbusPci} (noRing : pci.ring = none) (ring : Option Block) :
    VbusPci.blocks { pci with ring := ring } = pci.blocks ++ ring.toList := by
  simp [VbusPci.blocks, noRing]

theorem SameWindows.trans (first : SameWindows before middle) (second : SameWindows middle after) :
    SameWindows before after where
  regs := second.regs.trans first.regs
  regsLength := second.regsLength.trans first.regsLength
  signals := second.signals.trans first.signals
  signalsLength := second.signalsLength.trans first.signalsLength
  enabled := second.enabled.trans first.enabled
  mappings := second.mappings.trans first.mappings

theorem Advances.trans (first : Advances mapping before middle)
    (second : Advances mapping middle after) : Advances mapping before after := by
  refine ⟨first.windows.trans second.windows, second.pool, ?_⟩
  intro call among
  rcases second.calls call among with earlier | through
  · exact first.calls call earlier
  · exact Or.inr through

theorem bridgecall_mapped (mapped : bridge.pci.regs = some mapping) (nr : BridgeCall)
    (answer : BitVec 32) :
    vbusPciBridgecall bridge nr answer = .ok (answer.toInt, bridge.issue nr) := by
  rw [vbusPciBridgecall, mapped]

theorem bridgecall_unmapped (unmapped : bridge.pci.regs = none) (nr : BridgeCall)
    (answer : BitVec 32) : vbusPciBridgecall bridge nr answer = .error (bridge.issue nr) := by
  rw [vbusPciBridgecall, unmapped]

theorem issue_advances (mapped : bridge.pci.regs = some mapping)
    (pool : bridge.pool.Holds bridge.pci.blocks) (nr : BridgeCall) :
    Advances mapping bridge (bridge.issue nr) := by
  refine ⟨⟨rfl, rfl, rfl, rfl, rfl, rfl⟩, pool, ?_⟩
  intro call among
  rcases List.mem_append.mp among with earlier | now
  · exact Or.inl earlier
  · rw [List.mem_singleton] at now
    rw [now]
    exact Or.inr mapped

theorem eventqIoqInit_advances (pool : bridge.pool.Holds bridge.pci.blocks)
    (clear : bridge.pci.blocks = []) (mapping : Mapping) (head signal : Bool) :
    Advances mapping bridge (eventqIoqInit bridge head signal).2 ∧
      (eventqIoqInit bridge head signal).2.pci.ring = none := by
  rcases blocks_eq_nil.mp clear with ⟨noHead, noSignal, noRing⟩
  rw [clear] at pool
  have headHeld := pool.tryAlloc head .ringHead
  unfold eventqIoqInit
  generalize bridge.pool.tryAlloc head .ringHead = taken at headHeld ⊢
  rcases taken with ⟨_ | headDesc, afterHead⟩
  · refine ⟨⟨⟨rfl, rfl, rfl, rfl, rfl, rfl⟩, ?_, fun _ among => Or.inl among⟩, noRing⟩
    rw [clear]
    exact headHeld
  · have signalHeld := headHeld.tryAlloc signal .signal
    dsimp only at signalHeld ⊢
    generalize afterHead.tryAlloc signal .signal = taken at signalHeld ⊢
    rcases taken with ⟨_ | shmSignal, afterSignal⟩
    · refine ⟨⟨⟨rfl, rfl, rfl, rfl, rfl, rfl⟩, ?_, fun _ among => Or.inl among⟩, noRing⟩
      rw [clear]
      exact Store.Holds.free signalHeld
    · refine ⟨⟨⟨rfl, rfl, rfl, rfl, rfl, rfl⟩, ?_, fun _ among => Or.inl among⟩, noRing⟩
      rw [VbusPci.blocks, noRing]
      exact signalHeld.perm (List.Perm.swap _ _ _)

theorem eventqIoqInit_success (bridge : Bridge) (head signal : Bool) :
    (eventqIoqInit bridge head signal).1 = .success ↔ head = true ∧ signal = true := by
  cases head <;> cases signal <;> simp [eventqIoqInit, Store.tryAlloc]

theorem eventqIoqInit_failed (bridge : Bridge) (head signal : Bool) :
    (eventqIoqInit bridge head signal).1 = .success ∨
      (eventqIoqInit bridge head signal).1.PastLocks := by
  cases head <;> cases signal <;>
    simp [eventqIoqInit, Store.tryAlloc, HardwareStatus.PastLocks]

theorem eventqInit_advances (pool : bridge.pool.Holds bridge.pci.blocks)
    (noRing : bridge.pci.ring = none) (mapping : Mapping) (ring pushed : Bool) :
    Advances mapping bridge (eventqInit bridge ring pushed).2 := by
  have held := pool.tryAlloc ring .eventRing
  have recorded : ((bridge.pool.tryAlloc ring .eventRing).1.toList ++ bridge.pci.blocks).Perm
      (VbusPci.blocks { bridge.pci with ring := (bridge.pool.tryAlloc ring .eventRing).1 }) := by
    rw [blocks_ring noRing (bridge.pool.tryAlloc ring .eventRing).1]
    exact List.perm_append_comm
  have advances : Advances mapping bridge { bridge with
      pool := (bridge.pool.tryAlloc ring .eventRing).2
      pci := { bridge.pci with ring := (bridge.pool.tryAlloc ring .eventRing).1 } } :=
    ⟨⟨rfl, rfl, rfl, rfl, rfl, rfl⟩, held.perm recorded, fun _ among => Or.inl among⟩
  unfold eventqInit
  dsimp only
  split
  · exact advances
  · split
    · exact advances
    · exact advances

theorem eventqInit_success (bridge : Bridge) (ring pushed : Bool) :
    (eventqInit bridge ring pushed).1 = .success ↔ ring = true ∧ pushed = true := by
  cases ring <;> cases pushed <;> simp [eventqInit, Store.tryAlloc]

theorem eventqInit_failed (bridge : Bridge) (ring pushed : Bool) :
    (eventqInit bridge ring pushed).1 = .success ∨
      (eventqInit bridge ring pushed).1.PastLocks := by
  cases ring <;> cases pushed <;> simp [eventqInit, Store.tryAlloc, HardwareStatus.PastLocks]

def HardwareStatus.ofNtStatus : NtStatus → HardwareStatus
  | .success => .success
  | .noMemory => .noMemory
  | .noMoreEntries => .noMoreEntries

/-- The status of the queue here is that of the set-up that writes the ring, whose pushes never
    fail. -/
theorem queue_status_agrees (bridge : Bridge) (head signal ring : Bool) (ringsize : RingSize) :
    ∃ setup, setupEventq head signal ring ringsize = some setup ∧
      HardwareStatus.ofNtStatus setup.status =
        if (eventqIoqInit bridge head signal).1 ≠ .success then
          (eventqIoqInit bridge head signal).1
        else (eventqInit (eventqIoqInit bridge head signal).2 ring true).1 := by
  cases head with
  | false => exact ⟨_, rfl, rfl⟩
  | true =>
    cases signal with
    | false => exact ⟨_, rfl, rfl⟩
    | true =>
      cases ring with
      | false => exact ⟨_, rfl, rfl⟩
      | true =>
        obtain ⟨after, ran, _⟩ := eventqInitQueue_zeroed ringsize
        exact ⟨_, ran, rfl⟩

theorem bringUp_unmapped (unmapped : bridge.pci.regs = none) (outcomes : Outcomes) :
    bringUp bridge outcomes =
      .error (bridge.issue (.negotiate 0xbf53eef5#32 1#32 0#64)) := by
  rw [bringUp, vbusPciOpen, bridgecall_unmapped unmapped]
  rfl

theorem setupQueue_mapped (mapped : bridge.pci.regs = some mapping)
    (pool : bridge.pool.Holds bridge.pci.blocks) (clear : bridge.pci.blocks = [])
    (outcomes : Outcomes) :
    ∃ outcome, setupQueue bridge outcomes = .ok outcome ∧ Advances mapping bridge outcome.2 ∧
      (outcome.1 = .success ↔ outcomes.QueueSucceeds) ∧
      (outcome.1 = .success ∨ outcome.1.PastLocks) := by
  have queue := eventqIoqInit_advances pool clear mapping outcomes.head outcomes.signal
  have queued := eventqIoqInit_success bridge outcomes.head outcomes.signal
  have failed := eventqIoqInit_failed bridge outcomes.head outcomes.signal
  rw [setupQueue]
  generalize eventqIoqInit bridge outcomes.head outcomes.signal = first at queue queued failed ⊢
  by_cases allocated : first.1 ≠ .success
  · rw [if_pos allocated]
    refine ⟨first, rfl, queue.1, ⟨fun success => absurd success allocated, ?_⟩, failed⟩
    intro succeeds
    exact absurd (queued.mpr ⟨succeeds.head, succeeds.signal⟩) allocated
  have primed := eventqInit_advances queue.1.pool queue.2 mapping outcomes.ring outcomes.pushed
  have pushed := eventqInit_success first.2 outcomes.ring outcomes.pushed
  have failedPush := eventqInit_failed first.2 outcomes.ring outcomes.pushed
  rw [if_neg allocated]
  generalize eventqInit first.2 outcomes.ring outcomes.pushed = second at primed pushed failedPush ⊢
  by_cases filled : second.1 ≠ .success
  · rw [if_pos filled]
    refine ⟨second, rfl, queue.1.trans primed, ⟨fun success => absurd success filled, ?_⟩,
      failedPush⟩
    intro succeeds
    exact absurd (pushed.mpr ⟨succeeds.ring, succeeds.pushed⟩) filled
  have regs := (queue.1.trans primed).windows.regs.trans mapped
  have registered := issue_advances regs primed.pool (.qreg qlen second.2.pci.headDesc second.2.pci.ring)
  rw [if_neg filled, vbusPciEventqRegister, bridgecall_mapped regs]
  dsimp only [bind, Except.bind]
  have advances := (queue.1.trans primed).trans registered
  by_cases refused : outcomes.register.toInt < 0
  · rw [if_pos refused]
    refine ⟨_, rfl, advances, ⟨nofun, ?_⟩, Or.inr ⟨nofun, nofun, nofun⟩⟩
    intro succeeds
    exact absurd succeeds.register (Int.not_le.mpr refused)
  · rw [if_neg refused]
    refine ⟨_, rfl, advances, ⟨fun _ => ?_, fun _ => rfl⟩, Or.inl rfl⟩
    rw [not_not] at allocated filled
    exact ⟨(queued.mp allocated).1, (queued.mp allocated).2, (pushed.mp filled).1,
      (pushed.mp filled).2, Int.not_lt.mp refused⟩

theorem bringUp_mapped (mapped : bridge.pci.regs = some mapping)
    (pool : bridge.pool.Holds bridge.pci.blocks) (clear : bridge.pci.blocks = [])
    (outcomes : Outcomes) :
    ∃ outcome, bringUp bridge outcomes = .ok outcome ∧ Advances mapping bridge outcome.2 ∧
      (outcome.1 = .success ↔ outcomes.Succeed) ∧
      (outcome.1 = .success ∨ outcome.1.PastLocks) := by
  have opened := issue_advances mapped pool (.negotiate 0xbf53eef5#32 1#32 0#64)
  have regs := opened.windows.regs.trans mapped
  have fastcall := issue_advances regs opened.pool .fastcallAdd
  rw [bringUp, vbusPciOpen, bridgecall_mapped mapped]
  dsimp only [bind, Except.bind]
  by_cases negotiated : outcomes.negotiate.toInt < 0
  · rw [if_pos negotiated]
    refine ⟨_, rfl, opened, ⟨nofun, ?_⟩, Or.inr ⟨nofun, nofun, nofun⟩⟩
    intro succeed
    exact absurd succeed.negotiate (Int.not_le.mpr negotiated)
  rw [if_neg negotiated, vbusPciSetupFastcall, bridgecall_mapped regs]
  dsimp only
  by_cases refused : outcomes.fastcall.toInt ≠ 0
  · rw [if_pos refused]
    refine ⟨_, rfl, opened.trans fastcall, ⟨nofun, ?_⟩, Or.inr ⟨nofun, nofun, nofun⟩⟩
    intro succeed
    exact absurd succeed.fastcall refused
  rw [if_neg refused]
  obtain ⟨outcome, ran, advances, success, status⟩ :=
    setupQueue_mapped (fastcall.windows.regs.trans regs) fastcall.pool clear outcomes
  refine ⟨outcome, ran, (opened.trans fastcall).trans advances, success.trans ⟨?_, ?_⟩, status⟩
  · intro succeeds
    exact ⟨Int.not_lt.mp negotiated, not_not.mp refused, succeeds⟩
  · intro succeed
    exact succeed.queue

theorem conclude_success {outcome : HardwareStatus × Bridge} (success : outcome.1 = .success) :
    conclude outcome =
      (.success, { outcome.2 with pci := { outcome.2.pci with enabled := true } }) := if_pos success

theorem conclude_failure {outcome : HardwareStatus × Bridge} (failed : outcome.1 ≠ .success) :
    conclude outcome = (outcome.1, vbusPciCleanup outcome.2) := if_neg failed

end BringUp

end Vbus.Hardware
