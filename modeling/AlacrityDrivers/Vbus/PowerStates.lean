import AlacrityDrivers.Vbus.HardwareLedger
import Mathlib.Logic.Function.Basic

namespace Vbus.Hardware

structure Equipped (pci : VbusPci) : Prop where
  headDesc : pci.headDesc.isSome = true
  signal : pci.signal.isSome = true
  ring : pci.ring.isSome = true

def blocksOf : BridgeCall → List Block
  | .qreg _ ring data => ring.toList ++ data.toList
  | .negotiate .. | .fastcallAdd => []

def registration (bridge : Bridge) : List Block :=
  bridge.calls.flatMap fun call => blocksOf call.1

section Prepare

variable {bridge : Bridge} {outcomes : Outcomes} {outcome : HardwareStatus × Bridge}

theorem eventqIoqInit_equips {head signal : Bool}
    (success : (eventqIoqInit bridge head signal).1 = .success) :
    (eventqIoqInit bridge head signal).2.pci.headDesc.isSome = true ∧
      (eventqIoqInit bridge head signal).2.pci.signal.isSome = true ∧
      (eventqIoqInit bridge head signal).2.calls = bridge.calls := by
  obtain ⟨rfl, rfl⟩ := (eventqIoqInit_success bridge head signal).mp success
  exact ⟨rfl, rfl, rfl⟩

theorem eventqInit_equips {ring pushed : Bool}
    (success : (eventqInit bridge ring pushed).1 = .success) :
    (eventqInit bridge ring pushed).2.pci.ring.isSome = true ∧
      (eventqInit bridge ring pushed).2.pci.headDesc = bridge.pci.headDesc ∧
      (eventqInit bridge ring pushed).2.pci.signal = bridge.pci.signal ∧
      (eventqInit bridge ring pushed).2.calls = bridge.calls := by
  obtain ⟨rfl, rfl⟩ := (eventqInit_success bridge ring pushed).mp success
  exact ⟨rfl, rfl, rfl, rfl⟩

theorem bridgecall_ok {nr : BridgeCall} {answer : BitVec 32} {result : Int × Bridge}
    (ran : vbusPciBridgecall bridge nr answer = .ok result) : result.2 = bridge.issue nr := by
  unfold vbusPciBridgecall at ran
  split at ran
  · cases ran
  · rw [← Except.ok.inj ran]

theorem setupQueue_equips (ran : setupQueue bridge outcomes = .ok outcome)
    (success : outcome.1 = .success) :
    Equipped outcome.2.pci ∧
      registration outcome.2 =
        registration bridge ++ (outcome.2.pci.headDesc.toList ++ outcome.2.pci.ring.toList) := by
  rw [setupQueue] at ran
  by_cases allocated : (eventqIoqInit bridge outcomes.head outcomes.signal).1 ≠ .success
  · rw [if_pos allocated] at ran
    rw [← Except.ok.inj ran] at success
    exact absurd success allocated
  rw [if_neg allocated] at ran
  obtain ⟨head, signal, queueCalls⟩ := eventqIoqInit_equips (not_not.mp allocated)
  generalize (eventqIoqInit bridge outcomes.head outcomes.signal).2 = queue
    at ran head signal queueCalls
  by_cases filled : (eventqInit queue outcomes.ring outcomes.pushed).1 ≠ .success
  · rw [if_pos filled] at ran
    rw [← Except.ok.inj ran] at success
    exact absurd success filled
  rw [if_neg filled] at ran
  obtain ⟨ring, sameHead, sameSignal, calls⟩ := eventqInit_equips (not_not.mp filled)
  generalize (eventqInit queue outcomes.ring outcomes.pushed).2 = primed
    at ran ring sameHead sameSignal calls
  cases registered : vbusPciEventqRegister primed outcomes.register with
  | error after =>
    rw [registered] at ran
    cases ran
  | ok result =>
    rw [registered] at ran
    have issued := bridgecall_ok registered
    dsimp only [bind, Except.bind] at ran
    split at ran
    · rw [← Except.ok.inj ran] at success
      cases success
    · rw [← Except.ok.inj ran]
      dsimp only
      rw [issued]
      refine ⟨⟨?_, ?_, ring⟩, ?_⟩
      · exact (congrArg Option.isSome sameHead).trans head
      · exact (congrArg Option.isSome sameSignal).trans signal
      · simp [registration, Bridge.issue, calls, queueCalls, blocksOf]

theorem bringUp_equips (ran : bringUp bridge outcomes = .ok outcome)
    (success : outcome.1 = .success) :
    Equipped outcome.2.pci ∧
      registration outcome.2 =
        registration bridge ++ (outcome.2.pci.headDesc.toList ++ outcome.2.pci.ring.toList) := by
  rw [bringUp] at ran
  cases opened : vbusPciOpen bridge outcomes.negotiate with
  | error after =>
    rw [opened] at ran
    cases ran
  | ok negotiated =>
    rw [opened] at ran
    dsimp only [bind, Except.bind] at ran
    split at ran
    · rw [← Except.ok.inj ran] at success
      cases success
    cases setup : vbusPciSetupFastcall negotiated.2 outcomes.fastcall with
    | error after =>
      rw [setup] at ran
      cases ran
    | ok fastcall =>
      rw [setup] at ran
      dsimp only at ran
      split at ran
      · rw [← Except.ok.inj ran] at success
        cases success
      obtain ⟨equipped, registered⟩ := setupQueue_equips ran success
      refine ⟨equipped, ?_⟩
      rw [registered, bridgecall_ok setup, bridgecall_ok opened]
      simp [registration, Bridge.issue, blocksOf]

/-- How `VbusPciPrepareHardware` leaves the globals, by what it returns to the framework. -/
inductive Prepared (before after : State) : Prop where
  | refused (enabled : before.bridge.pci.enabled = true) (pci : after.bridge.pci = before.bridge.pci)
      (pool : after.bridge.pool = before.bridge.pool)
      (returned : after.returned ≠ .prepared .success)
  | failed (disabled : before.bridge.pci.enabled = false)
      (still : after.bridge.pci.enabled = false) (returned : after.returned ≠ .prepared .success)
  | succeeded (disabled : before.bridge.pci.enabled = false)
      (returned : after.returned = .prepared .success) (enabled : after.bridge.pci.enabled = true)
      (equipped : Equipped after.bridge.pci)
      (registered : registration after.bridge =
        after.bridge.pci.headDesc.toList ++ after.bridge.pci.ring.toList)

theorem bringUp_disabled {lost : List Mapping} (tracked : Tracked lost bridge)
    (clear : bridge.pci.blocks = []) (disabled : bridge.pci.enabled = false)
    (outcomes : Outcomes) :
    match bringUp bridge outcomes with
    | .error after => after.pci.enabled = false
    | .ok outcome => outcome.2.pci.enabled = false := by
  cases regs : bridge.pci.regs with
  | none =>
    rw [bringUp_unmapped regs]
    exact disabled
  | some mapping =>
    obtain ⟨outcome, ran, advances, _⟩ := bringUp_mapped regs tracked.pool clear outcomes
    rw [ran]
    exact advances.windows.enabled.trans disabled

theorem bringUp_prepared {lost : List Mapping} {before : State} (tracked : Tracked lost bridge)
    (clear : bridge.pci.blocks = []) (fresh : bridge.calls = [])
    (disabled : before.bridge.pci.enabled = false) (same : bridge.pci.enabled = false) :
    Prepared before (.ofPrepare ((bringUp bridge outcomes).map conclude)) := by
  have still := bringUp_disabled tracked clear same outcomes
  cases ran : bringUp bridge outcomes with
  | error after =>
    rw [ran] at still
    exact .failed disabled still nofun
  | ok outcome =>
    rw [ran] at still
    by_cases success : outcome.1 = .success
    · obtain ⟨equipped, registered⟩ := bringUp_equips ran success
      have none : registration bridge = [] := by rw [registration, fresh, List.flatMap_nil]
      rw [none, List.nil_append] at registered
      rw [Except.map, conclude_success success]
      exact .succeeded disabled rfl rfl ⟨equipped.headDesc, equipped.signal, equipped.ring⟩ registered
    · rw [Except.map, conclude_failure success]
      refine .failed disabled rfl ?_
      intro returned
      exact success (Returned.prepared.inj returned)

theorem prepare_prepared {lost : List Mapping} {s : State} (known : Known lost s)
    (list : ResourceList) (outcomes : Outcomes) :
    Prepared s (.ofPrepare (vbusPciPrepareHardware s.bridge list outcomes)) := by
  have entered : Tracked lost { s.bridge with calls := [] } :=
    ⟨known.tracked.mappings, known.tracked.length, known.tracked.pool⟩
  unfold vbusPciPrepareHardware
  dsimp only
  split
  · rename_i enabled
    exact .refused enabled rfl rfl nofun
  rename_i disabled
  rw [Bool.not_eq_true] at disabled
  split
  · exact .failed disabled disabled nofun
  split
  · exact .failed disabled disabled nofun
  obtain ⟨more, after, _⟩ := mapLoop_tracked list entered .configurationError
  have same := mapLoop_sameQueue .configurationError { s.bridge with calls := [] } list
  split
  · rename_i unmapped
    refine .failed disabled rfl ?_
    intro returned
    exact unmapped (Returned.prepared.inj returned)
  · exact bringUp_prepared after (same.blocks.trans (known.idle disabled).blocks) same.calls disabled
      (same.enabled.trans disabled)

end Prepare

end Vbus.Hardware

namespace Vbus.PowerStates

open Allocation Hardware Transition

inductive Phase where
  | added
  | refused
  | prepared
  | powered
  | connected
  | exited
deriving DecidableEq, Repr

def Phase.holding : Phase → Bool
  | .added | .refused => false
  | .prepared | .powered | .connected | .exited => true

inductive Callback where
  | d0Entry
  | intrEnable
  | isr
  | dpc
  | intrDisable
  | d0Exit
deriving DecidableEq, Repr

/-- The order in which the framework calls: the interrupt is connected in D0 only, and no DPC is
    left queued when the device leaves D0. -/
def Callback.next (queued : Bool) : Callback → Phase → Option Phase
  | .d0Entry, .prepared => some .powered
  | .d0Entry, .exited => some .powered
  | .intrEnable, .powered => some .connected
  | .isr, .connected => some .connected
  | .dpc, phase => if queued then some phase else none
  | .intrDisable, .connected => some .powered
  | .d0Exit, .powered => if queued then none else some .exited
  | _, _ => none

def releasable : Phase → Bool
  | .refused | .prepared | .exited => true
  | .added | .powered | .connected => false

def vbusPciD0Entry (irq : ShmSignalIrq) : ShmSignalIrq × Bool := shmSignalEnable irq

def vbusPciD0Exit (irq : ShmSignalIrq) : ShmSignalIrq × Bool := shmSignalDisable irq

def eventqIntrEnable (irq : ShmSignalIrq) : ShmSignalIrq × Bool := shmSignalEnable irq

def eventqIntrDisable (irq : ShmSignalIrq) : ShmSignalIrq × Bool := shmSignalDisable irq

def eventqIntrIsr (irq : ShmSignalIrq) : ShmSignalIrq × Bool :=
  if !irq.enabled then (irq, false) else shmSignalDisable irq

def eventqIntrDpc (irq : ShmSignalIrq) : ShmSignalIrq × Bool :=
  let woken := shmSignalWakeup irq
  let enabled := shmSignalEnable woken.1
  (enabled.1, woken.2 || enabled.2)

def Callback.effect : Callback → ShmSignalIrq → ShmSignalIrq × Bool
  | .d0Entry => vbusPciD0Entry
  | .intrEnable => eventqIntrEnable
  | .isr => eventqIntrIsr
  | .dpc => eventqIntrDpc
  | .intrDisable => eventqIntrDisable
  | .d0Exit => vbusPciD0Exit

def Callback.queues (irq : ShmSignalIrq) (queued : Bool) : Callback → Bool
  | .isr => queued || irq.enabled
  | .dpc => false
  | _ => queued

/-- The bus devices of the driver over the one `vbus_pci`. `given` is the signal that a device's
    prepare allocated, `irq` the own irq in the descriptor of the current one, and `registered` what
    the host has accepted last as its event queue. `faulted` tells that a callback went through a
    null pointer. -/
structure State where
  hardware : Hardware.State
  phase : Nat → Phase
  given : Nat → Option Block
  irq : ShmSignalIrq
  queued : Nat → Bool
  registered : List Block
  faulted : Bool

inductive Action where
  | prepare (dev : Nat) (list : ResourceList) (outcomes : Outcomes)
  | call (dev : Nat) (callback : Callback)
  | release (dev : Nat)
  | hostInject

/-- The irq is read through `vbus_pci.eventq.signal`; `eventq_wakeup` follows `head_desc` and the
    cookies, which point into `vbus_pci.ring`. -/
def reaches (pci : VbusPci) (wakes : Bool) : Bool :=
  pci.signal.isSome && (!wakes || (pci.headDesc.isSome && pci.ring.isSome))

/-- The framework notes what `VbusPrepareHardware` returned. The new descriptor is zeroed, and
    `eventq_init` enables its notification. -/
def State.prepared (s : State) (dev : Nat) (hardware : Hardware.State) : State :=
  if hardware.returned = .prepared .success then
    { s with
      hardware := hardware
      phase := Function.update s.phase dev .prepared
      given := Function.update s.given dev hardware.bridge.pci.signal
      irq := (shmSignalEnable (ShmSignalDesc.zeroed.irq .north)).1
      registered := registration hardware.bridge }
  else
    { s with
      hardware := hardware
      phase := Function.update s.phase dev .refused }

def State.released (s : State) (dev : Nat) (hardware : Hardware.State) : State :=
  { s with
    hardware := hardware
    phase := Function.update s.phase dev .added }

def State.called (s : State) (dev : Nat) (callback : Callback) (phase : Phase) : State :=
  if reaches s.hardware.bridge.pci (callback.effect s.irq).2 then
    { s with
      phase := Function.update s.phase dev phase
      irq := (callback.effect s.irq).1
      queued := Function.update s.queued dev (callback.queues s.irq (s.queued dev)) }
  else { s with faulted := true }

def step (s : State) (action : Action) : Option State :=
  if s.faulted then none
  else match action with
    | .prepare dev list outcomes =>
      if s.phase dev = .added then
        (Hardware.machine.step s.hardware (.prepare list outcomes)).map (s.prepared dev)
      else none
    | .call dev callback =>
      if s.hardware.returned = .crashed then none
      else (callback.next (s.queued dev) (s.phase dev)).map (s.called dev callback)
    | .release dev =>
      if releasable (s.phase dev) then
        (Hardware.machine.step s.hardware .release).map (s.released dev)
      else none
    | .hostInject =>
      if s.hardware.bridge.pci.enabled then some { s with irq := (shmSignalInject s.irq).1 }
      else none

def machine : Machine State Action where
  start :=
    { hardware := Hardware.machine.start
      phase := fun _ => .added
      given := fun _ => none
      irq := ShmSignalDesc.zeroed.irq .north
      queued := fun _ => false
      registered := []
      faulted := false }
  step := step

/-- No callback went through a null pointer, and each device that holds the hardware finds the
    signal of its own prepare, still allocated. -/
structure Backed (s : State) : Prop where
  sound : s.faulted = false
  own : ∀ dev, (s.phase dev).holding = true →
    ∃ block, s.given dev = some block ∧ s.hardware.bridge.pci.signal = some block ∧
      block ∈ s.hardware.bridge.pool.live

/-- No device's hardware is released while another device holds its own. -/
def Alone (s : State) : Action → Prop
  | .release dev => ∀ other, other ≠ dev → (s.phase other).holding = false
  | _ => True

/-- While the hardware is enabled the host's event queue is the ring head and the event buffers on
    record. -/
def Named (s : State) : Prop :=
  s.hardware.bridge.pci.enabled = true → ∃ head ring, s.hardware.bridge.pci.headDesc = some head ∧
    s.hardware.bridge.pci.ring = some ring ∧ s.registered = [head, ring]

/-- The memory that the host writes events to is allocated. -/
def Served (s : State) : Prop :=
  ∀ block ∈ s.registered, block ∈ s.hardware.bridge.pool.live

/-- No device is released while the hardware is enabled. -/
def KeepsQueue (s : State) : Action → Prop
  | .release _ => s.hardware.bridge.pci.enabled = false
  | _ => True

/-- A device that has left D0 is not interrupted, and one whose interrupt is connected is, except
    while its DPC is queued. -/
structure Follows (s : State) : Prop where
  asleep : ∀ dev, s.phase dev = .exited → s.irq.enabled = false
  awake : ∀ dev, s.phase dev = .connected → s.queued dev = false → s.irq.enabled = true

structure Grounded (s : State) : Prop where
  known : ∃ lost, Known lost s.hardware
  equipped : s.hardware.bridge.pci.enabled = true → Equipped s.hardware.bridge.pci
  registered : s.hardware.bridge.pci.enabled = true →
    s.registered =
      s.hardware.bridge.pci.headDesc.toList ++ s.hardware.bridge.pci.ring.toList

section Step

variable {s next : State} {pci : VbusPci} {dev other : Nat} {callback : Callback} {phase : Phase}

theorem Grounded.live (grounded : Grounded s) {block : Block}
    (recorded : block ∈ s.hardware.bridge.pci.blocks) : block ∈ s.hardware.bridge.pool.live := by
  obtain ⟨lost, known⟩ := grounded.known
  exact known.tracked.pool.live.mem_iff.mpr recorded

theorem Grounded.enabled (grounded : Grounded s) {block : Block}
    (recorded : block ∈ s.hardware.bridge.pci.blocks) : s.hardware.bridge.pci.enabled = true := by
  obtain ⟨lost, known⟩ := grounded.known
  by_contra disabled
  have idle := known.idle (Bool.not_eq_true _ ▸ disabled)
  rw [idle.blocks] at recorded
  exact absurd recorded List.not_mem_nil

theorem signal_mem {block : Block} (signal : pci.signal = some block) :
    block ∈ pci.blocks := by
  simp [VbusPci.blocks, signal]

theorem called_hardware (s : State) (dev : Nat) (callback : Callback) (phase : Phase) :
    (s.called dev callback phase).hardware = s.hardware ∧
    (s.called dev callback phase).registered = s.registered ∧
    (s.called dev callback phase).given = s.given := by
  unfold State.called
  split
  · exact ⟨rfl, rfl, rfl⟩
  · exact ⟨rfl, rfl, rfl⟩

theorem release_step {hardware : Hardware.State} (h : Hardware.State)
    (stepped : Hardware.machine.step h .release = some hardware) :
    hardware = ⟨vbusPciCleanup h.bridge, .released⟩ := by
  simp only [Hardware.machine, Hardware.step] at stepped
  split at stepped
  · cases stepped
  · exact (Option.some.inj stepped).symm

inductive Outcome (s next : State) : Action → Prop where
  | prepare (dev : Nat) (list : ResourceList) (outcomes : Outcomes) (hardware : Hardware.State)
      (idle : s.phase dev = .added) (known : ∀ lost, Known lost s.hardware →
        ∃ more, Known (more ++ lost) hardware)
      (prepared : (∃ lost, Known lost s.hardware) → Prepared s.hardware hardware)
      (after : next = s.prepared dev hardware) : Outcome s next (.prepare dev list outcomes)
  | call (dev : Nat) (callback : Callback) (phase : Phase)
      (order : callback.next (s.queued dev) (s.phase dev) = some phase)
      (after : next = s.called dev callback phase) : Outcome s next (.call dev callback)
  | release (dev : Nat) (standing : releasable (s.phase dev) = true)
      (after : next = s.released dev ⟨vbusPciCleanup s.hardware.bridge, .released⟩) :
      Outcome s next (.release dev)
  | inject (enabled : s.hardware.bridge.pci.enabled = true)
      (after : next = { s with irq := (shmSignalInject s.irq).1 }) : Outcome s next .hostInject

theorem step_outcome {action : Action} (stepped : step s action = some next) :
    s.faulted = false ∧ Outcome s next action := by
  unfold step at stepped
  split at stepped
  · cases stepped
  rename_i sound
  refine ⟨Bool.not_eq_true _ ▸ sound, ?_⟩
  cases action with
  | prepare dev list outcomes =>
    dsimp only at stepped
    split at stepped
    · rename_i idle
      obtain ⟨hardware, prepared, after⟩ := Option.map_eq_some_iff.mp stepped
      refine .prepare dev list outcomes hardware idle ?_ ?_ after.symm
      · intro lost known
        obtain ⟨more, kept, _⟩ := step_known known prepared
        exact ⟨more, kept⟩
      · rintro ⟨lost, known⟩
        simp only [Hardware.machine, Hardware.step] at prepared
        split at prepared
        · cases prepared
        · rw [← Option.some.inj prepared]
          exact prepare_prepared known list outcomes
    · cases stepped
  | call dev callback =>
    dsimp only at stepped
    split at stepped
    · cases stepped
    · obtain ⟨phase, order, after⟩ := Option.map_eq_some_iff.mp stepped
      exact .call dev callback phase order after.symm
  | release dev =>
    dsimp only at stepped
    split at stepped
    · rename_i standing
      obtain ⟨hardware, released, after⟩ := Option.map_eq_some_iff.mp stepped
      rw [release_step s.hardware released] at after
      exact .release dev standing after.symm
    · cases stepped
  | hostInject =>
    dsimp only at stepped
    split at stepped
    · rename_i enabled
      exact .inject enabled (Option.some.inj stepped).symm
    · cases stepped

theorem prepared_hardware (hardware : Hardware.State) :
    (s.prepared dev hardware).hardware = hardware := by
  unfold State.prepared
  split
  · rfl
  · rfl

theorem prepared_failed {hardware : Hardware.State}
    (failed : hardware.returned ≠ .prepared .success) :
    s.prepared dev hardware =
      { s with
        hardware := hardware
        phase := Function.update s.phase dev .refused } := if_neg failed

theorem prepared_succeeded {hardware : Hardware.State}
    (returned : hardware.returned = .prepared .success) :
    s.prepared dev hardware =
      { s with
        hardware := hardware
        phase := Function.update s.phase dev .prepared
        given := Function.update s.given dev hardware.bridge.pci.signal
        irq := (shmSignalEnable (ShmSignalDesc.zeroed.irq .north)).1
        registered := registration hardware.bridge } := if_pos returned

theorem released_known (grounded : Grounded s) :
    ∃ lost, Known lost ⟨vbusPciCleanup s.hardware.bridge, .released⟩ := by
  obtain ⟨lost, known⟩ := grounded.known
  exact ⟨lost, cleanup_known known.tracked _⟩

theorem grounded_step {action : Action} (grounded : Grounded s)
    (stepped : step s action = some next) : Grounded next := by
  obtain ⟨_, outcome⟩ := step_outcome stepped
  cases outcome with
  | prepare dev list outcomes hardware idle known prepared after =>
    have kept : ∃ lost, Known lost hardware := by
      obtain ⟨lost, before⟩ := grounded.known
      obtain ⟨more, kept⟩ := known lost before
      exact ⟨_, kept⟩
    rw [after]
    cases prepared grounded.known with
    | refused enabled pci pool returned =>
      rw [prepared_failed returned]
      refine ⟨kept, ?_, ?_⟩
      · intro _
        rw [pci]
        exact grounded.equipped enabled
      · intro _
        dsimp only
        rw [pci]
        exact grounded.registered enabled
    | failed disabled still returned =>
      rw [prepared_failed returned]
      refine ⟨kept, ?_, ?_⟩
      · intro enabled
        exact absurd (still.symm.trans enabled) nofun
      · intro enabled
        exact absurd (still.symm.trans enabled) nofun
    | succeeded disabled returned enabled equipped registered =>
      rw [prepared_succeeded returned]
      exact ⟨kept, fun _ => equipped, fun _ => registered⟩
  | call dev callback phase order after =>
    obtain ⟨hardware, registered, _⟩ := called_hardware s dev callback phase
    rw [after]
    refine ⟨?_, ?_, ?_⟩
    · rw [hardware]
      exact grounded.known
    · rw [hardware]
      exact grounded.equipped
    · rw [hardware, registered]
      exact grounded.registered
  | release dev standing after =>
    rw [after]
    exact ⟨released_known grounded, nofun, nofun⟩
  | inject enabled after =>
    rw [after]
    exact ⟨grounded.known, grounded.equipped, grounded.registered⟩

theorem grounded_start : Grounded machine.start := ⟨⟨[], known_initial⟩, nofun, nofun⟩

theorem Grounded.named (grounded : Grounded s) : Named s := by
  intro enabled
  obtain ⟨head, first⟩ := Option.isSome_iff_exists.mp (grounded.equipped enabled).headDesc
  obtain ⟨ring, second⟩ := Option.isSome_iff_exists.mp (grounded.equipped enabled).ring
  refine ⟨head, ring, first, second, ?_⟩
  rw [grounded.registered enabled, first, second]
  rfl

structure Sole (s : State) : Prop where
  grounded : Grounded s
  backed : Backed s
  only : ∀ dev other, (s.phase dev).holding = true → (s.phase other).holding = true → dev = other
  queued : ∀ dev, s.queued dev = true → s.phase dev = .powered ∨ s.phase dev = .connected
  follows : Follows s

theorem holding_enabled (grounded : Grounded s) (backed : Backed s)
    (holding : (s.phase dev).holding = true) : s.hardware.bridge.pci.enabled = true := by
  obtain ⟨block, _, signal, _⟩ := backed.own dev holding
  exact grounded.enabled (signal_mem signal)

theorem idle_of_disabled (grounded : Grounded s) (backed : Backed s)
    (disabled : s.hardware.bridge.pci.enabled = false) (dev : Nat) :
    (s.phase dev).holding = false := by
  rw [← Bool.not_eq_true]
  intro holding
  have enabled := holding_enabled grounded backed holding
  rw [disabled] at enabled
  cases enabled

theorem exited_holding (exited : phase = .exited) : phase.holding = true := by
  rw [exited]
  rfl

theorem connected_holding (connected : phase = .connected) : phase.holding = true := by
  rw [connected]
  rfl

theorem holding_left (left : phase.holding = false)
    (holding : (Function.update s.phase dev phase other).holding = true) :
    other ≠ dev ∧ (s.phase other).holding = true := by
  by_cases same : other = dev
  · rw [same, Function.update_self, left] at holding
    cases holding
  · rw [Function.update_of_ne same] at holding
    exact ⟨same, holding⟩

theorem queued_holding (sole : Sole s) (queued : s.queued dev = true) :
    (s.phase dev).holding = true := by
  rcases sole.queued dev queued with powered | connected
  · rw [powered]
    rfl
  · rw [connected]
    rfl

theorem follows_of_idle (idle : ∀ dev, (s.phase dev).holding = false) : Follows s := by
  refine ⟨?_, ?_⟩
  · intro dev exited
    have none := idle dev
    rw [exited] at none
    cases none
  · intro dev connected
    have none := idle dev
    rw [connected] at none
    cases none

inductive Moves (queued : Bool) : Callback → Phase → Phase → Prop where
  | d0Entry (before : Phase) (entering : before = .prepared ∨ before = .exited) :
      Moves queued .d0Entry before .powered
  | intrEnable : Moves queued .intrEnable .powered .connected
  | isr : Moves queued .isr .connected .connected
  | dpc (phase : Phase) (running : queued = true) : Moves queued .dpc phase phase
  | intrDisable : Moves queued .intrDisable .connected .powered
  | d0Exit (flushed : queued = false) : Moves queued .d0Exit .powered .exited

theorem order_moves {queued : Bool} {before after : Phase}
    (order : callback.next queued before = some after) : Moves queued callback before after := by
  unfold Callback.next at order
  split at order
  · cases order
    exact .d0Entry _ (Or.inl rfl)
  · cases order
    exact .d0Entry _ (Or.inr rfl)
  · cases order
    exact .intrEnable
  · cases order
    exact .isr
  · split at order
    · rename_i running
      cases order
      exact .dpc _ running
    · cases order
  · cases order
    exact .intrDisable
  · split at order
    · cases order
    · rename_i flushed
      cases order
      exact .d0Exit (Bool.not_eq_true _ ▸ flushed)
  · cases order

theorem moves_holding {queued : Bool} {before after : Phase}
    (moves : Moves queued callback before after)
    (running : queued = true → before = .powered ∨ before = .connected) :
    before.holding = true ∧ after.holding = true := by
  cases moves with
  | d0Entry before entering => rcases entering with rfl | rfl <;> exact ⟨rfl, rfl⟩
  | dpc phase queued => rcases running queued with rfl | rfl <;> exact ⟨rfl, rfl⟩
  | intrEnable => exact ⟨rfl, rfl⟩
  | isr => exact ⟨rfl, rfl⟩
  | intrDisable => exact ⟨rfl, rfl⟩
  | d0Exit _ => exact ⟨rfl, rfl⟩

theorem moves_queued {queued : Bool} {before after : Phase} {irq : ShmSignalIrq}
    (moves : Moves queued callback before after) (queues : callback.queues irq queued = true) :
    (after = .powered ∨ after = .connected) := by
  cases moves with
  | d0Entry before entering => exact Or.inl rfl
  | intrEnable => exact Or.inr rfl
  | isr => exact Or.inr rfl
  | dpc phase running => cases queues
  | intrDisable => exact Or.inl rfl
  | d0Exit flushed => exact absurd (flushed.symm.trans queues) nofun

theorem wakeup_enabled (irq : ShmSignalIrq) : (shmSignalWakeup irq).1.enabled = irq.enabled := by
  unfold shmSignalWakeup
  split
  · rfl
  · rfl

theorem enable_enabled (irq : ShmSignalIrq) : (shmSignalEnable irq).1.enabled = true := by
  rw [shmSignalEnable, wakeup_enabled]

theorem inject_enabled (irq : ShmSignalIrq) : (shmSignalInject irq).1.enabled = irq.enabled := by
  unfold shmSignalInject
  dsimp only
  split
  · rfl
  · rfl

theorem moves_follows {queued : Bool} {before after : Phase} {irq : ShmSignalIrq}
    (moves : Moves queued callback before after)
    (running : queued = true → before = .powered ∨ before = .connected)
    (awake : before = .connected → queued = false → irq.enabled = true) :
    (after = .exited → (callback.effect irq).1.enabled = false) ∧
      (after = .connected → callback.queues irq queued = false →
        (callback.effect irq).1.enabled = true) := by
  cases moves with
  | d0Entry before entering => exact ⟨nofun, nofun⟩
  | intrEnable => exact ⟨nofun, fun _ _ => enable_enabled irq⟩
  | isr =>
    refine ⟨nofun, ?_⟩
    intro _ discarded
    obtain ⟨empty, off⟩ := Bool.or_eq_false_iff.mp discarded
    exact absurd (off.symm.trans (awake rfl empty)) nofun
  | dpc phase queued =>
    refine ⟨?_, fun _ _ => enable_enabled _⟩
    intro exited
    rw [exited] at running
    rcases running queued with impossible | impossible <;> cases impossible
  | intrDisable => exact ⟨nofun, nofun⟩
  | d0Exit flushed => exact ⟨fun _ => rfl, nofun⟩

theorem reaches_of_equipped (equipped : Equipped pci) (wakes : Bool) : reaches pci wakes = true := by
  rw [reaches, equipped.signal, equipped.headDesc, equipped.ring]
  cases wakes <;> rfl

theorem sole_call (sole : Sole s)
    (order : callback.next (s.queued dev) (s.phase dev) = some phase) :
    Sole (s.called dev callback phase) := by
  have moves := order_moves order
  obtain ⟨before, after⟩ := moves_holding moves (sole.queued dev)
  have enabled := holding_enabled sole.grounded sole.backed before
  have reached := reaches_of_equipped (sole.grounded.equipped enabled) (callback.effect s.irq).2
  -- The device moves among the phases in which it holds the hardware.
  have same (other : Nat) :
      (Function.update s.phase dev phase other).holding = (s.phase other).holding := by
    by_cases self : other = dev
    · rw [self, Function.update_self, after, before]
    · rw [Function.update_of_ne self]
  rw [State.called, if_pos reached]
  refine ⟨⟨sole.grounded.known, sole.grounded.equipped, sole.grounded.registered⟩,
    ⟨sole.backed.sound, ?_⟩, ?_, ?_, ?_, ?_⟩
  · intro other holding
    rw [same] at holding
    exact sole.backed.own other holding
  · intro one other first second
    rw [same] at first second
    exact sole.only one other first second
  · intro other queued
    dsimp only at queued ⊢
    by_cases self : other = dev
    · rw [self, Function.update_self] at queued ⊢
      exact moves_queued moves queued
    · rw [Function.update_of_ne self] at queued ⊢
      exact sole.queued other queued
  · intro other exited
    dsimp only at exited ⊢
    by_cases self : other = dev
    · rw [self, Function.update_self] at exited
      exact (moves_follows moves (sole.queued dev) (sole.follows.awake dev)).1 exited
    · rw [Function.update_of_ne self] at exited
      exact absurd (sole.only other dev (exited_holding exited) before) self
  · intro other connected empty
    dsimp only at connected empty ⊢
    by_cases self : other = dev
    · rw [self, Function.update_self] at connected empty
      exact (moves_follows moves (sole.queued dev) (sole.follows.awake dev)).2 connected empty
    · rw [Function.update_of_ne self] at connected
      exact absurd (sole.only other dev (connected_holding connected) before) self

theorem sole_left (sole : Sole s) {hardware : Hardware.State}
    (grounded : Grounded { s with
      hardware := hardware
      phase := Function.update s.phase dev phase })
    (left : phase.holding = false) (unqueued : s.queued dev = false)
    (kept : ∀ other, other ≠ dev → (s.phase other).holding = true →
      hardware.bridge.pci = s.hardware.bridge.pci ∧
        hardware.bridge.pool = s.hardware.bridge.pool) :
    Sole { s with
      hardware := hardware
      phase := Function.update s.phase dev phase } := by
  refine ⟨grounded, ⟨sole.backed.sound, ?_⟩, ?_, ?_, ?_, ?_⟩
  · intro other holding
    obtain ⟨different, holding⟩ := holding_left left holding
    obtain ⟨pci, pool⟩ := kept other different holding
    dsimp only
    rw [pci, pool]
    exact sole.backed.own other holding
  · intro one other first second
    exact sole.only one other (holding_left left first).2 (holding_left left second).2
  · intro other queued
    dsimp only at queued ⊢
    by_cases self : other = dev
    · rw [self, unqueued] at queued
      cases queued
    · rw [Function.update_of_ne self]
      exact sole.queued other queued
  · intro other exited
    obtain ⟨different, _⟩ := holding_left left (exited_holding exited)
    dsimp only at exited
    rw [Function.update_of_ne different] at exited
    exact sole.follows.asleep other exited
  · intro other connected empty
    obtain ⟨different, _⟩ := holding_left left (connected_holding connected)
    dsimp only at connected
    rw [Function.update_of_ne different] at connected
    exact sole.follows.awake other connected empty

theorem unqueued_of_idle (sole : Sole s) (idle : (s.phase dev).holding = false) :
    s.queued dev = false := by
  rw [← Bool.not_eq_true]
  intro queued
  exact absurd (idle.symm.trans (queued_holding sole queued)) nofun

theorem unqueued_of_releasable (sole : Sole s) (standing : releasable (s.phase dev) = true) :
    s.queued dev = false := by
  rw [← Bool.not_eq_true]
  intro queued
  rcases sole.queued dev queued with powered | connected
  · rw [powered] at standing
    cases standing
  · rw [connected] at standing
    cases standing

theorem sole_step {action : Action} (sole : Sole s) (alone : Alone s action)
    (stepped : step s action = some next) : Sole next := by
  have grounded := grounded_step sole.grounded stepped
  obtain ⟨_, outcome⟩ := step_outcome stepped
  cases outcome with
  | prepare dev list outcomes hardware idle known prepared after =>
    have out : (s.phase dev).holding = false := by rw [idle]; rfl
    have unqueued := unqueued_of_idle sole out
    rw [after] at grounded ⊢
    cases prepared sole.grounded.known with
    | refused enabled pci pool returned =>
      rw [prepared_failed returned] at grounded ⊢
      exact sole_left sole grounded rfl unqueued fun _ _ _ => ⟨pci, pool⟩
    | failed disabled still returned =>
      rw [prepared_failed returned] at grounded ⊢
      have nobody := idle_of_disabled sole.grounded sole.backed disabled
      refine sole_left sole grounded rfl unqueued ?_
      intro other _ holding
      exact absurd ((nobody other).symm.trans holding) nofun
    | succeeded disabled returned enabled equipped registered =>
      have nobody := idle_of_disabled sole.grounded sole.backed disabled
      rw [prepared_succeeded returned] at grounded ⊢
      have self (other : Nat)
          (holding : (Function.update s.phase dev .prepared other).holding = true) :
          other = dev := by
        by_contra different
        rw [Function.update_of_ne different] at holding
        exact absurd ((nobody other).symm.trans holding) nofun
      obtain ⟨block, signal⟩ := Option.isSome_iff_exists.mp equipped.signal
      refine ⟨grounded, ⟨sole.backed.sound, ?_⟩, ?_, ?_, ?_, ?_⟩
      · intro other holding
        refine ⟨block, ?_, signal, grounded.live (signal_mem signal)⟩
        rw [self other holding]
        exact (Function.update_self dev _ s.given).trans signal
      · intro one other first second
        exact (self one first).trans (self other second).symm
      · intro other queued
        exact absurd ((nobody other).symm.trans (queued_holding sole queued)) nofun
      · intro other exited
        have same := self other (exited_holding exited)
        dsimp only at exited
        rw [same, Function.update_self] at exited
        cases exited
      · intro other connected _
        exact enable_enabled _
  | call dev callback phase order after =>
    rw [after]
    exact sole_call sole order
  | release dev standing after =>
    rw [after] at grounded ⊢
    refine sole_left sole grounded rfl (unqueued_of_releasable sole standing) ?_
    intro other different holding
    exact absurd ((alone other different).symm.trans holding) nofun
  | inject enabled after =>
    rw [after] at grounded ⊢
    refine ⟨grounded, ⟨sole.backed.sound, sole.backed.own⟩, sole.only, sole.queued, ?_, ?_⟩
    · intro other exited
      exact (inject_enabled s.irq).trans (sole.follows.asleep other exited)
    · intro other connected empty
      exact (inject_enabled s.irq).trans (sole.follows.awake other connected empty)

theorem sole_start : Sole machine.start := by
  refine ⟨grounded_start, ⟨rfl, nofun⟩, nofun, nofun, ?_⟩
  exact follows_of_idle fun _ => rfl

theorem cleaned_signal (bridge : Bridge) : (vbusPciCleanup bridge).pci.signal = none := rfl

theorem alone_of_backed {action : Action} (stepped : step s action = some next)
    (backed : Backed next) : Alone s action := by
  obtain ⟨_, outcome⟩ := step_outcome stepped
  cases outcome with
  | release dev standing after =>
    intro other different
    rw [after] at backed
    rw [← Bool.not_eq_true]
    intro holding
    have still : Function.update s.phase dev .added other = s.phase other :=
      Function.update_of_ne different _ _
    obtain ⟨block, _, signal, _⟩ := backed.own other ((congrArg Phase.holding still).trans holding)
    exact absurd ((cleaned_signal s.hardware.bridge).symm.trans signal) nofun
  | prepare => exact True.intro
  | call => exact True.intro
  | inject => exact True.intro

/-- Each device that holds the hardware works on what its own prepare allocated, and no callback goes
    through a null pointer, in exactly the runs in which no other device's hardware is released
    meanwhile: `VbusPciReleaseHardware` does not ask whose the hardware is, and a device that was
    refused with `STATUS_DEVICE_ALREADY_ATTACHED` is released like any other. -/
theorem power_backed_iff (actions : List Action) :
    machine.Throughout Backed machine.start actions ↔
      machine.Meets (machine.OnSteps Alone) machine.start actions :=
  Machine.throughout_iff_guarded Sole (fun _ sole => sole.backed)
    (fun _ _ _ sole alone stepped => sole_step sole alone stepped)
    (fun _ _ _ _ stepped backed => alone_of_backed stepped backed) sole_start actions

/-- In these runs the irq follows the power state of every device. -/
theorem power_followed (s : State) (reached : machine.ReachableBy Alone s) : Follows s := by
  have sole : Sole s := Machine.ReachableBy.invariant reached sole_start
    fun _ _ _ sole alone stepped => sole_step sole alone stepped
  exact sole.follows

def oneWindow : ResourceList :=
  [some (.memory ⟨0xF0000000#64, 64#32⟩ true), some (.port ⟨0xC000#64, 32#32⟩)]

def sleeping : List Action :=
  [.prepare 0 oneWindow goodOutcomes, .call 0 .d0Entry, .call 0 .intrEnable, .hostInject,
    .call 0 .isr, .call 0 .isr, .call 0 .dpc, .call 0 .intrDisable, .call 0 .d0Exit]

theorem sleeping_allowed : (machine.run machine.start sleeping).isSome := by
  decide

def keepsAll : Action → Bool
  | .release _ => false
  | _ => true

theorem alone_of_keepsAll (s : State) (action : Action) (keeps : keepsAll action = true) :
    Alone s action := by
  cases action with
  | release dev => cases keeps
  | prepare => exact True.intro
  | call => exact True.intro
  | hostInject => exact True.intro

theorem power_followed_sleeping :
    let s := (machine.run machine.start sleeping).get sleeping_allowed
    s.phase 0 = .exited ∧ s.irq.enabled = false ∧ s.irq.pending = true := by
  refine ⟨by decide, ?_, by decide⟩
  have met : machine.Meets Alone machine.start sleeping :=
    @Machine.meets_of_checks _ _ _ _ (fun _ action => keepsAll action) alone_of_keepsAll _ _
      (by decide)
  exact (power_followed _ (Machine.reachableBy_get sleeping met sleeping_allowed)).asleep 0
    (by decide)

theorem bare_step {action : Action} (bare : s.hardware.bridge.pci.signal = none)
    (unprepared : ∀ dev list outcomes, action ≠ .prepare dev list outcomes)
    (stepped : step s action = some next) :
    next.hardware.bridge.pci.signal = none ∧
      ∀ dev callback, action = .call dev callback → next.faulted = true := by
  obtain ⟨_, outcome⟩ := step_outcome stepped
  cases outcome with
  | prepare dev list outcomes hardware idle known prepared after =>
    exact absurd rfl (unprepared dev list outcomes)
  | call dev callback phase order after =>
    have unreached : reaches s.hardware.bridge.pci (callback.effect s.irq).2 = false := by
      rw [reaches, bare]
      rfl
    rw [after]
    refine ⟨(congrArg (fun h => h.bridge.pci.signal) (called_hardware s dev callback phase).1).trans
      bare, ?_⟩
    intro _ _ _
    rw [State.called, unreached]
    rfl
  | release dev standing after =>
    rw [after]
    exact ⟨rfl, nofun⟩
  | inject enabled after =>
    rw [after]
    exact ⟨bare, nofun⟩

theorem bare_run {final : State} {actions : List Action}
    (bare : s.hardware.bridge.pci.signal = none)
    (unprepared : ∀ dev list outcomes, Action.prepare dev list outcomes ∉ actions)
    (ran : machine.run s actions = some final) : final.hardware.bridge.pci.signal = none := by
  induction actions generalizing s with
  | nil =>
    simp only [Machine.run, Option.some.injEq] at ran
    rw [← ran]
    exact bare
  | cons action rest ih =>
    simp only [Machine.run, Option.bind_eq_some_iff] at ran
    obtain ⟨next, stepped, ran⟩ := ran
    have first := bare_step bare
      (fun dev list outcomes same => unprepared dev list outcomes (same ▸ List.mem_cons_self)) stepped
    exact ih first.1
      (fun dev list outcomes among => unprepared dev list outcomes (List.mem_cons_of_mem _ among)) ran

/-- After a release, whichever device was released, the next callback of any device goes through a
    null pointer, unless a prepare comes before it. -/
theorem orphan_faults (s between next : State) (dev other : Nat) (callback : Callback)
    (actions : List Action)
    (unprepared : ∀ dev list outcomes, Action.prepare dev list outcomes ∉ actions)
    (ran : machine.run s (.release dev :: actions) = some between)
    (stepped : step between (.call other callback) = some next) : next.faulted = true := by
  simp only [Machine.run, Option.bind_eq_some_iff] at ran
  obtain ⟨released, first, ran⟩ := ran
  have first : step s (.release dev) = some released := first
  have bare : released.hardware.bridge.pci.signal = none := by
    cases (step_outcome first).2 with
    | release dev standing after =>
      rw [after]
      rfl
  have still := bare_run bare unprepared ran
  exact (bare_step still (by intro _ _ _ same; cases same) stepped).2 other callback rfl

def upAndRefused : List Action :=
  [.prepare 0 oneWindow goodOutcomes, .call 0 .d0Entry, .call 0 .intrEnable,
    .prepare 1 oneWindow goodOutcomes]

theorem upAndRefused_allowed : (machine.run machine.start upAndRefused).isSome := by
  decide

theorem refused_released : (machine.run ((machine.run machine.start upAndRefused).get
    upAndRefused_allowed) [.release 1]).isSome := by
  decide

theorem interrupted_released : (machine.step ((machine.run ((machine.run machine.start
    upAndRefused).get upAndRefused_allowed) [.release 1]).get refused_released)
    (.call 0 .isr)).isSome := by
  decide

theorem orphan_faults_interrupt :
    ((machine.step ((machine.run ((machine.run machine.start upAndRefused).get
      upAndRefused_allowed) [.release 1]).get refused_released) (.call 0 .isr)).get
      interrupted_released).faulted = true :=
  orphan_faults _ _ _ 1 0 .isr [] (fun _ _ _ => List.not_mem_nil)
    (Option.some_get refused_released).symm (Option.some_get interrupted_released).symm

structure Registered (s : State) : Prop where
  grounded : Grounded s
  unregistered : s.hardware.bridge.pci.enabled = false → s.registered = []

theorem Registered.served (registered : Registered s) : Served s := by
  intro block among
  cases enabled : s.hardware.bridge.pci.enabled with
  | false =>
    rw [registered.unregistered enabled] at among
    exact absurd among List.not_mem_nil
  | true =>
    rw [registered.grounded.registered enabled] at among
    apply registered.grounded.live
    rcases List.mem_append.mp among with head | ring
    · exact List.mem_append_left _ head
    · exact List.mem_append_right _ (List.mem_append_right _ ring)

theorem registered_step {action : Action} (registered : Registered s) (keeps : KeepsQueue s action)
    (stepped : step s action = some next) : Registered next := by
  refine ⟨grounded_step registered.grounded stepped, ?_⟩
  intro disabled
  obtain ⟨_, outcome⟩ := step_outcome stepped
  cases outcome with
  | prepare dev list outcomes hardware idle known prepared after =>
    rw [after, prepared_hardware] at disabled
    rw [after]
    cases prepared registered.grounded.known with
    | refused enabled pci pool returned =>
      rw [pci, enabled] at disabled
      cases disabled
    | failed before still returned =>
      rw [prepared_failed returned]
      exact registered.unregistered before
    | succeeded before returned enabled equipped recorded =>
      rw [enabled] at disabled
      cases disabled
  | call dev callback phase order after =>
    obtain ⟨hardware, same, _⟩ := called_hardware s dev callback phase
    rw [after, hardware] at disabled
    rw [after, same]
    exact registered.unregistered disabled
  | release dev standing after =>
    rw [after]
    exact registered.unregistered keeps
  | inject enabled after =>
    rw [after] at disabled
    rw [after]
    exact registered.unregistered disabled

theorem cleaned_live (grounded : Grounded s) :
    (vbusPciCleanup s.hardware.bridge).pool.live = [] := by
  obtain ⟨lost, known⟩ := grounded.known
  obtain ⟨tracked, idle⟩ := cleanup_tracked known.tracked
  exact tracked.pool.live_eq_nil.mpr idle.blocks

theorem keeps_of_served {action : Action} (registered : Registered s)
    (stepped : step s action = some next) (served : Served next) : KeepsQueue s action := by
  obtain ⟨_, outcome⟩ := step_outcome stepped
  cases outcome with
  | release dev standing after =>
    rw [KeepsQueue, ← Bool.not_eq_true]
    intro enabled
    obtain ⟨block, head⟩ :=
      Option.isSome_iff_exists.mp (registered.grounded.equipped enabled).headDesc
    have among : block ∈ s.registered := by
      rw [registered.grounded.registered enabled, head]
      exact List.mem_cons_self
    rw [after] at served
    have live : block ∈ (vbusPciCleanup s.hardware.bridge).pool.live := served block among
    rw [cleaned_live registered.grounded] at live
    exact absurd live List.not_mem_nil
  | prepare => exact True.intro
  | call => exact True.intro
  | inject => exact True.intro

/-- The host's event queue is the one on record as long as the hardware is enabled, and it never lies
    in freed memory in exactly the runs in which no device is released while the hardware is enabled:
    no bridgecall takes the registration back. -/
theorem registration_served_iff (actions : List Action) :
    machine.Throughout Named machine.start actions ∧
      (machine.Throughout Served machine.start actions ↔
        machine.Meets (machine.OnSteps KeepsQueue) machine.start actions) := by
  refine ⟨?_, ?_⟩
  · exact Machine.throughout_of_invariant Grounded (fun _ grounded => grounded.named)
      (fun _ _ _ grounded stepped => grounded_step grounded stepped) grounded_start actions
  · exact Machine.throughout_iff_guarded Registered (fun _ registered => registered.served)
      (fun _ _ _ registered keeps stepped => registered_step registered keeps stepped)
      (fun _ _ _ registered stepped served => keeps_of_served registered stepped served)
      ⟨grounded_start, fun _ => rfl⟩ actions

end Step

end Vbus.PowerStates
