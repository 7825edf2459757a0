import AlacrityDrivers.Vbus.HardwareLedger

namespace Vbus.Hardware

open Allocation Transition

def LastMapped (list : ResourceList) : Prop :=
  ∃ before window after, list = before ++ some (.memory window true) :: after ∧
    ∀ later ∈ after, isMemory later = false

def MadeFrom (list : ResourceList) (mapping : Mapping) : Prop :=
  some (.memory mapping.2 true) ∈ list

/-- `vbus_pci.signals` is the window of a port descriptor of the list. -/
def PortFound (list : ResourceList) (pci : VbusPci) : Prop :=
  ∃ window, some (.port window) ∈ list ∧ pci.signals = window.start.setWidth 32 ∧
    pci.signalsLength = window.length

/-- Every bridgecall goes through a mapping of the list, and success means both windows. -/
structure Guarded (list : ResourceList) (after : State) : Prop where
  calls : ∀ call ∈ after.bridge.calls, ∃ mapping, call.2 = some mapping ∧ MadeFrom list mapping
  success : after.returned = .prepared .success →
    (∃ mapping, after.bridge.pci.regs = some mapping ∧ MadeFrom list mapping) ∧
      PortFound list after.bridge.pci

def EndsEarly (s : State) (list : ResourceList) (outcomes : Outcomes) : Prop :=
  s.bridge.pci.enabled = true ∨ outcomes.lock = false ∨ outcomes.fastlock = false ∨ list = [] ∨
    none ∈ list

section Windows

variable {bridge : Bridge} {list rest : ResourceList} {rc : HardwareStatus}

theorem mapLoop_success (rc : HardwareStatus) (bridge : Bridge) (list : ResourceList) :
    (mapLoop rc bridge list).1 = .success ↔ none ∉ list ∧ (list = [] → rc = .success) := by
  induction list generalizing rc bridge with
  | nil => simp [mapLoop]
  | cons descriptor rest ih =>
    rcases descriptor with _ | descriptor
    · simp [mapLoop, vbusPciParseResource]
    · rw [mapLoop_cons_some, ih]
      simp

theorem lastMapped_cons (descriptor : Option Descriptor) (rest : ResourceList) :
    LastMapped (descriptor :: rest) ↔
      LastMapped rest ∨ isMapped descriptor = true ∧ ∀ later ∈ rest, isMemory later = false := by
  constructor
  · rintro ⟨before, window, after, split, last⟩
    cases before with
    | nil =>
      rcases List.cons.inj split with ⟨head, tail⟩
      rw [head, tail]
      exact Or.inr ⟨rfl, last⟩
    | cons first before =>
      rcases List.cons.inj split with ⟨_, tail⟩
      exact Or.inl ⟨before, window, after, tail, last⟩
  · rintro (⟨before, window, after, split, last⟩ | ⟨mapped, last⟩)
    · exact ⟨descriptor :: before, window, after, by rw [split]; rfl, last⟩
    · rcases descriptor with _ | window | ⟨window, mapped⟩ | _ | _
      · cases mapped
      · cases mapped
      · rw [isMapped] at mapped
        rw [mapped]
        exact ⟨[], window, rest, rfl, last⟩
      · cases mapped
      · cases mapped

theorem parse_regs (bridge : Bridge) (descriptor : Descriptor) :
    (vbusPciParseResource bridge (some descriptor)).2.pci.regs ≠ none ↔
      isMapped (some descriptor) = true ∨
        bridge.pci.regs ≠ none ∧ isMemory (some descriptor) = false := by
  cases descriptor with
  | memory window mapped =>
    rw [parse_memory_regs]
    simp [isMapped, isMemory]
  | port window => simp [vbusPciParseResource, isMapped, isMemory]
  | interrupt => simp [vbusPciParseResource, isMapped, isMemory]
  | other => simp [vbusPciParseResource, isMapped, isMemory]

theorem mapLoop_regs (rc : HardwareStatus) (bridge : Bridge) (readable : none ∉ list) :
    (mapLoop rc bridge list).2.pci.regs ≠ none ↔
      LastMapped list ∨ bridge.pci.regs ≠ none ∧ ∀ later ∈ list, isMemory later = false := by
  induction list generalizing rc bridge with
  | nil => simp [mapLoop, LastMapped]
  | cons descriptor rest ih =>
    rcases descriptor with _ | descriptor
    · exact absurd List.mem_cons_self readable
    · have later : none ∉ rest := fun among => readable (List.mem_cons_of_mem _ among)
      rw [mapLoop_cons_some, ih .success _ later, parse_regs, lastMapped_cons, List.forall_mem_cons]
      tauto

theorem parse_made (bridge : Bridge) (descriptor : Descriptor) {mapping : Mapping}
    (recorded : (vbusPciParseResource bridge (some descriptor)).2.pci.regs = some mapping) :
    bridge.pci.regs = some mapping ∨ some descriptor = some (.memory mapping.2 true) := by
  cases descriptor with
  | memory window mapped =>
    cases mapped with
    | false => cases recorded
    | true =>
      rw [← Option.some.inj recorded]
      exact Or.inr rfl
  | port window => exact Or.inl recorded
  | interrupt => exact Or.inl recorded
  | other => exact Or.inl recorded

theorem mapLoop_made (rc : HardwareStatus) (bridge : Bridge) (list : ResourceList)
    {mapping : Mapping} (recorded : (mapLoop rc bridge list).2.pci.regs = some mapping) :
    bridge.pci.regs = some mapping ∨ MadeFrom list mapping := by
  induction list generalizing rc bridge with
  | nil => exact Or.inl recorded
  | cons descriptor rest ih =>
    rcases descriptor with _ | descriptor
    · exact Or.inl recorded
    · rw [mapLoop_cons_some] at recorded
      rcases ih .success _ recorded with earlier | made
      · rcases parse_made bridge descriptor earlier with before | this
        · exact Or.inl before
        · rw [this]
          exact Or.inr List.mem_cons_self
      · exact Or.inr (List.mem_cons_of_mem _ made)

theorem PortFound.cons {pci : VbusPci} (found : PortFound rest pci)
    (descriptor : Option Descriptor) : PortFound (descriptor :: rest) pci := by
  obtain ⟨window, among, signals, length⟩ := found
  exact ⟨window, List.mem_cons_of_mem _ among, signals, length⟩

theorem mapLoop_port (rc : HardwareStatus) (bridge : Bridge) (readable : none ∉ list) :
    PortFound list (mapLoop rc bridge list).2.pci ∨
      (∀ window, some (.port window) ∉ list) ∧
        (mapLoop rc bridge list).2.pci.signals = bridge.pci.signals ∧
        (mapLoop rc bridge list).2.pci.signalsLength = bridge.pci.signalsLength := by
  induction list generalizing rc bridge with
  | nil => exact Or.inr ⟨fun _ => List.not_mem_nil, rfl, rfl⟩
  | cons descriptor rest ih =>
    rcases descriptor with _ | descriptor
    · exact absurd List.mem_cons_self readable
    have later : none ∉ rest := fun among => readable (List.mem_cons_of_mem _ among)
    rw [mapLoop_cons_some]
    rcases ih .success (vbusPciParseResource bridge (some descriptor)).2 later with
      found | ⟨absent, signals, length⟩
    · exact Or.inl (found.cons _)
    -- Of a descriptor of another kind nothing is recorded as a port.
    have without (other : ∀ window, some descriptor ≠ some (.port window)) :
        ∀ window, some (.port window) ∉ some descriptor :: rest := by
      intro window among
      rcases List.mem_cons.mp among with same | among
      · exact other window same.symm
      · exact absent window among
    cases descriptor with
    | port window => exact Or.inl ⟨window, List.mem_cons_self, signals, length⟩
    | memory window mapped => exact Or.inr ⟨without nofun, signals, length⟩
    | interrupt => exact Or.inr ⟨without nofun, signals, length⟩
    | other => exact Or.inr ⟨without nofun, signals, length⟩

end Windows

section Prepare

variable {bridge : Bridge} {list : ResourceList} {outcomes : Outcomes}

theorem cleanup_guarded (list : ResourceList) (quiet : bridge.calls = []) {status : HardwareStatus}
    (failed : status ≠ .success) : Guarded list ⟨vbusPciCleanup bridge, .prepared status⟩ := by
  refine ⟨?_, ?_⟩
  · intro call among
    rw [vbusPciCleanup, quiet] at among
    cases among
  · intro success
    exact absurd (Returned.prepared.inj success) failed

theorem bringUp_guarded_iff (quiet : bridge.calls = []) (clear : bridge.pci.blocks = [])
    (pool : bridge.pool.Holds bridge.pci.blocks)
    (made : ∀ mapping, bridge.pci.regs = some mapping → MadeFrom list mapping)
    (port : (∃ window, some (.port window) ∈ list) → PortFound list bridge.pci)
    (outcomes : Outcomes) :
    Guarded list (.ofPrepare ((bringUp bridge outcomes).map conclude)) ↔
      bridge.pci.regs ≠ none ∧ (outcomes.Succeed → ∃ window, some (.port window) ∈ list) := by
  cases regs : bridge.pci.regs with
  | none =>
    rw [bringUp_unmapped regs]
    constructor
    · intro guarded
      obtain ⟨mapping, through, _⟩ :=
        guarded.calls _ (List.mem_append_right _ List.mem_cons_self)
      rw [regs] at through
      cases through
    · intro mapped
      exact absurd rfl mapped.1
  | some mapping =>
    obtain ⟨outcome, ran, advances, success, _⟩ := bringUp_mapped regs pool clear outcomes
    rw [ran]
    have calls : ∀ call ∈ outcome.2.calls,
        ∃ mapping, call.2 = some mapping ∧ MadeFrom list mapping := by
      intro call among
      rcases advances.calls call among with earlier | through
      · rw [quiet] at earlier
        cases earlier
      · exact ⟨mapping, through, made mapping regs⟩
    by_cases succeeded : outcome.1 = .success
    · rw [Except.map, conclude_success succeeded]
      constructor
      · intro guarded
        obtain ⟨window, among, _⟩ := (guarded.success rfl).2
        exact ⟨nofun, fun _ => ⟨window, among⟩⟩
      · intro windows
        obtain ⟨window, among, signals, length⟩ := port (windows.2 (success.mp succeeded))
        refine ⟨calls, fun _ => ⟨⟨mapping, advances.windows.regs.trans regs, made mapping regs⟩, ?_⟩⟩
        exact ⟨window, among, advances.windows.signals.trans signals,
          advances.windows.signalsLength.trans length⟩
    · rw [Except.map, conclude_failure succeeded]
      constructor
      · intro _
        exact ⟨nofun, fun succeed => absurd (success.mpr succeed) succeeded⟩
      · intro _
        exact ⟨calls, fun returned => absurd (Returned.prepared.inj returned) succeeded⟩

theorem mapped_guarded_iff (quiet : bridge.calls = []) (idle : Idle bridge)
    (pool : bridge.pool.Holds bridge.pci.blocks) (list : ResourceList) (outcomes : Outcomes) :
    Guarded list (.ofPrepare
        (if (vbusPciMapResources bridge list).1 ≠ .success then
          .ok ((vbusPciMapResources bridge list).1,
            vbusPciCleanup (vbusPciMapResources bridge list).2)
        else (bringUp (vbusPciMapResources bridge list).2 outcomes).map conclude)) ↔
      (list = [] ∨ none ∈ list) ∨
        LastMapped list ∧ (outcomes.Succeed → ∃ window, some (.port window) ∈ list) := by
  have same := mapLoop_sameQueue .configurationError bridge list
  have success := mapLoop_success .configurationError bridge list
  rw [vbusPciMapResources]
  by_cases failed : (mapLoop .configurationError bridge list).1 ≠ .success
  · rw [if_pos failed]
    refine ⟨fun _ => Or.inl ?_, fun _ => cleanup_guarded list (same.calls.trans quiet) failed⟩
    rw [Ne, success, not_and_or, not_not] at failed
    rcases failed with unreadable | empty
    · exact Or.inr unreadable
    · exact Or.inl (Classical.not_imp.mp empty).1
  rw [if_neg failed]
  rw [not_not, success] at failed
  rcases failed with ⟨readable, nonempty⟩
  have regs := mapLoop_regs .configurationError bridge readable
  have held : (mapLoop .configurationError bridge list).2.pool.Holds
      (mapLoop .configurationError bridge list).2.pci.blocks := by
    rw [same.pool, same.blocks]
    exact pool
  have made : ∀ mapping, (mapLoop .configurationError bridge list).2.pci.regs = some mapping →
      MadeFrom list mapping := by
    intro mapping recorded
    rcases mapLoop_made .configurationError bridge list recorded with before | made
    · exact absurd (idle.regs.symm.trans before) nofun
    · exact made
  have found : (∃ window, some (.port window) ∈ list) →
      PortFound list (mapLoop .configurationError bridge list).2.pci := by
    rintro ⟨window, among⟩
    rcases mapLoop_port .configurationError bridge readable with found | ⟨absent, _⟩
    · exact found
    · exact absurd among (absent window)
  rw [bringUp_guarded_iff (same.calls.trans quiet) (same.blocks.trans idle.blocks) held made found
    outcomes, regs]
  constructor
  · rintro ⟨last | held, port⟩
    · exact Or.inr ⟨last, port⟩
    · exact absurd idle.regs held.1
  · rintro ((empty | unreadable) | ⟨last, port⟩)
    · exact absurd (nonempty empty) nofun
    · exact absurd unreadable readable
    · exact ⟨Or.inl last, port⟩

/-- A prepare calls the bridge through a mapped window, and succeeds with both, exactly where the
    last memory descriptor was mapped and no success lacks a port descriptor, or it never calls. -/
theorem prepare_guarded_iff (s : State) (list : ResourceList) (outcomes : Outcomes)
    (reached : machine.Reachable s) :
    Guarded list (.ofPrepare (vbusPciPrepareHardware s.bridge list outcomes)) ↔
      EndsEarly s list outcomes ∨
        LastMapped list ∧ (outcomes.Succeed → ∃ window, some (.port window) ∈ list) := by
  obtain ⟨lost, known⟩ := reachable_known reached
  unfold vbusPciPrepareHardware EndsEarly
  dsimp only
  have early (status : HardwareStatus) (failed : status ≠ .success) :
      Guarded list (.ofPrepare (.ok (status, { s.bridge with calls := [] }))) :=
    ⟨nofun, fun success => absurd (Returned.prepared.inj success) failed⟩
  split
  · rename_i enabled
    exact ⟨fun _ => Or.inl (Or.inl enabled), fun _ => early _ nofun⟩
  rename_i disabled
  split
  · rename_i noLock
    exact ⟨fun _ => Or.inl (Or.inr (Or.inl noLock)), fun _ => early _ nofun⟩
  rename_i lock
  split
  · rename_i noFastlock
    exact ⟨fun _ => Or.inl (Or.inr (Or.inr (Or.inl noFastlock))), fun _ => early _ nofun⟩
  rename_i fastlock
  have idle : Idle { s.bridge with calls := [] } := by
    rw [Bool.not_eq_true] at disabled
    rcases known.idle disabled with ⟨regs, blocks⟩
    exact ⟨regs, blocks⟩
  rw [mapped_guarded_iff rfl idle known.tracked.pool]
  constructor
  · rintro (nothing | windows)
    · exact Or.inl (Or.inr (Or.inr (Or.inr nothing)))
    · exact Or.inr windows
  · rintro ((enabled | noLock | noFastlock | nothing) | windows)
    · exact absurd enabled disabled
    · exact absurd noLock lock
    · exact absurd noFastlock fastlock
    · exact Or.inl nothing
    · exact Or.inr windows

theorem prepare_guarded_iff_start :
    Guarded twoWindows
        (.ofPrepare (vbusPciPrepareHardware machine.start.bridge twoWindows goodOutcomes)) ↔
      EndsEarly machine.start twoWindows goodOutcomes ∨
        LastMapped twoWindows ∧
          (goodOutcomes.Succeed → ∃ window, some (.port window) ∈ twoWindows) :=
  prepare_guarded_iff machine.start twoWindows goodOutcomes .start

def portOnly : ResourceList := [some (.port ⟨0xC000#64, 32#32⟩), some .interrupt]

theorem negotiate_without_window :
    (State.ofPrepare
        (vbusPciPrepareHardware machine.start.bridge portOnly goodOutcomes)).bridge.calls =
        [(.negotiate 0xbf53eef5#32 1#32 0#64, none)] ∧
      ¬ Guarded portOnly
        (.ofPrepare (vbusPciPrepareHardware machine.start.bridge portOnly goodOutcomes)) := by
  refine ⟨rfl, ?_⟩
  intro guarded
  obtain ⟨mapping, through, _⟩ := guarded.calls _ List.mem_cons_self
  cases through

end Prepare

end Vbus.Hardware
