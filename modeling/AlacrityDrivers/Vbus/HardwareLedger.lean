import AlacrityDrivers.Library.Transition
import AlacrityDrivers.Vbus.Hardware

namespace Vbus.Hardware

open Allocation Transition

inductive Returned where
  | loaded
  | prepared (status : HardwareStatus)
  | released
  | crashed
deriving DecidableEq, Repr

structure State where
  bridge : Bridge
  returned : Returned
deriving DecidableEq, Repr

inductive Action where
  | prepare (list : ResourceList) (outcomes : Outcomes)
  | release

def State.ofPrepare : Except Bridge (HardwareStatus × Bridge) → State
  | .error bridge => ⟨bridge, .crashed⟩
  | .ok outcome => ⟨outcome.2, .prepared outcome.1⟩

def step (s : State) (action : Action) : Option State :=
  if s.returned = .crashed then none
  else match action with
    | .prepare list outcomes =>
      some (.ofPrepare (vbusPciPrepareHardware s.bridge list outcomes))
    | .release => some ⟨vbusPciReleaseHardware s.bridge, .released⟩

def machine : Machine State Action := ⟨⟨.initial, .loaded⟩, step⟩

def Returned.Settles : Returned → Prop
  | .prepared status => status.PastLocks
  | .released => True
  | .loaded | .crashed => False

/-- What is outstanding is what `vbus_pci` records, nothing was released twice, and nothing is
    outstanding after a failed prepare or a release. -/
structure Accounted (s : State) : Prop where
  mappings : s.bridge.mappings.live.Perm s.bridge.pci.regs.toList
  pool : s.bridge.pool.live.Perm s.bridge.pci.blocks
  mappingsOnce : s.bridge.mappings.misused = false
  poolOnce : s.bridge.pool.misused = false
  settled : s.returned.Settles → s.bridge.mappings.live = [] ∧ s.bridge.pool.live = []

def isMemory : Option Descriptor → Bool
  | some (.memory _ _) => true
  | _ => false

def isMapped : Option Descriptor → Bool
  | some (.memory _ mapped) => mapped
  | _ => false

def examined (list : ResourceList) : ResourceList := list.takeWhile Option.isSome

/-- No memory descriptor comes after one that was mapped. -/
def OneMapping (list : ResourceList) : Prop :=
  (examined list).Pairwise fun earlier later => isMapped earlier = true → isMemory later = false

/-- A prepare that gets past the locks maps one memory window at most. -/
def KeepsMapping (s : State) : Action → Prop
  | .prepare list outcomes =>
    s.bridge.pci.enabled = false → outcomes.lock = true → outcomes.fastlock = true →
      OneMapping list
  | .release => True

structure Tracked (lost : List Mapping) (bridge : Bridge) : Prop where
  mappings : bridge.mappings.Holds (lost ++ bridge.pci.regs.toList)
  length : ∀ mapping, bridge.pci.regs = some mapping → mapping.2.length = bridge.pci.regsLength
  pool : bridge.pool.Holds bridge.pci.blocks

structure Idle (bridge : Bridge) : Prop where
  regs : bridge.pci.regs = none
  blocks : bridge.pci.blocks = []

structure SameQueue (before after : Bridge) : Prop where
  blocks : after.pci.blocks = before.pci.blocks
  pool : after.pool = before.pool
  enabled : after.pci.enabled = before.pci.enabled
  calls : after.calls = before.calls

structure Known (lost : List Mapping) (s : State) : Prop where
  tracked : Tracked lost s.bridge
  idle : s.bridge.pci.enabled = false → Idle s.bridge
  settled : s.returned.Settles → s.bridge.pci.enabled = false

section Ledger

variable {bridge : Bridge} {lost : List Mapping} {list : ResourceList} {outcomes : Outcomes}

theorem tracked_initial : Tracked [] .initial :=
  ⟨Store.holds_empty, nofun, Store.holds_empty⟩

theorem parse_sameQueue (bridge : Bridge) (descriptor : Option Descriptor) :
    SameQueue bridge (vbusPciParseResource bridge descriptor).2 := by
  rcases descriptor with _ | window | ⟨window, mapped⟩ | _ | _ <;> exact ⟨rfl, rfl, rfl, rfl⟩

theorem parse_success (bridge : Bridge) (descriptor : Option Descriptor) :
    (vbusPciParseResource bridge descriptor).1 = .success ↔ descriptor.isSome = true := by
  rcases descriptor with _ | window | ⟨window, mapped⟩ | _ | _ <;> simp [vbusPciParseResource]

theorem mapLoop_cons_some (rc : HardwareStatus) (bridge : Bridge) (descriptor : Descriptor)
    (rest : ResourceList) :
    mapLoop rc bridge (some descriptor :: rest) =
      mapLoop .success (vbusPciParseResource bridge (some descriptor)).2 rest := by
  have success := (parse_success bridge (some descriptor)).mpr rfl
  rw [mapLoop, if_pos success, success]

theorem mapLoop_sameQueue (rc : HardwareStatus) (bridge : Bridge) (list : ResourceList) :
    SameQueue bridge (mapLoop rc bridge list).2 := by
  induction list generalizing rc bridge with
  | nil => exact ⟨rfl, rfl, rfl, rfl⟩
  | cons descriptor rest ih =>
    rcases descriptor with _ | descriptor
    · exact ⟨rfl, rfl, rfl, rfl⟩
    · rw [mapLoop_cons_some]
      have parsed := parse_sameQueue bridge (some descriptor)
      have later := ih .success (vbusPciParseResource bridge (some descriptor)).2
      exact ⟨later.blocks.trans parsed.blocks, later.pool.trans parsed.pool,
        later.enabled.trans parsed.enabled, later.calls.trans parsed.calls⟩

theorem parse_memory_tracked (tracked : Tracked lost bridge) (window : Window) (mapped : Bool) :
    Tracked (bridge.pci.regs.toList ++ lost)
      (vbusPciParseResource bridge (some (.memory window mapped))).2 := by
  refine ⟨?_, ?_, tracked.pool⟩
  · have held := tracked.mappings.tryAlloc mapped window
    apply held.perm
    exact (List.perm_append_comm).trans (List.perm_append_comm.append_right _)
  · intro mapping recorded
    dsimp only [vbusPciParseResource, Store.tryAlloc] at recorded ⊢
    split at recorded
    · rw [← Option.some.inj recorded]
      rfl
    · cases recorded

theorem parse_memory_regs (bridge : Bridge) (window : Window) (mapped : Bool) :
    (vbusPciParseResource bridge (some (.memory window mapped))).2.pci.regs ≠ none ↔
      mapped = true := by
  cases mapped <;> simp [vbusPciParseResource, Store.tryAlloc]

theorem parse_other_tracked (tracked : Tracked lost bridge) {descriptor : Descriptor}
    (other : isMemory (some descriptor) = false) :
    Tracked lost (vbusPciParseResource bridge (some descriptor)).2 ∧
      (vbusPciParseResource bridge (some descriptor)).2.pci.regs = bridge.pci.regs := by
  cases descriptor with
  | memory window mapped => cases other
  | port window => exact ⟨⟨tracked.mappings, tracked.length, tracked.pool⟩, rfl⟩
  | interrupt => exact ⟨tracked, rfl⟩
  | other => exact ⟨tracked, rfl⟩

theorem examined_cons (descriptor : Descriptor) (rest : ResourceList) :
    examined (some descriptor :: rest) = some descriptor :: examined rest := by
  rw [examined, List.takeWhile_cons_of_pos rfl]
  rfl

theorem isMapped_memory {descriptor : Option Descriptor} (other : isMemory descriptor = false) :
    isMapped descriptor = false := by
  rcases descriptor with _ | window | ⟨window, mapped⟩ | _ | _
  · rfl
  · rfl
  · cases other
  · rfl
  · rfl

theorem mapLoop_tracked (list : ResourceList) (tracked : Tracked lost bridge)
    (rc : HardwareStatus) :
    ∃ more, Tracked (more ++ lost) (mapLoop rc bridge list).2 ∧
      (more = [] ↔ (bridge.pci.regs ≠ none → ∀ later ∈ examined list, isMemory later = false) ∧
        OneMapping list) := by
  induction list generalizing rc bridge lost with
  | nil =>
    refine ⟨[], tracked, ?_⟩
    simp [examined, OneMapping]
  | cons descriptor rest ih =>
    rcases descriptor with _ | descriptor
    · refine ⟨[], tracked, ?_⟩
      simp [examined, OneMapping]
    rw [mapLoop_cons_some, OneMapping, examined_cons, List.pairwise_cons]
    cases memory : isMemory (some descriptor) with
    | false =>
      rcases parse_other_tracked tracked memory with ⟨parsed, same⟩
      obtain ⟨more, after, kept⟩ := ih parsed .success
      refine ⟨more, after, ?_⟩
      rw [kept, same]
      constructor
      · rintro ⟨early, single⟩
        refine ⟨?_, ?_, single⟩
        · intro held later among
          rcases List.mem_cons.mp among with rfl | among
          · exact memory
          · exact early held later among
        · intro later _ mapped
          rw [isMapped_memory memory] at mapped
          cases mapped
      · rintro ⟨early, _, single⟩
        exact ⟨fun held later among => early held later (List.mem_cons_of_mem _ among), single⟩
    | true =>
      cases descriptor with
      | memory window mapped =>
        have regs := parse_memory_regs bridge window mapped
        obtain ⟨more, after, kept⟩ := ih (parse_memory_tracked tracked window mapped) .success
        refine ⟨more ++ bridge.pci.regs.toList, ?_, ?_⟩
        · rw [List.append_assoc]
          exact after
        rw [List.append_eq_nil_iff, kept, regs]
        constructor
        · rintro ⟨⟨first, single⟩, unheld⟩
          refine ⟨?_, fun later among mapped => first mapped later among, single⟩
          intro held
          exact absurd (Option.toList_eq_nil_iff.mp unheld) held
        · rintro ⟨early, first, single⟩
          refine ⟨⟨fun mapped later among => first later among mapped, single⟩, ?_⟩
          rw [Option.toList_eq_nil_iff]
          by_contra held
          exact absurd (early held _ List.mem_cons_self) nofun
      | port window => cases memory
      | interrupt => cases memory
      | other => cases memory

theorem cleanup_tracked (tracked : Tracked lost bridge) :
    Tracked lost (vbusPciCleanup bridge) ∧ Idle (vbusPciCleanup bridge) := by
  refine ⟨⟨?_, nofun, ?_⟩, rfl, rfl⟩
  · have recorded : (bridge.pci.regs.map fun mapping =>
        (mapping.1, ({ start := mapping.2.start, length := bridge.pci.regsLength } : Window))) =
        bridge.pci.regs := by
      cases regs : bridge.pci.regs with
      | none => rfl
      | some mapping => rw [Option.map_some, ← tracked.length mapping regs]
    have held := tracked.mappings.perm List.perm_append_comm
    rw [vbusPciCleanup, mmUnmapIoSpace, recorded]
    apply held.freeOption.perm
    rw [VbusPci.zeroed, Option.toList_none, List.append_nil]
  · have held := tracked.pool
    rw [VbusPci.blocks, ← List.append_nil bridge.pci.ring.toList] at held
    exact held.freeOption.freeOption.freeOption

theorem Tracked.advance {mapping : Mapping} {after : Bridge} (tracked : Tracked lost bridge)
    (advances : Advances mapping bridge after) : Tracked lost after := by
  rcases advances with ⟨windows, pool, _⟩
  refine ⟨?_, ?_, pool⟩
  · rw [windows.mappings, windows.regs]
    exact tracked.mappings
  · rw [windows.regs, windows.regsLength]
    exact tracked.length

theorem cleanup_known (tracked : Tracked lost bridge) (returned : Returned) :
    Known lost ⟨vbusPciCleanup bridge, returned⟩ :=
  ⟨(cleanup_tracked tracked).1, fun _ => (cleanup_tracked tracked).2, fun _ => rfl⟩

theorem bringUp_known (tracked : Tracked lost bridge) (clear : bridge.pci.blocks = [])
    (outcomes : Outcomes) :
    Known lost (.ofPrepare ((bringUp bridge outcomes).map conclude)) := by
  cases regs : bridge.pci.regs with
  | none =>
    rw [bringUp_unmapped regs]
    exact ⟨⟨tracked.mappings, tracked.length, tracked.pool⟩, fun _ => ⟨regs, clear⟩, nofun⟩
  | some mapping =>
    obtain ⟨outcome, ran, advances, _, status⟩ := bringUp_mapped regs tracked.pool clear outcomes
    have after := tracked.advance advances
    rw [ran]
    by_cases success : outcome.1 = .success
    · rw [Except.map, conclude_success success]
      refine ⟨⟨after.mappings, after.length, after.pool⟩, nofun, ?_⟩
      intro settles
      exact absurd rfl settles.1
    · rw [Except.map, conclude_failure success]
      exact cleanup_known after _

theorem prepare_known {s : State} (known : Known lost s) (list : ResourceList)
    (outcomes : Outcomes) :
    ∃ more, Known (more ++ lost) (.ofPrepare (vbusPciPrepareHardware s.bridge list outcomes)) ∧
      (more = [] ↔ KeepsMapping s (.prepare list outcomes)) := by
  have entered : Tracked lost { s.bridge with calls := [] } :=
    ⟨known.tracked.mappings, known.tracked.length, known.tracked.pool⟩
  have unchanged (status : HardwareStatus) (early : ¬ status.PastLocks) :
      Known lost (.ofPrepare (.ok (status, { s.bridge with calls := [] }))) := by
    refine ⟨entered, ?_, fun settles => absurd settles early⟩
    intro disabled
    rcases known.idle disabled with ⟨regs, blocks⟩
    exact ⟨regs, blocks⟩
  unfold vbusPciPrepareHardware
  dsimp only
  split
  · rename_i enabled
    refine ⟨[], unchanged _ (fun past => past.2.1 rfl), fun _ disabled => ?_, fun _ => rfl⟩
    rw [enabled] at disabled
    cases disabled
  rename_i disabled
  rw [Bool.not_eq_true] at disabled
  split
  · rename_i noLock
    refine ⟨[], unchanged _ (fun past => past.2.2 rfl), fun _ _ lock => ?_, fun _ => rfl⟩
    rw [noLock] at lock
    cases lock
  split
  · rename_i noFastlock
    refine ⟨[], unchanged _ (fun past => past.2.2 rfl), fun _ _ _ fastlock => ?_, fun _ => rfl⟩
    rw [noFastlock] at fastlock
    cases fastlock
  rename_i lock fastlock
  rw [Bool.not_eq_false] at lock fastlock
  rcases known.idle disabled with ⟨unheld, clear⟩
  obtain ⟨more, after, kept⟩ := mapLoop_tracked list entered .configurationError
  have same := mapLoop_sameQueue .configurationError { s.bridge with calls := [] } list
  refine ⟨more, ?_, ?_⟩
  · split
    · exact cleanup_known after _
    · exact bringUp_known after (same.blocks.trans clear) outcomes
  · rw [kept]
    constructor
    · intro single _ _ _
      exact single.2
    · intro single
      exact ⟨fun held => absurd unheld held, single disabled lock fastlock⟩

theorem step_known {s next : State} {action : Action} (known : Known lost s)
    (stepped : machine.step s action = some next) :
    ∃ more, Known (more ++ lost) next ∧ (more = [] ↔ KeepsMapping s action) := by
  simp only [machine, step] at stepped
  split at stepped
  · cases stepped
  · cases action with
    | prepare list outcomes =>
      rw [← Option.some.inj stepped]
      exact prepare_known known list outcomes
    | release =>
      rw [← Option.some.inj stepped]
      exact ⟨[], cleanup_known known.tracked _, fun _ => True.intro, fun _ => rfl⟩

theorem known_initial : Known [] machine.start :=
  ⟨tracked_initial, fun _ => ⟨rfl, rfl⟩, nofun⟩

theorem reachable_known {s : State} (reached : machine.Reachable s) : ∃ lost, Known lost s := by
  apply Machine.Reachable.invariant reached ⟨[], known_initial⟩
  intro s action next known stepped
  obtain ⟨lost, known⟩ := known
  obtain ⟨more, after, _⟩ := step_known known stepped
  exact ⟨more ++ lost, after⟩

theorem Known.accounted_iff {s : State} (known : Known lost s) : Accounted s ↔ lost = [] := by
  constructor
  · intro accounted
    have lengths := (known.tracked.mappings.live.symm.trans accounted.mappings).length_eq
    rw [List.length_append] at lengths
    exact List.length_eq_zero_iff.mp (by omega)
  · intro none
    have mappings := known.tracked.mappings
    rw [none, List.nil_append] at mappings
    refine ⟨mappings.live, known.tracked.pool.live, mappings.proper, known.tracked.pool.proper, ?_⟩
    intro settles
    rcases known.idle (known.settled settles) with ⟨regs, blocks⟩
    have pool := known.tracked.pool
    rw [regs] at mappings
    rw [blocks] at pool
    exact ⟨mappings.live_eq_nil.mpr rfl, pool.live_eq_nil.mpr rfl⟩

/-- The hardware resources stay accounted for in exactly the runs whose prepares find no memory
    descriptor after one they mapped. -/
theorem hardware_accounted_iff (actions : List Action) :
    machine.Throughout Accounted machine.start actions ↔
      machine.Meets (machine.OnSteps KeepsMapping) machine.start actions := by
  apply Machine.throughout_iff_guarded (Known []) _ _ _ known_initial actions
  · intro s known
    exact known.accounted_iff.mpr rfl
  · intro s action next known keeps stepped
    obtain ⟨more, after, kept⟩ := step_known known stepped
    rw [kept.mpr keeps] at after
    exact after
  · intro s action next known stepped accounted
    obtain ⟨more, after, kept⟩ := step_known known stepped
    rw [List.append_nil] at after
    exact kept.mp (after.accounted_iff.mp accounted)

def twoWindows : ResourceList :=
  [some (.memory ⟨0xF0000000#64, 64#32⟩ true), some (.memory ⟨0xF0001000#64, 64#32⟩ true),
    some (.port ⟨0xC000#64, 32#32⟩)]

def goodOutcomes : Outcomes where
  lock := true
  fastlock := true
  negotiate := 0#32
  fastcall := 0#32
  head := true
  signal := true
  ring := true
  pushed := true
  register := 0#32

theorem second_window_leaks :
    ∃ final, machine.run machine.start [.prepare twoWindows goodOutcomes, .release] = some final ∧
      final.returned.Settles ∧ final.bridge.mappings.live = [(0, ⟨0xF0000000#64, 64#32⟩)] ∧
      ¬ Accounted final := by
  refine ⟨_, rfl, True.intro, rfl, ?_⟩
  intro accounted
  have empty := (accounted.settled True.intro).1
  cases empty

end Ledger

end Vbus.Hardware
