import AlacrityDrivers.Library.Transition
import AlacrityDrivers.Vbus.ShmSignal

namespace Vbus.SignalInterrupt

open Transition

/-- Whether `_signal_isr` accepted an interrupt while the signal was dirty or pending, and since then
    the notifier was not called, or `_signal_enable` was not. -/
structure Watch where
  unnotified : Bool
  unenabled : Bool
deriving DecidableEq, Repr

structure Dpc where
  watch : Watch
  woken : Bool
deriving DecidableEq, Repr

/-- The irq of a device signal's own locality, the host's place in its `ShmSignalInject`, and the
    DPCs queued and running. `last` is what the last callback of the framework set, `masked` whether
    the ISR has disabled the signal since, and `missed` whether a DPC ended without the call of the
    notifier that its interrupt asked for. -/
structure State where
  irq : ShmSignalIrq
  host : Option InjectPc
  queued : Option Watch
  running : List Dpc
  last : Option Bool
  masked : Bool
  missed : Bool
deriving DecidableEq, Repr

inductive Action where
  | inject
  | hostStep
  | isr
  | enable
  | disable
  | dpcStart
  | dpcWakeup (i : Nat)
  | dpcEnd (i : Nat)

def Dpc.watching (f : Watch → Watch) (dpc : Dpc) : Dpc := { dpc with watch := f dpc.watch }

def State.watching (s : State) (f : Watch → Watch) : State :=
  { s with
    queued := s.queued.map f
    running := s.running.map (Dpc.watching f) }

def Watch.notified (watch : Watch) : Watch := { watch with unnotified := false }

def Watch.enabled (watch : Watch) : Watch := { watch with unenabled := false }

def State.calling (s : State) (result : ShmSignalIrq × Bool) : State :=
  let s := { s with irq := result.1 }
  if result.2 then s.watching Watch.notified else s

/-- `WdfInterruptQueueDpcForIsr`; a DPC that is queued already serves both interrupts. -/
def State.queueDpc (s : State) : State :=
  let asks := s.irq.dirty || s.irq.pending
  let watch := s.queued.getD ⟨false, false⟩
  { s with queued := some ⟨watch.unnotified || asks, watch.unenabled || asks⟩ }

def signalIsr (s : State) : State :=
  if !s.irq.enabled then s
  else { s.calling (shmSignalDisable s.irq) with masked := true }.queueDpc

def signalEnable (s : State) : State :=
  { (s.calling (shmSignalEnable s.irq)).watching Watch.enabled with
    last := some true
    masked := false }

def signalDisable (s : State) : State :=
  { s.calling (shmSignalDisable s.irq) with
    last := some false
    masked := false }

def step (s : State) : Action → Option State
  | .inject => if s.host = none then some { s with host := some .markDirty } else none
  | .hostStep => s.host.map fun pc =>
    { s with
      irq := (injectStep s.irq pc).1
      host := (injectStep s.irq pc).2 }
  | .isr => some (signalIsr s)
  | .enable => some (signalEnable s)
  | .disable => some (signalDisable s)
  | .dpcStart => s.queued.map fun watch =>
    { s with
      queued := none
      running := s.running ++ [⟨watch, false⟩] }
  | .dpcWakeup i =>
    match s.running[i]? with
    | some ⟨watch, false⟩ =>
      some ({ s with running := s.running.set i ⟨watch, true⟩ }.calling (shmSignalWakeup s.irq))
    | _ => none
  | .dpcEnd i =>
    match s.running[i]? with
    | some ⟨watch, true⟩ =>
      some { s with
        running := s.running.eraseIdx i
        missed := s.missed || watch.unnotified }
    | _ => none

/-- A signal as its memory happens to be when `VbusProxyDeviceShm` creates it. -/
def machine (irq : ShmSignalIrq) : Machine State Action where
  start := ⟨irq, none, none, [], none, false, false⟩
  step := step

def Idle (s : State) : Prop := s.queued = none ∧ s.running = []

/-- While no DPC is queued or running the signal is as the framework has set it, and no DPC has ended
    without the notification it was for. -/
structure Working (s : State) : Prop where
  enabled : Idle s → ∀ value, s.last = some value → s.irq.enabled = value
  notified : s.missed = false

/-- A DPC ends after a `_signal_enable` that came after each of its interrupts with something to
    deliver; and if no other DPC is left, a callback has come after the ISR's last disabling, unless
    there was none before. -/
def reenabled (s : State) : Action → Bool
  | .dpcEnd i =>
    match s.running[i]? with
    | some dpc => !dpc.watch.unenabled &&
        !(s.queued.isNone && (s.running.eraseIdx i).isEmpty && s.masked && s.last == some true)
    | none => true
  | _ => true

def State.watches (s : State) : List Watch := s.queued.toList ++ s.running.map Dpc.watch

structure Known (s : State) : Prop where
  working : Working s
  set : ∀ value, s.last = some value → s.irq.enabled = (value && !s.masked)
  same : ∀ watch ∈ s.watches, watch.unnotified = watch.unenabled
  pending : ∀ watch ∈ s.watches, watch.unnotified = true → (s.irq.dirty || s.irq.pending) = true
  answered : s.irq.enabled = true → ∀ watch ∈ s.watches, watch.unnotified = false

section Watches

variable {s : State} {watch : Watch} {irq : ShmSignalIrq}

theorem mem_watches :
    watch ∈ s.watches ↔ s.queued = some watch ∨ ∃ dpc ∈ s.running, dpc.watch = watch := by
  rw [State.watches, List.mem_append, Option.mem_toList, List.mem_map]

theorem watching_watches (s : State) (f : Watch → Watch) :
    (s.watching f).watches = s.watches.map f := by
  simp only [State.watches, State.watching, List.map_append, List.map_map]
  congr 1
  cases s.queued with
  | none => rfl
  | some watch => rfl

theorem calling_watches (s : State) (result : ShmSignalIrq × Bool) :
    (s.calling result).watches = if result.2 then s.watches.map Watch.notified else s.watches := by
  unfold State.calling
  dsimp only
  split
  · exact watching_watches _ _
  · rfl

theorem calling_irq (s : State) (result : ShmSignalIrq × Bool) : (s.calling result).irq = result.1 := by
  unfold State.calling
  dsimp only
  split
  · rfl
  · rfl

theorem calling_record (s : State) (result : ShmSignalIrq × Bool) :
    (s.calling result).last = s.last ∧ (s.calling result).masked = s.masked ∧
      (s.calling result).missed = s.missed := by
  unfold State.calling
  dsimp only
  split
  · exact ⟨rfl, rfl, rfl⟩
  · exact ⟨rfl, rfl, rfl⟩

theorem calling_idle (s : State) (result : ShmSignalIrq × Bool) :
    Idle (s.calling result) ↔ Idle s := by
  unfold State.calling
  dsimp only
  split
  · simp [Idle, State.watching]
  · exact Iff.rfl

theorem wakeup_cases (irq : ShmSignalIrq) :
    (irq.enabled = true ∧ (irq.dirty || irq.pending) = true ∧
        shmSignalWakeup irq = ({ irq with dirty := false }, true)) ∨
      (¬ (irq.enabled = true ∧ (irq.dirty || irq.pending) = true) ∧
        shmSignalWakeup irq = (irq, false)) := by
  unfold shmSignalWakeup
  split
  · rename_i both
    rw [Bool.and_eq_true] at both
    exact Or.inl ⟨both.1, both.2, rfl⟩
  · rename_i notBoth
    rw [Bool.and_eq_true] at notBoth
    exact Or.inr ⟨notBoth, rfl⟩

theorem Known.notified_eq (known : Known s) (enabled : s.irq.enabled = true) :
    s.watches.map Watch.notified = s.watches := by
  have same : ∀ watch ∈ s.watches, watch.notified = id watch := by
    intro watch among
    rw [Watch.notified, ← known.answered enabled watch among]
    rfl
  rw [List.map_congr_left same, List.map_id]

end Watches

section Step

variable {s next : State} {i : Nat}

theorem known_start (irq : ShmSignalIrq) : Known (machine irq).start := by
  have none : ∀ watch, watch ∉ (machine irq).start.watches := by
    intro watch
    simp [machine, State.watches]
  refine ⟨⟨?_, rfl⟩, ?_, ?_, ?_, ?_⟩
  · intro _ value impossible
    cases impossible
  · intro value impossible
    cases impossible
  · intro watch among
    exact absurd among (none watch)
  · intro watch among
    exact absurd among (none watch)
  · intro _ watch among
    exact absurd among (none watch)

theorem injectStep_keeps (irq : ShmSignalIrq) (pc : InjectPc) :
    (injectStep irq pc).1.enabled = irq.enabled ∧
      ((irq.dirty || irq.pending) = true →
        ((injectStep irq pc).1.dirty || (injectStep irq pc).1.pending) = true) := by
  cases pc with
  | markDirty => simp [injectStep]
  | setPending => simp [injectStep]
  | _ => exact ⟨rfl, id⟩

theorem Known.hostStep (known : Known s) (pc : InjectPc) :
    Known { s with
      irq := (injectStep s.irq pc).1
      host := (injectStep s.irq pc).2 } := by
  rcases injectStep_keeps s.irq pc with ⟨enabled, asked⟩
  refine ⟨⟨?_, known.working.notified⟩, ?_, known.same, ?_, ?_⟩
  · intro idle value last
    exact enabled.trans (known.working.enabled idle value last)
  · intro value last
    exact enabled.trans (known.set value last)
  · intro watch among unnotified
    exact asked (known.pending watch among unnotified)
  · intro set
    exact known.answered (enabled.symm.trans set)

theorem Known.isr (known : Known s) : Known (signalIsr s) := by
  unfold signalIsr
  split
  · exact known
  · have queued : ∀ watch, s.queued = some watch → watch ∈ s.watches := fun watch present =>
      mem_watches.mpr (Or.inl present)
    have default :
        (s.queued.getD ⟨false, false⟩).unnotified = (s.queued.getD ⟨false, false⟩).unenabled ∧
        ((s.queued.getD ⟨false, false⟩).unnotified = true →
          (s.irq.dirty || s.irq.pending) = true) := by
      cases present : s.queued with
      | none => exact ⟨rfl, fun impossible => absurd impossible Bool.false_ne_true⟩
      | some watch =>
        exact ⟨known.same watch (queued watch present), known.pending watch (queued watch present)⟩
    refine ⟨⟨?_, known.working.notified⟩, ?_, ?_, ?_, ?_⟩
    · intro idle
      cases idle.1
    · intro value last
      exact (Bool.and_false value).symm
    · intro watch among
      rcases mem_watches.mp among with new | ⟨dpc, running, rfl⟩
      · cases new
        exact congrArg (fun before => before || (s.irq.dirty || s.irq.pending)) default.1
      · exact known.same _ (mem_watches.mpr (Or.inr ⟨dpc, running, rfl⟩))
    · intro watch among unnotified
      rcases mem_watches.mp among with new | ⟨dpc, running, rfl⟩
      · cases new
        rcases Bool.or_eq_true_iff.mp unnotified with before | asks
        · exact default.2 before
        · exact asks
      · exact known.pending _ (mem_watches.mpr (Or.inr ⟨dpc, running, rfl⟩)) unnotified
    · intro impossible
      cases impossible

theorem Known.enable (known : Known s) : Known (signalEnable s) := by
  have watches : (signalEnable s).watches =
      (s.calling (shmSignalEnable s.irq)).watches.map Watch.enabled := watching_watches _ _
  have irq : (signalEnable s).irq = (shmSignalEnable s.irq).1 := calling_irq _ _
  have idle : Idle (signalEnable s) ↔ Idle s := by
    rw [← calling_idle s (shmSignalEnable s.irq)]
    simp [Idle, signalEnable, State.watching]
  have answered : (signalEnable s).irq.enabled = true ∧
      ∀ watch ∈ (signalEnable s).watches, watch.unnotified = false ∧ watch.unenabled = false := by
    rw [irq, watches, calling_watches]
    rcases wakeup_cases { s.irq with enabled := true } with ⟨_, _, called⟩ | ⟨nothing, called⟩
    · rw [shmSignalEnable, called]
      refine ⟨rfl, ?_⟩
      intro watch among
      simp only [if_true, List.map_map, List.mem_map] at among
      rcases among with ⟨before, _, rfl⟩
      exact ⟨rfl, rfl⟩
    · rw [shmSignalEnable, called]
      refine ⟨rfl, ?_⟩
      intro watch among
      simp only [Bool.false_eq_true, if_false, List.mem_map] at among
      rcases among with ⟨before, among, rfl⟩
      refine ⟨?_, rfl⟩
      rw [← Bool.not_eq_true]
      intro unnotified
      exact nothing ⟨rfl, known.pending before among unnotified⟩
  refine ⟨⟨?_, ?_⟩, ?_, ?_, ?_, ?_⟩
  · intro _ value last
    rw [answered.1, ← Option.some.inj last]
  · exact (calling_record s (shmSignalEnable s.irq)).2.2.trans known.working.notified
  · intro value last
    rw [answered.1, ← Option.some.inj last]
    rfl
  · intro watch among
    rw [(answered.2 watch among).1, (answered.2 watch among).2]
  · intro watch among unnotified
    rw [(answered.2 watch among).1] at unnotified
    cases unnotified
  · intro _ watch among
    exact (answered.2 watch among).1

theorem Known.disable (known : Known s) : Known (signalDisable s) := by
  refine ⟨⟨?_, known.working.notified⟩, ?_, known.same, known.pending, ?_⟩
  · intro _ value last
    exact Option.some.inj last
  · intro value last
    rw [← Option.some.inj last]
    rfl
  · intro impossible
    cases impossible

theorem Known.wakeup (known : Known s) : Known (s.calling (shmSignalWakeup s.irq)) := by
  rcases wakeup_cases s.irq with ⟨enabled, _, called⟩ | ⟨_, called⟩
  · have watches : (s.calling (shmSignalWakeup s.irq)).watches = s.watches := by
      rw [calling_watches, called, if_pos rfl, known.notified_eq enabled]
    have irq : (s.calling (shmSignalWakeup s.irq)).irq = { s.irq with dirty := false } := by
      rw [calling_irq, called]
    rcases calling_record s (shmSignalWakeup s.irq) with ⟨last, masked, missed⟩
    refine ⟨⟨?_, missed.trans known.working.notified⟩, ?_, ?_, ?_, ?_⟩
    · intro idle value set
      rw [irq]
      exact known.working.enabled ((calling_idle s _).mp idle) value (last ▸ set)
    · intro value set
      rw [irq, masked]
      exact known.set value (last ▸ set)
    · rw [watches]
      exact known.same
    · rw [watches]
      intro watch among unnotified
      rw [known.answered enabled watch among] at unnotified
      cases unnotified
    · rw [watches]
      intro _
      exact known.answered enabled
  · rw [called]
    exact known

theorem mem_set_watch {dpcs : List Dpc} {i : Nat} {watch : Watch} {before after : Bool} {dpc : Dpc}
    (present : dpcs[i]? = some ⟨watch, before⟩) (among : dpc ∈ dpcs.set i ⟨watch, after⟩) :
    ∃ other ∈ dpcs, other.watch = dpc.watch := by
  rcases List.mem_or_eq_of_mem_set among with kept | new
  · exact ⟨dpc, kept, rfl⟩
  · rw [new]
    exact ⟨_, List.mem_of_getElem? present, rfl⟩

theorem mem_eraseIdx_watch {s : State} {watch : Watch} (i : Nat) (value : Bool)
    (among : watch ∈ { s with running := s.running.eraseIdx i, missed := value }.watches) :
    watch ∈ s.watches := by
  rcases mem_watches.mp among with queued | ⟨dpc, running, same⟩
  · exact mem_watches.mpr (Or.inl queued)
  · exact mem_watches.mpr (Or.inr ⟨dpc, List.mem_of_mem_eraseIdx running, same⟩)

theorem Known.fewer (known : Known s) {next : State} (working : Working next)
    (irq : next.irq = s.irq) (last : next.last = s.last) (masked : next.masked = s.masked)
    (kept : ∀ other, other ∈ next.watches → other ∈ s.watches) : Known next where
  working := working
  set := by
    rw [irq, last, masked]
    exact known.set
  same := fun other among => known.same other (kept other among)
  pending := by
    rw [irq]
    exact fun other among => known.pending other (kept other among)
  answered := by
    rw [irq]
    exact fun enabled other among => known.answered enabled other (kept other among)

theorem Known.dpcStart (known : Known s) {watch : Watch} (queued : s.queued = some watch) :
    Known { s with
      queued := none
      running := s.running ++ [⟨watch, false⟩] } := by
  have kept : ∀ other,
      other ∈ (none : Option Watch).toList ++ (s.running ++ [(⟨watch, false⟩ : Dpc)]).map Dpc.watch →
        other ∈ s.watches := by
    intro other among
    rcases List.mem_map.mp among with ⟨dpc, running, same⟩
    rcases List.mem_append.mp running with earlier | new
    · exact mem_watches.mpr (Or.inr ⟨dpc, earlier, same⟩)
    · rw [List.mem_singleton.mp new] at same
      exact mem_watches.mpr (Or.inl (by rw [← same, queued]))
  refine known.fewer ⟨?_, known.working.notified⟩ rfl rfl rfl kept
  intro idle
  have nobody := idle.2
  simp at nobody

theorem Known.dpcSet (known : Known s) {watch : Watch} (present : s.running[i]? = some ⟨watch, false⟩) :
    Known { s with running := s.running.set i ⟨watch, true⟩ } := by
  have kept : ∀ other, other ∈ { s with running := s.running.set i ⟨watch, true⟩ }.watches →
      other ∈ s.watches := by
    intro other among
    rcases mem_watches.mp among with queued | ⟨dpc, running, same⟩
    · exact mem_watches.mpr (Or.inl queued)
    · rcases mem_set_watch present running with ⟨before, earlier, watching⟩
      exact mem_watches.mpr (Or.inr ⟨before, earlier, watching.trans same⟩)
  refine known.fewer ⟨?_, known.working.notified⟩ rfl rfl rfl kept
  intro idle
  have nobody : s.running = [] := by simpa using idle.2
  rw [nobody] at present
  cases present

theorem Known.dpcEnd (known : Known s) {watch : Watch} (present : s.running[i]? = some ⟨watch, true⟩)
    (guarded : reenabled s (.dpcEnd i) = true) :
    Known { s with
      running := s.running.eraseIdx i
      missed := s.missed || watch.unnotified } := by
  have among : watch ∈ s.watches :=
    mem_watches.mpr (Or.inr ⟨_, List.mem_of_getElem? present, rfl⟩)
  simp only [reenabled, present, Bool.and_eq_true, Bool.not_eq_true'] at guarded
  have kept (other : Watch) := @mem_eraseIdx_watch s other i (s.missed || watch.unnotified)
  refine known.fewer ⟨?_, ?_⟩ rfl rfl rfl kept
  · intro idle value last
    have value_set := known.set value last
    change s.irq.enabled = value
    rw [value_set]
    cases value with
    | false => rfl
    | true =>
      have left := guarded.2
      have nobody : s.queued = none ∧ s.running.eraseIdx i = [] := idle
      have marked : s.last = some true := last
      rw [nobody.1, nobody.2, marked] at left
      simpa using left
  · change (s.missed || watch.unnotified) = false
    rw [known.working.notified, known.same watch among, guarded.1]
    rfl

theorem known_preserved (s : State) (action : Action) (next : State) (known : Known s)
    (guarded : reenabled s action = true) (stepped : step s action = some next) : Known next := by
  cases action with
  | inject =>
    simp only [step, Option.ite_none_right_eq_some, Option.some.injEq] at stepped
    rw [← stepped.2]
    exact ⟨⟨known.working.enabled, known.working.notified⟩, known.set, known.same, known.pending,
      known.answered⟩
  | hostStep =>
    simp only [step, Option.map_eq_some_iff] at stepped
    rcases stepped with ⟨pc, _, rfl⟩
    exact known.hostStep pc
  | isr =>
    rw [← Option.some.inj stepped]
    exact known.isr
  | enable =>
    rw [← Option.some.inj stepped]
    exact known.enable
  | disable =>
    rw [← Option.some.inj stepped]
    exact known.disable
  | dpcStart =>
    simp only [step, Option.map_eq_some_iff] at stepped
    rcases stepped with ⟨watch, queued, rfl⟩
    exact known.dpcStart queued
  | dpcWakeup i =>
    simp only [step] at stepped
    split at stepped
    · rename_i watch present
      rw [← Option.some.inj stepped]
      exact (known.dpcSet present).wakeup
    · cases stepped
  | dpcEnd i =>
    simp only [step] at stepped
    split at stepped
    · rename_i watch present
      rw [← Option.some.inj stepped]
      exact known.dpcEnd present guarded
    · cases stepped

theorem known_forced (s : State) (action : Action) (next : State) (known : Known s)
    (stepped : step s action = some next) (working : Working next) : reenabled s action = true := by
  cases action with
  | dpcEnd i =>
    simp only [step] at stepped
    split at stepped
    · rename_i watch present
      rw [← Option.some.inj stepped] at working
      have among : watch ∈ s.watches :=
        mem_watches.mpr (Or.inr ⟨_, List.mem_of_getElem? present, rfl⟩)
      have notified := working.notified
      simp only [Bool.or_eq_false_iff] at notified
      have enabledSince : watch.unenabled = false := (known.same watch among).symm.trans notified.2
      simp only [reenabled, present, enabledSince, Bool.not_false, Bool.true_and, Bool.not_eq_true']
      rw [← Bool.not_eq_true]
      intro left
      simp only [Bool.and_eq_true, Option.isNone_iff_eq_none, List.isEmpty_iff, beq_iff_eq] at left
      rcases left with ⟨⟨⟨queued, running⟩, masked⟩, last⟩
      have enabled := working.enabled ⟨queued, running⟩ true last
      have value := known.set true last
      rw [masked] at value
      exact absurd (enabled.symm.trans value) (by decide)
    · cases stepped
  | _ => rfl

end Step

/-- `_signal_dpc` does not enable what `_signal_isr` has disabled, so that its wakeup does nothing: the
    signal keeps working in exactly the runs in which the framework enables it again before the DPC
    ends. -/
theorem signal_keeps_working (irq : ShmSignalIrq) (actions : List Action) :
    (machine irq).Throughout Working (machine irq).start actions ↔
      (machine irq).Meets ((machine irq).OnSteps fun s action => reenabled s action = true)
        (machine irq).start actions := by
  apply Machine.throughout_iff_guarded Known _ known_preserved known_forced (known_start irq)
  intro s known
  exact known.working

def oneInterrupt : List Action :=
  [.enable, .inject, .hostStep, .hostStep, .hostStep, .hostStep, .hostStep, .isr, .dpcStart,
    .dpcWakeup 0, .dpcEnd 0]

theorem interrupt_stays_masked :
    let m := machine ⟨false, false, false⟩
    let final := (m.run m.start oneInterrupt).get (by decide)
    ¬ Working final ∧ final.last = some true ∧ final.irq = ⟨false, true, true⟩ ∧
      final.missed = true := by
  refine ⟨?_, by decide, by decide, by decide⟩
  intro working
  have notified := working.notified
  revert notified
  decide

end Vbus.SignalInterrupt
