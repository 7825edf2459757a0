import AlacrityDrivers.Vbus.EventDelivery

namespace Vbus.EventQueue

open Transition Circular

def Injecting (s : State) : Prop := ∃ pc, s.host = some pc ∧ pc ≠ .markDirty

def Watched (s : State) : Prop :=
  s.irq.enabled = true → s.irq.dirty = true → Injecting s ∨ s.Notified

def GuestPc.Drains (head : Nat) : GuestPc → Prop
  | .wakeup .notify _ => True
  | .seek _ => True
  | .test pos _ => pos = head
  | .dispatch pos _ => pos = head
  | .clear pos _ _ => pos = head
  | .pop pos _ _ => pos = head
  | _ => False

def Pursued (s : State) : Prop :=
  s.pops < s.posted → s.irq.dirty = true ∨ s.host = some .markDirty ∨
    ∃ thread pc, s.guest thread = some pc ∧ pc.Drains (s.head.idx .inuse).head

section Watched

variable {size : RingSize} {s next : State} {thread : Nat} {pc : GuestPc}

theorem After.attends (after : After) (pending : Bool) (enabling : after = .enable) :
    ∃ pc, after.pc = some pc ∧ pc.Attends pending := by
  rw [enabling]
  exact ⟨.enable .done, rfl, True.intro⟩

theorem notified_moves {new : Option GuestPc} (notified : s.Notified)
    (guest : next.guest = Function.update s.guest thread new) (flying : next.inFlight = s.inFlight)
    (queued : s.dpcQueued = true → next.dpcQueued = true)
    (pending : next.irq.pending = s.irq.pending)
    (stays : ∀ pc, s.guest thread = some pc → pc.Attends s.irq.pending →
      ∃ pc, new = some pc ∧ pc.Attends s.irq.pending) : next.Notified := by
  rcases notified with inFlight | dpc | ⟨other, pc, running, attends⟩
  · exact Or.inl (by omega)
  · exact Or.inr (Or.inl (queued dpc))
  · by_cases same : other = thread
    · subst same
      obtain ⟨after, place, attending⟩ := stays pc running attends
      refine Or.inr (Or.inr ⟨other, after, ?_, ?_⟩)
      · rw [guest, Function.update_self, place]
      · rw [pending]
        exact attending
    · refine Or.inr (Or.inr ⟨other, pc, ?_, ?_⟩)
      · rw [guest, Function.update_of_ne same]
        exact running
      · rw [pending]
        exact attends

theorem watched_moves (thread : Nat) (new : Option GuestPc) (watched : Watched s)
    (guest : next.guest = Function.update s.guest thread new) (host : next.host = s.host)
    (flying : next.inFlight = s.inFlight) (queued : s.dpcQueued = true → next.dpcQueued = true)
    (irq : next.irq = s.irq)
    (stays : ∀ pc, s.guest thread = some pc → pc.Attends s.irq.pending →
      ∃ pc, new = some pc ∧ pc.Attends s.irq.pending) : Watched next := by
  intro enabled dirty
  rw [irq] at enabled dirty
  rcases watched enabled dirty with injecting | notified
  · left
    rw [Injecting, host]
    exact injecting
  · right
    exact notified_moves notified guest flying queued (by rw [irq]) stays

theorem stays_of_running {new : GuestPc} (running : s.guest thread = some pc)
    (same : pc.Attends s.irq.pending → new.Attends s.irq.pending) :
    ∀ found, s.guest thread = some found → found.Attends s.irq.pending →
      ∃ pc, some new = some pc ∧ pc.Attends s.irq.pending := by
  intro found present attends
  rw [running, Option.some.injEq] at present
  rw [← present] at attends
  exact ⟨new, rfl, same attends⟩

theorem watched_attends (thread : Nat) (new : GuestPc) (running : next.guest thread = some new)
    (attends : new.Attends next.irq.pending) : Watched next := by
  intro _ _
  exact Or.inr (Or.inr (Or.inr ⟨thread, new, running, attends⟩))

theorem watched_disabled (disabled : next.irq.enabled = false) : Watched next := by
  intro enabled
  rw [disabled] at enabled
  cases enabled

theorem watched_clean (clean : next.irq.dirty = false) : Watched next := by
  intro _ dirty
  rw [clean] at dirty
  cases dirty

theorem wakeup_watched {pc : WakeupPc} {after : After} (watched : Watched s)
    (running : s.guest thread = some (.wakeup pc after)) :
    Watched (guestStep size s thread (.wakeup pc after)) := by
  cases pc with
  | testEnabled =>
    cases enabled : s.irq.enabled with
    | true =>
      apply watched_attends thread (.wakeup .testDirty after)
      · simp [guestStep, wakeupStep, enabled]
      · exact True.intro
    | false =>
      apply watched_disabled
      simp [guestStep, wakeupStep, enabled]
  | testDirty =>
    cases dirty : s.irq.dirty with
    | true =>
      apply watched_attends thread (.wakeup .clearDirty after)
      · simp [guestStep, wakeupStep, dirty]
      · exact True.intro
    | false =>
      apply watched_clean
      simp [guestStep, wakeupStep, dirty]
  | testPending =>
    cases pending : s.irq.pending with
    | true =>
      apply watched_attends thread (.wakeup .clearDirty after)
      · simp [guestStep, wakeupStep, pending]
      · exact True.intro
    | false =>
      have same : (s.setIrq .north s.irq).irq = s.irq := by simp
      apply watched_moves thread after.pc watched
      · simp [guestStep, wakeupStep, pending, State.goto, State.setIrq]
      · simp [guestStep, wakeupStep, State.goto, State.setIrq]
      · simp [guestStep, wakeupStep, State.goto, State.setIrq]
      · simp [guestStep, wakeupStep, State.goto, State.setIrq]
      · simp [guestStep, wakeupStep]
      · intro found present attends
        rw [running, Option.some.injEq] at present
        rw [← present, pending] at attends
        rcases attends with impossible | enabling
        · cases impossible
        · exact after.attends _ enabling
  | clearDirty =>
    apply watched_clean
    simp [guestStep, wakeupStep]
  | notify =>
    exact watched_moves _ _ watched rfl rfl rfl id rfl (stays_of_running running id)

theorem guest_watched (watched : Watched s) (running : s.guest thread = some pc) :
    Watched (guestStep size s thread pc) := by
  cases pc with
  | isrTest =>
    cases enabled : s.irq.enabled with
    | true =>
      apply watched_attends thread .isrDisable
      · simp [guestStep, enabled]
      · exact True.intro
    | false => exact watched_disabled enabled
  | isrDisable =>
    apply watched_disabled
    simp [guestStep, localStep]
  | isrQueue =>
    intro _ _
    exact Or.inr (Or.inr (Or.inl rfl))
  | enable after =>
    apply watched_attends thread (.wakeup .testEnabled after)
    · simp [guestStep]
    · exact True.intro
  | disable =>
    apply watched_disabled
    simp [guestStep, localStep]
  | wakeup pc after => exact wakeup_watched watched running
  | seek after => exact watched_moves _ _ watched rfl rfl rfl id rfl (stays_of_running running id)
  | test pos after =>
    refine watched_moves _ _ watched rfl rfl rfl id rfl (stays_of_running running ?_)
    intro attends
    split
    · exact attends
    · exact attends
  | dispatch pos after => exact watched_moves _ _ watched rfl rfl rfl id rfl (stays_of_running running id)
  | clear pos mark after =>
    exact watched_moves _ _ watched rfl rfl rfl id rfl (stays_of_running running id)
  | pop pos mark after =>
    have irq : (guestStep size s thread (.pop pos mark after)).irq = s.irq :=
      congrArg (fun signal => ShmSignalDesc.irq signal .north) (drain_signal size s.head pos)
    exact watched_moves _ _ watched rfl rfl rfl id irq (stays_of_running running id)
  | signal pc after =>
    have irq : (guestStep size s thread (.signal pc after)).irq = s.irq := setIrq_south _ _
    refine watched_moves _ _ watched rfl rfl rfl id irq ?_
    intro found present attends
    rw [running, Option.some.injEq] at present
    rw [← present] at attends
    split
    · exact ⟨_, rfl, attends⟩
    · exact after.attends _ attends

end Watched

section Pursued

variable {size : RingSize} {s next : State} {thread : Nat} {pc : GuestPc}

theorem pursued_drains (thread : Nat) (new : GuestPc) (running : next.guest thread = some new)
    (drains : new.Drains (next.head.idx .inuse).head) : Pursued next := by
  intro _
  exact Or.inr (Or.inr ⟨thread, new, running, drains⟩)

theorem pursued_moves (thread : Nat) (new : Option GuestPc) (pursued : Pursued s)
    (guest : next.guest = Function.update s.guest thread new) (host : next.host = s.host)
    (dirty : next.irq.dirty = s.irq.dirty) (pops : next.pops = s.pops)
    (posted : next.posted = s.posted) (idx : next.head.idx = s.head.idx)
    (stays : s.pops < s.posted → ∀ pc, s.guest thread = some pc →
      pc.Drains (s.head.idx .inuse).head →
        ∃ pc, new = some pc ∧ pc.Drains (s.head.idx .inuse).head) : Pursued next := by
  intro behind
  rw [pops, posted] at behind
  rw [dirty, host, idx]
  rcases pursued behind with marked | marking | ⟨other, pc, running, drains⟩
  · exact Or.inl marked
  · exact Or.inr (Or.inl marking)
  · refine Or.inr (Or.inr ?_)
    by_cases same : other = thread
    · subst same
      obtain ⟨after, place, draining⟩ := stays behind pc running drains
      refine ⟨other, after, ?_, draining⟩
      rw [guest, Function.update_self, place]
    · refine ⟨other, pc, ?_, drains⟩
      rw [guest, Function.update_of_ne same]
      exact running

theorem stays_outside {new : Option GuestPc} {head : Nat} (running : s.guest thread = some pc)
    (outside : ¬ pc.Drains head) :
    ∀ found, s.guest thread = some found → found.Drains head →
      ∃ pc, new = some pc ∧ pc.Drains head := by
  intro found present drains
  rw [running, Option.some.injEq] at present
  rw [← present] at drains
  exact absurd drains outside

theorem stays_draining {new : GuestPc} {head : Nat} (running : s.guest thread = some pc)
    (same : pc.Drains head → new.Drains head) :
    ∀ found, s.guest thread = some found → found.Drains head →
      ∃ pc, some new = some pc ∧ pc.Drains head := by
  intro found present drains
  rw [running, Option.some.injEq] at present
  rw [← present] at drains
  exact ⟨new, rfl, same drains⟩

theorem wakeup_pursued {pc : WakeupPc} {after : After} (pursued : Pursued s)
    (running : s.guest thread = some (.wakeup pc after)) :
    Pursued (guestStep size s thread (.wakeup pc after)) := by
  cases pc with
  | clearDirty =>
    apply pursued_drains thread (.wakeup .notify after)
    · simp [guestStep, wakeupStep]
    · exact True.intro
  | notify =>
    exact pursued_moves _ _ pursued rfl rfl rfl rfl rfl rfl
      (fun _ => stays_draining running (fun _ => True.intro))
  | testEnabled =>
    have dirty : (guestStep size s thread (.wakeup .testEnabled after)).irq.dirty = s.irq.dirty := by
      simp [guestStep, wakeupStep]
    exact pursued_moves _ _ pursued rfl rfl dirty rfl rfl rfl (fun _ => stays_outside running id)
  | testDirty =>
    have dirty : (guestStep size s thread (.wakeup .testDirty after)).irq.dirty = s.irq.dirty := by
      simp [guestStep, wakeupStep]
    exact pursued_moves _ _ pursued rfl rfl dirty rfl rfl rfl (fun _ => stays_outside running id)
  | testPending =>
    have dirty : (guestStep size s thread (.wakeup .testPending after)).irq.dirty = s.irq.dirty := by
      simp [guestStep, wakeupStep]
    exact pursued_moves _ _ pursued rfl rfl dirty rfl rfl rfl (fun _ => stays_outside running id)

theorem pop_pursued (delivered : Delivered size s) (pursued : Pursued s) {pos mark : Nat}
    {after : After} (running : s.guest thread = some (.pop pos mark after)) :
    Pursued (guestStep size s thread (.pop pos mark after)) := by
  rcases pop_drain delivered.window pos with ⟨_, _, popped⟩ | ⟨exhausted, refused⟩
  · apply pursued_drains thread (.test ((s.pops + 1) % size.count) after)
    · simp only [guestStep, popped, goto_guest_self]
      rfl
    · have moved := (idxHeadPop_ends (s.head.idx .inuse) size.count).1
      simp only [guestStep, popped, State.goto, handOver_idx, GuestPc.Drains, moved]
      rw [delivered.window.tracks.head, moduloInc_mod]
  · refine pursued_moves thread (some (.test pos after)) pursued ?_ rfl ?_ ?_ rfl ?_ ?_
    · simp only [guestStep, refused]
      rfl
    · simp [guestStep, refused, State.goto, State.irq]
    · simp [guestStep, refused, State.goto]
    · simp [guestStep, refused, State.goto]
    · intro behind found present drains
      rw [running, Option.some.injEq] at present
      rw [← present] at drains
      have caught := exhausted drains
      omega

theorem guest_pursued (delivered : Delivered size s) (pursued : Pursued s)
    (running : s.guest thread = some pc) : Pursued (guestStep size s thread pc) := by
  cases pc with
  | isrTest =>
    exact pursued_moves _ _ pursued rfl rfl rfl rfl rfl rfl (fun _ => stays_outside running id)
  | isrDisable =>
    have dirty : (guestStep size s thread .isrDisable).irq.dirty = s.irq.dirty := by
      simp [guestStep, localStep]
    exact pursued_moves _ _ pursued rfl rfl dirty rfl rfl rfl (fun _ => stays_outside running id)
  | isrQueue =>
    exact pursued_moves _ _ pursued rfl rfl rfl rfl rfl rfl (fun _ => stays_outside running id)
  | enable after =>
    have dirty : (guestStep size s thread (.enable after)).irq.dirty = s.irq.dirty := by
      simp [guestStep, localStep]
    exact pursued_moves _ _ pursued rfl rfl dirty rfl rfl rfl (fun _ => stays_outside running id)
  | disable =>
    have dirty : (guestStep size s thread .disable).irq.dirty = s.irq.dirty := by
      simp [guestStep, localStep]
    exact pursued_moves _ _ pursued rfl rfl dirty rfl rfl rfl (fun _ => stays_outside running id)
  | wakeup pc after => exact wakeup_pursued pursued running
  | seek after =>
    exact pursued_moves _ _ pursued rfl rfl rfl rfl rfl rfl
      (fun _ => stays_draining running (fun _ => rfl))
  | test pos after =>
    refine pursued_moves _ _ pursued rfl rfl rfl rfl rfl rfl (fun behind => ?_)
    apply stays_draining running
    intro drains
    have position : pos = (s.head.idx .inuse).head := drains
    have north := delivered.window.head_owner.mpr behind
    rw [← position] at north
    rw [if_pos north]
    exact drains
  | dispatch pos after =>
    exact pursued_moves _ _ pursued rfl rfl rfl rfl rfl rfl (fun _ => stays_draining running id)
  | clear pos mark after =>
    exact pursued_moves _ _ pursued rfl rfl rfl rfl rfl rfl (fun _ => stays_draining running id)
  | pop pos mark after => exact pop_pursued delivered pursued running
  | signal pc after =>
    have irq : (guestStep size s thread (.signal pc after)).irq = s.irq := setIrq_south _ _
    exact pursued_moves _ _ pursued rfl rfl (by rw [irq]) rfl rfl rfl
      (fun _ => stays_outside running id)

end Pursued

structure Invariant (size : RingSize) (s : State) : Prop where
  delivered : Delivered size s
  watched : Watched s
  pursued : Pursued s

section Steps

variable {size : RingSize} {s : State}

theorem invariant_initial (size : RingSize) : Invariant size (machine size).start := by
  have ready := eventqStart_ready size
  refine ⟨delivered_initial size, ?_, ?_⟩
  · apply watched_clean
    exact congrArg ShmSignalIrq.dirty ready.north
  · intro impossible
    cases impossible

theorem post_invariant (holds : Invariant size s) (idle : s.host = none) {next : State}
    (posted : post size s = some next) : Invariant size next := by
  rcases post_cases holds.delivered.window holds.delivered.cookie with refused | ⟨room, admitted⟩
  · rw [posted, Option.some.injEq] at refused
    rw [refused]
    exact holds
  · rw [posted, Option.some.injEq] at admitted
    rw [admitted]
    refine ⟨post_delivered holds.delivered room, ?_, fun _ => Or.inr (Or.inl rfl)⟩
    intro enabled dirty
    rcases holds.watched enabled dirty with ⟨pc, injecting, _⟩ | notified
    · rw [idle] at injecting
      cases injecting
    · exact Or.inr notified

theorem hostStep_irq (s : State) (pc : InjectPc) :
    (hostStep s pc).irq = (injectStep s.irq pc).1 := setIrq_north _ _

theorem host_watched {pc : InjectPc} (running : s.host = some pc)
    (heeded : Heeded size s .hostStep) : Watched (hostStep s pc) := by
  intro enabled dirty
  rw [hostStep_irq] at enabled dirty
  cases pc with
  | markDirty => exact Or.inl ⟨.testEnabled, rfl, by decide⟩
  | testEnabled =>
    have on : s.irq.enabled = true := enabled
    exact Or.inl ⟨.testPending, by simp [hostStep, injectStep, on], by decide⟩
  | testPending =>
    cases pending : s.irq.pending with
    | false => exact Or.inl ⟨.setPending, by simp [hostStep, injectStep, pending], by decide⟩
    | true =>
      have flags : (hostStep s .testPending).irq = s.irq := hostStep_irq s .testPending
      rcases heeded running pending enabled dirty with flying | queued | ⟨thread, pc, place, attends⟩
      · exact Or.inr (Or.inl flying)
      · exact Or.inr (Or.inr (Or.inl queued))
      · refine Or.inr (Or.inr (Or.inr ⟨thread, pc, place, ?_⟩))
        rw [flags]
        exact attends
  | setPending => exact Or.inl ⟨.inject, rfl, by decide⟩
  | inject => exact Or.inr (Or.inl (Nat.succ_pos _))

theorem host_pursued {pc : InjectPc} (pursued : Pursued s) (running : s.host = some pc) :
    Pursued (hostStep s pc) := by
  intro behind
  rw [hostStep_irq]
  cases pc with
  | markDirty => exact Or.inl rfl
  | _ =>
    rcases pursued behind with marked | marking | draining
    · exact Or.inl marked
    · rw [running, Option.some.injEq] at marking
      cases marking
    · exact Or.inr (Or.inr draining)

theorem host_invariant (holds : Invariant size s) {pc : InjectPc} (running : s.host = some pc)
    (heeded : Heeded size s .hostStep) : Invariant size (hostStep s pc) := by
  have delivered := holds.delivered.setIrq .north (injectStep s.irq pc).1
  exact ⟨⟨delivered.window, delivered.cookie, delivered.retired, delivered.buffer, delivered.placed⟩,
    host_watched running heeded, host_pursued holds.pursued running⟩

theorem start_invariant (holds : Invariant size s) {thread : Nat} (outside : s.guest thread = none)
    {pc : GuestPc} {inFlight : Nat} {dpcQueued : Bool} (attends : pc.Attends s.irq.pending)
    (placed : pc.Placed size s.dispatched) :
    Invariant size ({ s with inFlight := inFlight, dpcQueued := dpcQueued }.goto thread (some pc)) := by
  have delivered : Delivered size { s with inFlight := inFlight, dpcQueued := dpcQueued } :=
    ⟨holds.delivered.window, holds.delivered.cookie, holds.delivered.retired,
      holds.delivered.buffer, holds.delivered.placed⟩
  refine ⟨delivered.goto thread _ ?_, watched_attends thread pc (goto_guest_self _ _ _) attends, ?_⟩
  · intro found same
    rw [← Option.some.inj same]
    exact placed
  · refine pursued_moves _ _ holds.pursued rfl rfl rfl rfl rfl rfl (fun _ found present => ?_)
    rw [outside] at present
    cases present

theorem call_invariant (holds : Invariant size s) {thread : Nat} (outside : s.guest thread = none)
    (callback : Callback) : Invariant size (s.goto thread (some callback.pc)) := by
  have enabling : Invariant size (s.goto thread (some (.enable .done))) :=
    start_invariant holds outside True.intro True.intro
  have disabling : Invariant size (s.goto thread (some .disable)) := by
    refine ⟨holds.delivered.goto thread _ ?_, ?_, ?_⟩
    · intro found same
      rw [← Option.some.inj same]
      exact True.intro
    · refine watched_moves _ _ holds.watched rfl rfl rfl id rfl (fun found present => ?_)
      rw [outside] at present
      cases present
    · refine pursued_moves _ _ holds.pursued rfl rfl rfl rfl rfl rfl (fun _ found present => ?_)
      rw [outside] at present
      cases present
  cases callback with
  | d0Entry => exact enabling
  | d0Exit => exact disabling
  | intrEnable => exact enabling
  | intrDisable => exact disabling

theorem invariant_step (s : State) (action : Action) (next : State) (holds : Invariant size s)
    (heeded : Heeded size s action) (stepped : step size s action = some next) :
    Invariant size next := by
  cases action with
  | post =>
    simp only [step, Option.ite_none_right_eq_some] at stepped
    exact post_invariant holds stepped.1 stepped.2
  | hostStep =>
    simp only [step, Option.map_eq_some_iff] at stepped
    obtain ⟨pc, running, stepped⟩ := stepped
    rw [← stepped]
    exact host_invariant holds running heeded
  | deliver thread | startDpc thread =>
    simp only [step, Option.ite_none_right_eq_some, Option.some.injEq] at stepped
    rw [← stepped.2]
    exact start_invariant holds stepped.1.2 True.intro True.intro
  | call thread callback =>
    simp only [step, Option.ite_none_right_eq_some, Option.some.injEq] at stepped
    rw [← stepped.2]
    exact call_invariant holds stepped.1 callback
  | guestStep thread =>
    simp only [step, Option.map_eq_some_iff] at stepped
    obtain ⟨pc, running, stepped⟩ := stepped
    rw [← stepped]
    exact ⟨guest_delivered holds.delivered running heeded, guest_watched holds.watched running,
      guest_pursued holds.delivered holds.pursued running⟩

theorem Invariant.caughtUp (holds : Invariant size s) (quiet : s.Quiet)
    (enabled : s.irq.enabled = true) : s.CaughtUp := by
  have clean : s.irq.dirty = false := by
    by_contra dirty
    rcases holds.watched enabled (Bool.eq_true_of_not_eq_false dirty) with
      ⟨pc, injecting, _⟩ | flying | queued | ⟨thread, pc, running, _⟩
    · rw [quiet.host] at injecting
      cases injecting
    · rw [quiet.inFlight] at flying
      exact absurd flying (Nat.lt_irrefl 0)
    · rw [quiet.dpcQueued] at queued
      cases queued
    · rw [quiet.guest thread] at running
      cases running
  have le := holds.delivered.window.tracks.le
  have caught : s.pops = s.posted := by
    by_contra behind
    rcases holds.pursued (by omega) with dirty | marking | ⟨thread, pc, running, _⟩
    · rw [clean] at dirty
      cases dirty
    · rw [quiet.host] at marking
      cases marking
    · rw [quiet.guest thread] at running
      cases running
  refine ⟨?_, ?_, clean⟩
  · intro k posted
    exact holds.delivered.retired k (by omega)
  · apply Locality.eq_other .north
    intro ready
    have behind := holds.delivered.window.head_owner.mp ready
    omega

end Steps

/-- In a run whose skipped injections all have a notification on its way, and whose drains retire
    no descriptor posted again meanwhile, the queue has caught up whenever it comes to rest
    enabled. -/
theorem heeded_wakeup_lossless (size : RingSize) (s : State)
    (reached : (machine size).ReachableBy (Heeded size) s) (quiet : s.Quiet)
    (enabled : s.irq.enabled = true) : s.CaughtUp :=
  (reached.invariant (invariant_initial size) invariant_step).caughtUp quiet enabled

def delivery : List Action :=
  [.post] ++ List.replicate 5 .hostStep ++ [.deliver 0] ++ List.replicate 3 (.guestStep 0) ++
    [.startDpc 0] ++ List.replicate 14 (.guestStep 0)

def heeds (s : State) : Action → Bool
  | .hostStep => !(s.host == some .testPending && s.irq.pending)
  | .guestStep thread =>
    match s.guest thread with
    | some (.clear _ mark _) => mark == s.posted
    | some (.pop _ mark _) => mark == s.posted
    | _ => true
  | _ => true

theorem heeded_of_heeds (size : RingSize) (s : State) (action : Action)
    (heeding : heeds s action = true) : Heeded size s action := by
  cases action with
  | hostStep =>
    intro testing pending
    simp [heeds, testing, pending] at heeding
  | guestStep thread =>
    intro pos mark after either again
    have last : mark = s.posted := by
      rcases either with running | running <;> simpa [heeds, running] using heeding
    rw [last] at again
    exact window_empty again
  | _ => exact True.intro

theorem heeded_wakeup_lossless_delivery :
    (((machine ⟨2, by decide, by decide⟩).run (machine ⟨2, by decide, by decide⟩).start
      delivery).get (by decide)).CaughtUp := by
  apply heeded_wakeup_lossless ⟨2, by decide, by decide⟩
  · apply Machine.reachableBy_get
    exact Machine.meets_of_checks (heeded_of_heeds _) (by decide)
  · refine ⟨by decide, by decide, by decide, ?_⟩
    intro thread
    cases thread with
    | zero => rfl
    | succ n => rfl
  · decide

/-- `pending` is never cleared, so the host does not inject for its second event. -/
def secondPosting : List Action := delivery ++ [.post] ++ List.replicate 3 .hostStep

theorem second_event_lost :
    let s := ((machine ⟨2, by decide, by decide⟩).run (machine ⟨2, by decide, by decide⟩).start
      secondPosting).get (by decide)
    s.Quiet ∧ s.irq.enabled = true ∧ s.posted = 2 ∧ s.dispatched = [0] ∧ ¬ s.CaughtUp := by
  refine ⟨⟨by decide, by decide, by decide, ?_⟩, by decide, by decide, by decide, ?_⟩
  · intro thread
    cases thread with
    | zero => rfl
    | succ n => rfl
  · intro caught
    have seen := caught.dispatched 1 (by decide)
    exact absurd seen (by decide)

end Vbus.EventQueue
