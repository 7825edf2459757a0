import AlacrityDrivers.Library.Transition
import AlacrityDrivers.Vbus.ShmSignal

namespace Vbus.Handshake

open Transition

/-- One remote thread that publishes work and calls `ShmSignalInject`, and one local thread that
    calls the three local routines. An injection is in flight until it is delivered; `delivered`
    counts those whose `ShmSignalEoi` the local thread still owes. The last two fields number the
    published pieces of work, and the pieces published when the notifier last started. -/
structure State where
  irq : ShmSignalIrq
  remote : Option InjectPc
  localPc : Option LocalPc
  inFlight : Nat
  delivered : Nat
  published : Nat
  noticed : Nat

inductive Action where
  | publish
  | remoteAccess
  | deliver
  | enable
  | disable
  | eoi
  | localAccess
deriving DecidableEq, Repr

def initial : State :=
  { irq := ⟨false, false, false⟩, remote := none, localPc := none, inFlight := 0, delivered := 0,
    published := 0, noticed := 0 }

def step (s : State) : Action → Option State
  | .publish =>
    if s.remote = none then
      some { s with published := s.published + 1, remote := some .markDirty }
    else none
  | .remoteAccess =>
    match s.remote with
    | none => none
    | some pc =>
      some { s with
        irq := (injectStep s.irq pc).1
        remote := (injectStep s.irq pc).2
        inFlight := if pc = .inject then s.inFlight + 1 else s.inFlight }
  | .deliver =>
    if 0 < s.inFlight then
      some { s with inFlight := s.inFlight - 1, delivered := s.delivered + 1 }
    else none
  | .enable => if s.localPc = none then some { s with localPc := some .enable } else none
  | .disable => if s.localPc = none then some { s with localPc := some .disable } else none
  | .eoi =>
    if s.localPc = none ∧ 0 < s.delivered then
      some { s with localPc := some .eoi, delivered := s.delivered - 1 }
    else none
  | .localAccess =>
    match s.localPc with
    | none => none
    | some pc =>
      some { s with
        irq := (localStep s.irq pc).1
        localPc := (localStep s.irq pc).2
        noticed := if pc = .wakeup .notify then s.published else s.noticed }

def machine : Machine State Action := ⟨initial, step⟩

/-- Both sides are outside the library, and no injection is on its way or unacknowledged. -/
def State.Quiet (s : State) : Prop :=
  s.remote = none ∧ s.localPc = none ∧ s.inFlight = 0 ∧ s.delivered = 0

def State.Marked (s : State) : Prop :=
  s.noticed ≠ s.published → s.irq.dirty = true ∨ s.remote = some .markDirty ∨
    s.localPc = some (.wakeup .notify)

def LocalPc.Attends : LocalPc → Prop
  | .eoi | .wakeup .testEnabled | .wakeup .testDirty | .wakeup .clearDirty => True
  | _ => False

def State.Watched (s : State) : Prop :=
  s.irq.enabled = true → s.irq.dirty = true →
    (∃ pc, s.remote = some pc ∧ pc ≠ .markDirty) ∨ 0 < s.inFlight ∨ 0 < s.delivered ∨
      ∃ pc, s.localPc = some pc ∧ LocalPc.Attends pc

def decided : Option InjectPc → Nat
  | some .inject => 1
  | _ => 0

def owed : Option LocalPc → Nat
  | some .eoi => 1
  | _ => 0

/-- At most one injection exists, from the remote write of `pending` to the local one, and `pending`
    is set exactly in that time. -/
structure State.Single (s : State) : Prop where
  count : s.inFlight + s.delivered + decided s.remote + owed s.localPc = s.irq.pending.toNat
  unset : s.remote = some .setPending → s.irq.pending = false

structure State.Invariant (s : State) : Prop where
  marked : s.Marked
  watched : s.Watched
  single : s.Single

theorem invariant_initial : initial.Invariant := by
  refine ⟨?_, ?_, ⟨rfl, ?_⟩⟩
  all_goals simp [State.Marked, State.Watched, initial]

theorem decided_zero (remote : Option InjectPc) (before : remote ≠ some .inject) :
    decided remote = 0 := by
  unfold decided
  split
  · exact absurd rfl before
  · rfl

theorem owed_positive (pc : Option LocalPc) (positive : 0 < owed pc) : pc = some .eoi := by
  unfold owed at positive
  split at positive
  · rfl
  · omega

theorem State.Single.unacknowledged {s : State} (single : s.Single)
    (before : s.remote ≠ some .inject) (pending : s.irq.pending = true) :
    0 < s.inFlight ∨ 0 < s.delivered ∨ s.localPc = some .eoi := by
  have count := single.count
  rw [decided_zero _ before, pending, Bool.toNat_true] at count
  by_cases acknowledging : 0 < owed s.localPc
  · exact Or.inr (Or.inr (owed_positive _ acknowledging))
  · omega

section Remote

variable {s : State} {pc : InjectPc}

def afterRemote (s : State) (pc : InjectPc) : State :=
  { s with
    irq := (injectStep s.irq pc).1
    remote := (injectStep s.irq pc).2
    inFlight := if pc = .inject then s.inFlight + 1 else s.inFlight }

theorem remote_marked (running : s.remote = some pc) (marked : s.Marked) :
    (afterRemote s pc).Marked := by
  intro unseen
  have mark := marked unseen
  rw [running] at mark
  cases pc with
  | markDirty => exact Or.inl rfl
  | testEnabled => simpa [afterRemote, injectStep] using mark
  | testPending => simpa [afterRemote, injectStep] using mark
  | setPending => simpa [afterRemote, injectStep] using mark
  | inject => simpa [afterRemote, injectStep] using mark

theorem remote_single (running : s.remote = some pc) (single : s.Single) :
    (afterRemote s pc).Single := by
  have count := single.count
  have unset := single.unset
  rw [running] at count unset
  cases pc with
  | markDirty => exact ⟨count, by simp [afterRemote, injectStep]⟩
  | testEnabled =>
    cases enabled : s.irq.enabled <;>
      exact ⟨by simpa [afterRemote, injectStep, enabled, decided] using count,
        by simp [afterRemote, injectStep, enabled]⟩
  | testPending =>
    cases pending : s.irq.pending <;>
      exact ⟨by simpa [afterRemote, injectStep, pending, decided] using count,
        by simp [afterRemote, injectStep, pending]⟩
  | setPending =>
    rw [unset rfl] at count
    simp only [decided, Bool.toNat_false] at count
    refine ⟨?_, by simp [afterRemote, injectStep]⟩
    simp only [afterRemote, injectStep, decided, Bool.toNat_true, reduceCtorEq, if_false]
    omega
  | inject =>
    simp only [decided] at count
    refine ⟨?_, by simp [afterRemote, injectStep]⟩
    simp only [afterRemote, injectStep, decided, if_true]
    omega

theorem remote_watched (running : s.remote = some pc) (single : s.Single) :
    (afterRemote s pc).Watched := by
  intro enabled dirty
  cases pc with
  | markDirty => exact Or.inl ⟨.testEnabled, rfl, by decide⟩
  | testEnabled =>
    have on : s.irq.enabled = true := enabled
    exact Or.inl ⟨.testPending, by simp [afterRemote, injectStep, on], by decide⟩
  | testPending =>
    cases pending : s.irq.pending with
    | false => exact Or.inl ⟨.setPending, by simp [afterRemote, injectStep, pending], by decide⟩
    | true =>
      have owner := single.unacknowledged (by rw [running]; decide) pending
      rcases owner with flying | delivered | acknowledging
      · exact Or.inr (Or.inl (by simpa [afterRemote] using flying))
      · exact Or.inr (Or.inr (Or.inl delivered))
      · exact Or.inr (Or.inr (Or.inr ⟨.eoi, acknowledging, True.intro⟩))
  | setPending => exact Or.inl ⟨.inject, rfl, by decide⟩
  | inject => exact Or.inr (Or.inl (Nat.succ_pos _))

end Remote

section Local

variable {s : State} {pc : LocalPc}

def afterLocal (s : State) (pc : LocalPc) : State :=
  { s with
    irq := (localStep s.irq pc).1
    localPc := (localStep s.irq pc).2
    noticed := if pc = .wakeup .notify then s.published else s.noticed }

theorem local_marked (running : s.localPc = some pc) (marked : s.Marked) :
    (afterLocal s pc).Marked := by
  intro unseen
  cases pc with
  | enable | disable | eoi =>
    have mark := marked unseen
    rw [running] at mark
    simpa [afterLocal, localStep] using mark
  | wakeup pc =>
    cases pc with
    | clearDirty => exact Or.inr (Or.inr rfl)
    | notify => exact absurd rfl unseen
    | testEnabled =>
      have mark := marked unseen
      rw [running] at mark
      cases enabled : s.irq.enabled <;>
        simpa [afterLocal, localStep, wakeupStep, enabled] using mark
    | testDirty =>
      have mark := marked unseen
      rw [running] at mark
      cases dirty : s.irq.dirty with
      | true => exact Or.inl dirty
      | false => simpa [afterLocal, localStep, wakeupStep, dirty] using mark
    | testPending =>
      have mark := marked unseen
      rw [running] at mark
      cases pending : s.irq.pending <;>
        simpa [afterLocal, localStep, wakeupStep, pending] using mark

theorem local_single (running : s.localPc = some pc) (single : s.Single) :
    (afterLocal s pc).Single := by
  have count := single.count
  have unset := single.unset
  rw [running] at count
  cases pc with
  | enable => exact ⟨count, unset⟩
  | disable => exact ⟨count, unset⟩
  | eoi =>
    refine ⟨?_, fun _ => rfl⟩
    have bound : s.irq.pending.toNat ≤ 1 := Bool.toNat_le _
    simp only [owed] at count
    simp only [afterLocal, localStep, owed, Bool.toNat_false, reduceCtorEq, if_false]
    omega
  | wakeup pc =>
    cases pc with
    | testEnabled =>
      cases enabled : s.irq.enabled <;>
        exact ⟨by simpa [afterLocal, localStep, wakeupStep, enabled, owed] using count, unset⟩
    | testDirty =>
      cases dirty : s.irq.dirty <;>
        exact ⟨by simpa [afterLocal, localStep, wakeupStep, dirty, owed] using count, unset⟩
    | testPending =>
      cases pending : s.irq.pending <;>
        exact ⟨by simpa [afterLocal, localStep, wakeupStep, pending, owed] using count, unset⟩
    | clearDirty => exact ⟨count, unset⟩
    | notify => exact ⟨count, unset⟩

theorem local_watched (running : s.localPc = some pc) (watched : s.Watched) :
    (afterLocal s pc).Watched := by
  intro enabled dirty
  cases pc with
  | enable => exact Or.inr (Or.inr (Or.inr ⟨.wakeup .testEnabled, rfl, True.intro⟩))
  | disable => exact absurd enabled (by simp [afterLocal, localStep])
  | eoi => exact Or.inr (Or.inr (Or.inr ⟨.wakeup .testEnabled, rfl, True.intro⟩))
  | wakeup pc =>
    cases pc with
    | testEnabled =>
      have on : s.irq.enabled = true := enabled
      refine Or.inr (Or.inr (Or.inr ⟨.wakeup .testDirty, ?_, True.intro⟩))
      simp [afterLocal, localStep, wakeupStep, on]
    | testDirty =>
      have set : s.irq.dirty = true := dirty
      refine Or.inr (Or.inr (Or.inr ⟨.wakeup .clearDirty, ?_, True.intro⟩))
      simp [afterLocal, localStep, wakeupStep, set]
    | testPending =>
      have watcher := watched enabled dirty
      rw [running] at watcher
      cases pending : s.irq.pending with
      | true =>
        refine Or.inr (Or.inr (Or.inr ⟨.wakeup .clearDirty, ?_, True.intro⟩))
        simp [afterLocal, localStep, wakeupStep, pending]
      | false => simpa [afterLocal, localStep, wakeupStep, pending, LocalPc.Attends] using watcher
    | clearDirty => exact absurd dirty (by simp [afterLocal, localStep, wakeupStep])
    | notify =>
      have watcher := watched enabled dirty
      rw [running] at watcher
      simpa [afterLocal, localStep, wakeupStep, LocalPc.Attends] using watcher

end Local

theorem publish_invariant {s : State} (outside : s.remote = none) (holds : s.Invariant) :
    State.Invariant { s with published := s.published + 1, remote := some .markDirty } := by
  have count := holds.single.count
  rw [outside] at count
  refine ⟨fun _ => Or.inr (Or.inl rfl), ?_, ⟨count, by simp⟩⟩
  intro enabled dirty
  have watcher := holds.watched enabled dirty
  rw [outside] at watcher
  simpa using watcher

theorem deliver_invariant {s : State} (flying : 0 < s.inFlight) (holds : s.Invariant) :
    State.Invariant { s with inFlight := s.inFlight - 1, delivered := s.delivered + 1 } := by
  have count := holds.single.count
  refine ⟨holds.marked, ?_, ⟨?_, holds.single.unset⟩⟩
  · intro _ _
    exact Or.inr (Or.inr (Or.inl (Nat.succ_pos _)))
  · dsimp only
    omega

theorem call_invariant {s : State} (outside : s.localPc = none) (pc : LocalPc)
    (entry : pc = .enable ∨ pc = .disable) (holds : s.Invariant) :
    State.Invariant { s with localPc := some pc } := by
  have count := holds.single.count
  rw [outside] at count
  refine ⟨?_, ?_, ⟨?_, holds.single.unset⟩⟩
  · intro unseen
    have mark := holds.marked unseen
    rw [outside] at mark
    rcases entry with rfl | rfl <;> simpa using mark
  · intro enabled dirty
    have watcher := holds.watched enabled dirty
    rw [outside] at watcher
    rcases entry with rfl | rfl <;> simpa [LocalPc.Attends] using watcher
  · rcases entry with rfl | rfl <;> exact count

theorem eoi_invariant {s : State} (outside : s.localPc = none) (due : 0 < s.delivered)
    (holds : s.Invariant) :
    State.Invariant { s with localPc := some .eoi, delivered := s.delivered - 1 } := by
  have count := holds.single.count
  rw [outside] at count
  refine ⟨?_, ?_, ⟨?_, holds.single.unset⟩⟩
  · intro unseen
    have mark := holds.marked unseen
    rw [outside] at mark
    simpa using mark
  · intro _ _
    exact Or.inr (Or.inr (Or.inr ⟨.eoi, rfl, True.intro⟩))
  · simp only [owed] at count ⊢
    omega

theorem invariant_step (s : State) (action : Action) (next : State) (holds : s.Invariant)
    (stepped : step s action = some next) : next.Invariant := by
  cases action with
  | publish =>
    simp only [step, Option.ite_none_right_eq_some, Option.some.injEq] at stepped
    rw [← stepped.2]
    exact publish_invariant stepped.1 holds
  | remoteAccess =>
    cases running : s.remote with
    | none => simp [step, running] at stepped
    | some pc =>
      simp only [step, running, Option.some.injEq] at stepped
      rw [← stepped]
      exact ⟨remote_marked running holds.marked, remote_watched running holds.single,
        remote_single running holds.single⟩
  | deliver =>
    simp only [step, Option.ite_none_right_eq_some, Option.some.injEq] at stepped
    rw [← stepped.2]
    exact deliver_invariant stepped.1 holds
  | enable =>
    simp only [step, Option.ite_none_right_eq_some, Option.some.injEq] at stepped
    rw [← stepped.2]
    exact call_invariant stepped.1 .enable (Or.inl rfl) holds
  | disable =>
    simp only [step, Option.ite_none_right_eq_some, Option.some.injEq] at stepped
    rw [← stepped.2]
    exact call_invariant stepped.1 .disable (Or.inr rfl) holds
  | eoi =>
    simp only [step, Option.ite_none_right_eq_some, Option.some.injEq] at stepped
    rw [← stepped.2]
    exact eoi_invariant stepped.1.1 stepped.1.2 holds
  | localAccess =>
    cases running : s.localPc with
    | none => simp [step, running] at stepped
    | some pc =>
      simp only [step, running, Option.some.injEq] at stepped
      rw [← stepped]
      exact ⟨local_marked running holds.marked, local_watched running holds.watched,
        local_single running holds.single⟩

theorem reachable_invariant {s : State} (reached : machine.Reachable s) : s.Invariant :=
  reached.invariant invariant_initial invariant_step

/-- No notification is lost: when both sides rest with notifications enabled, the notifier has
    started after the last published work; and there is never more than one injection. -/
theorem acknowledged_signal_lossless (s : State) (reached : machine.Reachable s) :
    (s.Quiet → s.irq.enabled = true → s.noticed = s.published) ∧ s.inFlight + s.delivered ≤ 1 := by
  have holds := reachable_invariant reached
  constructor
  · intro quiet enabled
    obtain ⟨noRemote, noLocal, noFlight, noDelivery⟩ := quiet
    by_contra unseen
    have mark := holds.marked unseen
    rw [noRemote, noLocal] at mark
    have dirty : s.irq.dirty = true := by simpa using mark
    have watcher := holds.watched enabled dirty
    rw [noRemote, noLocal, noFlight, noDelivery] at watcher
    simp at watcher
  · have count := holds.single.count
    have bound : s.irq.pending.toNat ≤ 1 := Bool.toNat_le _
    omega

def twoPublications : List Action :=
  [.publish, .remoteAccess, .remoteAccess, .enable, .localAccess, .localAccess, .localAccess,
    .localAccess, .localAccess, .publish, .remoteAccess, .remoteAccess, .remoteAccess, .remoteAccess,
    .remoteAccess, .publish, .deliver, .remoteAccess, .remoteAccess, .remoteAccess, .eoi, .localAccess,
    .localAccess, .localAccess, .localAccess, .localAccess]

theorem acknowledged_signal_lossless_run :
    ((machine.run machine.start twoPublications).get (by decide)).noticed = 3 := by
  have lossless := acknowledged_signal_lossless _
    (Machine.reachable_get (m := machine) twoPublications (by decide))
  exact (lossless.1 ⟨by decide, by decide, by decide, by decide⟩ (by decide)).trans (by decide)

end Vbus.Handshake
