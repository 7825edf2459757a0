import Mathlib.Algebra.Ring.Nat
import Mathlib.Data.List.Perm.Subperm
import AlacrityDrivers.Library.Simulation
import AlacrityDrivers.Venet.NblOutcome
import AlacrityDrivers.Venet.Quiesce

namespace Venet

open Transition

def added {α : Type} [DecidableEq α] (before : List α) : List α → Option α
  | [] => none
  | first :: rest => if rest = before then some first else none

/-- The TCBs handed to `SrSubmitTCB`, as the bus sees them. -/
def transmitted (p : Params) : Observed State Action Nat where
  machine := machine p
  event := fun s action => (step p s action).bind fun next => added s.submitted next.submitted

def NblPc.tcb : NblPc → Option Nat
  | .allocEvent _ tcb | .copy _ tcb | .submit _ tcb | .release tcb _ => some tcb
  | .check | .alloc _ | .releaseEvent _ | .finish _ | .fault => none

def NblPc.sent (nbl : Nbl) : NblPc → Nat
  | .alloc nb | .allocEvent nb _ | .copy nb _ | .submit nb _ => nb
  | .finish rc => if rc = .success then nbl.netBuffers else 0
  | .check | .release _ _ | .releaseEvent _ | .fault => 0

def NblPc.Honest : NblPc → Prop
  | .release _ rc | .releaseEvent rc => rc ≠ .success
  | _ => True

def Sends.buffers (nbls : Nat → Nbl) (sends : Sends) : Nat :=
  (sends.succeeded.map fun nbl => (nbls nbl).netBuffers).sum

structure Attempting (p : Params) (s : State) (seen : List Nat) (pc : NblPc) : Prop where
  fresh : ∀ tcb, pc.tcb = some tcb → tcb ∉ seen
  sent : ∀ nbl, s.sends.sendingNBL = some nbl →
    s.sends.buffers p.nbls + pc.sent (p.nbls nbl) ≤ seen.length
  honest : pc.Honest

def Held (s : State) (tcb : Nat) : Prop :=
  ∃ thread pc, s.threads thread = some (.processNbl pc) ∧ pc.tcb = some tcb

/-- The busy TCBs are those that were ever handed to the bus, each once, and the one in hand. -/
structure Spent (p : Params) (s : State) (seen : List Nat) : Prop where
  once : seen.Nodup
  busy : ∀ tcb, tcb ∈ s.tx.tcbBusy ↔ tcb ∈ seen ∨ Held s tcb
  counted : s.sends.buffers p.nbls ≤ seen.length
  attempting : ∀ thread pc, s.threads thread = some (.processNbl pc) → Attempting p s seen pc

section Step

variable {p : Params} {s next : State} {thread bytes nbl tcb : Nat} {pc after : NblPc}
  {seen : List Nat}

theorem added_cons {α : Type} [DecidableEq α] (first : α) (rest : List α) :
    added rest (first :: rest) = some first := if_pos rfl

theorem added_none {α : Type} [DecidableEq α] {before after : List α}
    (shorter : after.length ≤ before.length) : added before after = none := by
  cases after with
  | nil => rfl
  | cons first rest =>
    apply if_neg
    intro same
    rw [← same, List.length_cons] at shorter
    omega

theorem NblPc.fresh_of_none (none : pc.tcb = none) : ∀ tcb, pc.tcb = some tcb → tcb ∉ seen := by
  intro tcb held
  rw [none] at held
  cases held

theorem Exclusive.alone (exclusive : Exclusive s) (running : s.threads thread = some (.processNbl pc)) :
    ∀ other pc', s.threads other = some (.processNbl pc') → pc' = pc := by
  intro other pc' place
  have only := exclusive.unique other thread _ _ place running
  rw [only, running, Option.some.injEq, Pc.processNbl.injEq] at place
  exact place.symm

theorem Exclusive.left {rc : NdisStatus} (exclusive : Exclusive s)
    (running : s.threads thread = some (.processNbl (.finish rc))) :
    ∀ other pc, (finishNbl s thread nbl rc).threads other ≠ some (.processNbl pc) := by
  obtain ⟨_, _, _, new, outside, threads⟩ := finishNbl_frame s thread nbl rc
  intro other pc place
  rw [threads, Function.update_apply] at place
  split at place
  · exact outside pc place
  · rename_i different
    exact different (exclusive.unique other thread _ _ place running)

theorem Exclusive.held (exclusive : Exclusive s) (running : s.threads thread = some (.processNbl pc))
    (tcb : Nat) : Held s tcb ↔ pc.tcb = some tcb := by
  constructor
  · rintro ⟨other, pc', place, held⟩
    rw [← exclusive.alone running other pc' place]
    exact held
  · intro held
    exact ⟨thread, pc, running, held⟩

theorem Exclusive.none_held (exclusive : Exclusive s) (idle : s.sends.sendingNBL = none) (tcb : Nat) :
    ¬ Held s tcb := by
  rintro ⟨thread, pc, running, _⟩
  exact exclusive.nobody idle thread pc running

theorem Spent.aside (spent : Spent p s seen) (busy : next.tx.tcbBusy = s.tx.tcbBusy)
    (succeeded : next.sends.succeeded = s.sends.succeeded) (held : ∀ tcb, Held next tcb ↔ Held s tcb)
    (places : ∀ thread pc, next.threads thread = some (.processNbl pc) → pc = .check ∨
      (s.threads thread = some (.processNbl pc) ∧
        next.sends.sendingNBL = s.sends.sendingNBL)) : Spent p next seen := by
  have buffers : next.sends.buffers p.nbls = s.sends.buffers p.nbls := by
    rw [Sends.buffers, Sends.buffers, succeeded]
  refine ⟨spent.once, ?_, ?_, ?_⟩
  · intro tcb
    rw [busy, held]
    exact spent.busy tcb
  · rw [buffers]
    exact spent.counted
  · intro thread pc running
    rcases places thread pc running with rfl | ⟨before, sending⟩
    · refine ⟨NblPc.fresh_of_none rfl, ?_, True.intro⟩
      intro nbl _
      rw [buffers]
      exact spent.counted
    · obtain ⟨fresh, sent, honest⟩ := spent.attempting thread pc before
      refine ⟨fresh, ?_, honest⟩
      rw [buffers, sending]
      exact sent

theorem Spent.beside (spent : Spent p s seen) (tcbs : SameTcbs s.tx next.tx)
    (succeeded : next.sends.succeeded = s.sends.succeeded)
    (sending : next.sends.sendingNBL = s.sends.sendingNBL) (same : SameNbl s next) :
    Spent p next seen := by
  refine spent.aside tcbs.tcbBusy succeeded ?_ ?_
  · intro tcb
    simp only [Held, same _ _]
  · intro thread pc running
    exact Or.inr ⟨(same thread pc).mp running, sending⟩

theorem Spent.busy_running (spent : Spent p s seen) (exclusive : Exclusive s)
    (running : s.threads thread = some (.processNbl pc)) (tcb : Nat) :
    tcb ∈ s.tx.tcbBusy ↔ tcb ∈ seen ∨ pc.tcb = some tcb := by
  rw [spent.busy, exclusive.held running]

theorem Spent.inside {new : List Nat} (spent : Spent p s seen) (exclusive : Exclusive s)
    (running : s.threads thread = some (.processNbl pc))
    (threads : next.threads = Function.update s.threads thread (some (.processNbl after)))
    (sends : next.sends = s.sends) (sending : s.sends.sendingNBL = some nbl)
    (once : (seen ++ new).Nodup)
    (busy : ∀ tcb, tcb ∈ next.tx.tcbBusy ↔ tcb ∈ seen ++ new ∨ after.tcb = some tcb)
    (fresh : ∀ tcb, after.tcb = some tcb → tcb ∉ seen ++ new)
    (sent : after.sent (p.nbls nbl) ≤ pc.sent (p.nbls nbl) + new.length) (honest : after.Honest) :
    Spent p next (seen ++ new) := by
  have before := (spent.attempting thread pc running).sent nbl sending
  have still := exclusive.inside running sends threads
  have arrived : next.threads thread = some (.processNbl after) := by
    rw [threads, Function.update_self]
  refine ⟨once, ?_, ?_, ?_⟩
  · intro tcb
    rw [still.held arrived]
    exact busy tcb
  · rw [sends, List.length_append]
    have counted := spent.counted
    omega
  · intro other pc' place
    rw [still.alone arrived other pc' place]
    refine ⟨fresh, ?_, honest⟩
    intro current is
    rw [sends, sending, Option.some.injEq] at is
    rw [sends, List.length_append, ← is]
    omega

theorem Spent.quiet (spent : Spent p next seen)
    (shorter : next.submitted.length ≤ s.submitted.length) :
    Spent p next (seen ++ (added s.submitted next.submitted).toList) := by
  rw [added_none shorter, Option.toList_none, List.append_nil]
  exact spent

theorem Spent.within (spent : Spent p s seen) (exclusive : Exclusive s)
    (running : s.threads thread = some (.processNbl pc))
    (threads : next.threads = Function.update s.threads thread (some (.processNbl after)))
    (sends : next.sends = s.sends) (submitted : next.submitted = s.submitted)
    (sending : s.sends.sendingNBL = some nbl)
    (busy : ∀ tcb, tcb ∈ next.tx.tcbBusy ↔ tcb ∈ seen ∨ after.tcb = some tcb)
    (fresh : ∀ tcb, after.tcb = some tcb → tcb ∉ seen)
    (sent : after.sent (p.nbls nbl) ≤ pc.sent (p.nbls nbl)) (honest : after.Honest) :
    Spent p next (seen ++ (added s.submitted next.submitted).toList) := by
  apply Spent.quiet
  · rw [← List.append_nil seen] at busy fresh ⊢
    exact spent.inside exclusive running threads sends sending (by simpa using spent.once) busy fresh
      sent honest
  · rw [submitted]

theorem Spent.still (spent : Spent p s seen) (exclusive : Exclusive s)
    (running : s.threads thread = some (.processNbl pc))
    (threads : next.threads = Function.update s.threads thread (some (.processNbl after)))
    (sends : next.sends = s.sends) (submitted : next.submitted = s.submitted)
    (sending : s.sends.sendingNBL = some nbl) (busy : next.tx.tcbBusy = s.tx.tcbBusy)
    (hand : after.tcb = pc.tcb) (sent : after.sent (p.nbls nbl) ≤ pc.sent (p.nbls nbl))
    (honest : after.Honest) :
    Spent p next (seen ++ (added s.submitted next.submitted).toList) := by
  refine spent.within exclusive running threads sends submitted sending ?_ ?_ sent honest
  · intro tcb
    rw [busy, hand, spent.busy_running exclusive running]
  · rw [hand]
    exact (spent.attempting thread pc running).fresh

theorem loopPc_tcb (nbl : Nbl) (nb : Nat) : (loopPc nbl nb).tcb = none := by
  unfold loopPc
  split <;> rfl

theorem loopPc_honest (nbl : Nbl) (nb : Nat) : (loopPc nbl nb).Honest := by
  unfold loopPc
  split <;> exact True.intro

theorem loopPc_sent {nbl : Nbl} {nb : Nat} (reached : nb ≤ nbl.netBuffers) :
    (loopPc nbl nb).sent nbl = nb := by
  unfold loopPc
  split
  · rfl
  · rename_i done
    change nbl.netBuffers = nb
    omega

theorem Spent.sent_busy (spent : Spent p s seen) (sent : tcb ∈ seen) : tcb ∈ s.tx.tcbBusy :=
  (spent.busy tcb).mpr (Or.inl sent)

theorem Spent.free (spent : Spent p s seen) (accounting : Accounting p s)
    (among : tcb ∈ s.tx.tcbFree) : tcb ∉ seen := by
  intro sent
  have apart := (List.nodup_append.mp accounting.nodup).2.2
  exact apart tcb among tcb (spent.sent_busy sent) rfl

theorem spent_check (spent : Spent p s seen) (exclusive : Exclusive s)
    (running : s.threads thread = some (.processNbl .check)) (sending : s.sends.sendingNBL = some nbl)
    (stepped : processNblStep p s thread bytes nbl .check = some next) :
    Spent p next (seen ++ (added s.submitted next.submitted).toList) := by
  rw [← Option.some.inj stepped]
  refine spent.still exclusive running rfl rfl rfl sending rfl ?_ ?_ ?_
  · split
    · rfl
    · exact loopPc_tcb _ _
  · split
    · exact Nat.zero_le _
    · rw [loopPc_sent (Nat.zero_le _)]
      exact Nat.zero_le _
  · split
    · exact True.intro
    · exact loopPc_honest _ _

theorem spent_alloc {nb : Nat} (spent : Spent p s seen) (holds : Invariant p s)
    (running : s.threads thread = some (.processNbl (.alloc nb)))
    (sending : s.sends.sendingNBL = some nbl)
    (stepped : processNblStep p s thread bytes nbl (.alloc nb) = some next) :
    Spent p next (seen ++ (added s.submitted next.submitted).toList) := by
  simp only [processNblStep] at stepped
  split at stepped
  · rw [← Option.some.inj stepped]
    exact spent.still holds.exclusive running rfl rfl rfl sending rfl rfl (Nat.zero_le _) True.intro
  · rename_i tcb tx taken
    obtain ⟨free, grown, _⟩ := allocTcbList_taken taken
    rw [← Option.some.inj stepped]
    refine spent.within holds.exclusive running rfl rfl rfl sending ?_ ?_ (Nat.le_refl _) True.intro
    · intro other
      have before := spent.busy_running holds.exclusive running other
      change other ∈ tx.tcbBusy ↔ other ∈ seen ∨ some tcb = some other
      rw [grown, List.mem_cons, before, Option.some.injEq, or_comm, eq_comm (a := other)]
      simp [NblPc.tcb]
    · intro other held
      rw [← Option.some.inj held]
      exact spent.free holds.accounting free

theorem spent_copy {nb : Nat} (spent : Spent p s seen) (exclusive : Exclusive s)
    (running : s.threads thread = some (.processNbl (.copy nb tcb)))
    (sending : s.sends.sendingNBL = some nbl)
    (stepped : processNblStep p s thread bytes nbl (.copy nb tcb) = some next) :
    Spent p next (seen ++ (added s.submitted next.submitted).toList) := by
  rw [← Option.some.inj stepped]
  refine spent.still exclusive running rfl rfl rfl sending rfl ?_ ?_ ?_
  · split
    · rfl
    · rfl
  · split
    · exact Nat.le_refl _
    · exact Nat.zero_le _
  · split
    · exact True.intro
    · rename_i failed
      exact failed

theorem spent_submit {nb : Nat} (spent : Spent p s seen) (holds : Invariant p s)
    (running : s.threads thread = some (.processNbl (.submit nb tcb)))
    (sending : s.sends.sendingNBL = some nbl)
    (stepped : processNblStep p s thread bytes nbl (.submit nb tcb) = some next) :
    Spent p next (seen ++ (added s.submitted next.submitted).toList) := by
  have standing := holds.accounting.running thread _ nbl running sending
  have new := (spent.attempting thread _ running).fresh tcb rfl
  rw [← Option.some.inj stepped]
  change Spent p _ (seen ++ (added s.submitted (tcb :: s.submitted)).toList)
  rw [added_cons]
  refine spent.inside holds.exclusive running rfl rfl sending ?_ ?_
    (NblPc.fresh_of_none (loopPc_tcb _ _)) ?_ (loopPc_honest _ _)
  · rw [Option.toList_some, List.nodup_append]
    refine ⟨spent.once, List.nodup_singleton tcb, ?_⟩
    intro one among other last same
    rw [List.mem_singleton.mp last] at same
    exact new (same ▸ among)
  · intro other
    change other ∈ s.tx.tcbBusy ↔ _
    rw [spent.busy_running holds.exclusive running, loopPc_tcb]
    simp [NblPc.tcb, eq_comm]
  · rw [loopPc_sent standing.more]
    exact Nat.le_refl _

theorem spent_release {rc : NdisStatus} (spent : Spent p s seen) (holds : Invariant p s)
    (running : s.threads thread = some (.processNbl (.release tcb rc)))
    (sending : s.sends.sendingNBL = some nbl)
    (stepped : processNblStep p s thread bytes nbl (.release tcb rc) = some next) :
    Spent p next (seen ++ (added s.submitted next.submitted).toList) := by
  have attempted := spent.attempting thread _ running
  have new := attempted.fresh tcb rfl
  have distinct := (List.nodup_append.mp holds.accounting.nodup).2.1
  rw [← Option.some.inj stepped]
  refine spent.within holds.exclusive running rfl rfl rfl sending ?_ (NblPc.fresh_of_none rfl)
    (Nat.zero_le _) attempted.honest
  intro other
  change other ∈ s.tx.tcbBusy.erase tcb ↔ other ∈ seen ∨ none = some other
  rw [distinct.mem_erase_iff, spent.busy_running holds.exclusive running]
  constructor
  · rintro ⟨different, sent | held⟩
    · exact Or.inl sent
    · exact absurd (Option.some.inj held).symm different
  · rintro (sent | impossible)
    · exact ⟨fun same => new (same ▸ sent), Or.inl sent⟩
    · cases impossible

theorem releaseTcbEvent_busy (tx : Tx) : (releaseTcbEvent tx).tcbBusy = tx.tcbBusy := by
  unfold releaseTcbEvent
  split <;> rfl

theorem spent_releaseEvent {rc : NdisStatus} (spent : Spent p s seen) (exclusive : Exclusive s)
    (running : s.threads thread = some (.processNbl (.releaseEvent rc)))
    (sending : s.sends.sendingNBL = some nbl)
    (stepped : processNblStep p s thread bytes nbl (.releaseEvent rc) = some next) :
    Spent p next (seen ++ (added s.submitted next.submitted).toList) := by
  have failed := (spent.attempting thread _ running).honest
  rw [← Option.some.inj stepped]
  refine spent.still exclusive running rfl rfl rfl sending (releaseTcbEvent_busy s.tx) rfl ?_ True.intro
  change (if rc = .success then (p.nbls nbl).netBuffers else 0) ≤ _
  rw [if_neg failed]
  exact Nat.zero_le _

theorem spent_inside (spent : Spent p s seen) (holds : Invariant p s)
    (running : s.threads thread = some (.processNbl pc)) (sending : s.sends.sendingNBL = some nbl)
    (stepped : processNblStep p s thread bytes nbl pc = some next) :
    Spent p next (seen ++ (added s.submitted next.submitted).toList) := by
  cases pc with
  | check => exact spent_check spent holds.exclusive running sending stepped
  | alloc nb => exact spent_alloc spent holds running sending stepped
  | allocEvent nb tcb =>
    rw [← Option.some.inj stepped]
    exact spent.still holds.exclusive running rfl rfl rfl sending rfl rfl (Nat.le_refl _) True.intro
  | copy nb tcb => exact spent_copy spent holds.exclusive running sending stepped
  | submit nb tcb => exact spent_submit spent holds running sending stepped
  | release tcb rc => exact spent_release spent holds running sending stepped
  | releaseEvent rc => exact spent_releaseEvent spent holds.exclusive running sending stepped
  | finish rc => cases stepped
  | fault => cases stepped

theorem spent_finished {rc : NdisStatus} (spent : Spent p s seen) (holds : Invariant p s)
    (running : s.threads thread = some (.processNbl (.finish rc)))
    (sending : s.sends.sendingNBL = some nbl) : Spent p (finishNbl s thread nbl rc) seen := by
  have nobody := @Exclusive.left _ _ nbl _ holds.exclusive running
  have tx := (finishNbl_frame s thread nbl rc).2.1
  refine ⟨spent.once, ?_, ?_, fun other pc place => absurd place (nobody other pc)⟩
  · intro tcb
    rw [tx, spent.busy_running holds.exclusive running]
    constructor
    · rintro (sent | impossible)
      · exact Or.inl sent
      · cases impossible
    · rintro (sent | ⟨other, pc, place, _⟩)
      · exact Or.inl sent
      · exact absurd place (nobody other pc)
  · have sent := (spent.attempting thread _ running).sent nbl sending
    unfold finishNbl
    split
    · rename_i success
      change s.sends.buffers p.nbls + (if rc = .success then _ else 0) ≤ _ at sent
      rw [if_pos success] at sent
      change (List.map _ (s.sends.succeeded ++ [nbl])).sum ≤ _
      rw [List.map_append, List.sum_append, List.map_singleton, List.sum_singleton]
      exact sent
    · exact spent.counted

theorem submits_of_outcome (outcome : Outcome p s next) :
    added s.submitted next.submitted = none ∨
      ∃ thread nb tcb, s.threads thread = some (.processNbl (.submit nb tcb)) ∧
        added s.submitted next.submitted = some tcb ∧ next.tx = s.tx := by
  have none_of (same : next.submitted = s.submitted) :
      added s.submitted next.submitted = none := added_none (by rw [same])
  cases outcome with
  | aside _ _ submitted _ => exact Or.inl (none_of submitted)
  | rejected _ _ _ _ _ submitted _ => exact Or.inl (none_of submitted)
  | accepted _ _ _ _ _ submitted _ => exact Or.inl (none_of submitted)
  | cancelled _ _ _ _ submitted _ => exact Or.inl (none_of submitted)
  | completion tcb _ after =>
    left
    apply added_none
    rw [after]
    simp only [venetTxCompletion]
    exact List.length_filter_le _ _
  | dequeued thread _ _ _ _ after => exact Or.inl (none_of (by rw [after]; rfl))
  | inside thread bytes nbl pc running _ stepped =>
    cases pc with
    | alloc nb =>
      simp only [processNblStep] at stepped
      split at stepped <;> exact Or.inl (none_of (by rw [← Option.some.inj stepped]; rfl))
    | submit nb tcb =>
      rw [← Option.some.inj stepped]
      exact Or.inr ⟨thread, nb, tcb, running, added_cons _ _, rfl⟩
    | finish rc => cases stepped
    | fault => cases stepped
    | _ => exact Or.inl (none_of (by rw [← Option.some.inj stepped]; rfl))
  | finished thread nbl rc _ _ after =>
    exact Or.inl (none_of (by rw [after, (finishNbl_frame s thread nbl rc).2.2.1]))

theorem transmitted_event {action : Action} (stepped : step p s action = some next) :
    (transmitted p).event s action = added s.submitted next.submitted := by
  change (step p s action).bind _ = _
  rw [stepped]
  rfl

theorem spent_step {action : Action} (spent : Spent p s seen) (holds : Invariant p s)
    (stepped : step p s action = some next) :
    Spent p next (seen ++ ((transmitted p).event s action).toList) := by
  rw [transmitted_event stepped]
  cases step_outcome stepped with
  | aside sends tcbs submitted nbl =>
    exact (spent.beside tcbs (by rw [sends]) (by rw [sends]) nbl).quiet (by rw [submitted])
  | rejected chain status _ sends tcbs submitted nbl =>
    exact (spent.beside tcbs (by rw [sends]; rfl) (by rw [sends]; rfl) nbl).quiet (by rw [submitted])
  | accepted chain _ _ sends tcbs submitted nbl =>
    rw [enqueue_chain] at sends
    exact (spent.beside tcbs (by rw [sends]; rfl) (by rw [sends]; rfl) nbl).quiet (by rw [submitted])
  | cancelled cancelId reason sends tcbs submitted nbl =>
    exact (spent.beside tcbs (by rw [sends]; rfl) (by rw [sends]; rfl) nbl).quiet (by rw [submitted])
  | completion tcb _ after =>
    rw [after]
    obtain ⟨threads, sending⟩ := txCompletion_frame s tcb
    have lists := txCompletion_lists s tcb
    refine Spent.quiet (spent.aside lists.2.1 ?_ ?_ ?_) ?_
    · simp only [venetTxCompletion]
      split <;> rfl
    · intro tcb
      simp only [Held, threads]
    · intro thread pc running
      rw [threads] at running
      exact Or.inr ⟨running, sending⟩
    · simp only [venetTxCompletion]
      exact List.length_filter_le _ _
  | dequeued thread outside idle _ _ after =>
    rw [after]
    have entered : ∀ other pc, Function.update s.threads thread (some (.processNbl .check)) other =
        some (.processNbl pc) → pc = .check := by
      intro other pc running
      rw [Function.update_apply] at running
      split at running
      · rw [Option.some.injEq, Pc.processNbl.injEq] at running
        exact running.symm
      · exact absurd running (holds.exclusive.nobody idle other pc)
    refine Spent.quiet (spent.aside rfl rfl ?_ ?_) (Nat.le_refl _)
    · intro tcb
      refine iff_of_false ?_ (holds.exclusive.none_held idle tcb)
      rintro ⟨other, pc, running, held⟩
      rw [entered other pc running] at held
      cases held
    · intro other pc running
      exact Or.inl (entered other pc running)
  | inside thread bytes nbl pc running sending stepped =>
    exact spent_inside spent holds running sending stepped
  | finished thread nbl rc running sending after =>
    rw [after]
    apply (spent_finished spent holds running sending).quiet
    rw [(finishNbl_frame s thread nbl rc).2.2.1]

theorem spent_start (p : Params) : Spent p (machine p).start [] := by
  refine ⟨List.nodup_nil, ?_, Nat.le_refl _, ?_⟩
  · intro tcb
    refine iff_of_false List.not_mem_nil ?_
    rintro (impossible | ⟨thread, pc, impossible, _⟩)
    · cases impossible
    · cases impossible
  · intro thread pc impossible
    cases impossible

end Step

section Run

variable {p : Params} {actions : List Action} {final : State}

theorem spent_run (ran : (machine p).run (machine p).start actions = some final) :
    Invariant p final ∧ Spent p final ((transmitted p).trace (machine p).start actions) := by
  have kept := @Observed.trace_invariant _ _ _ (transmitted p) _ _ _
    (fun s seen => Invariant p s ∧ Spent p s seen) [] ⟨invariant_initial p, spent_start p⟩
    (fun s action next seen holds stepped => ⟨invariant_step holds.1 (step_outcome stepped),
      spent_step holds.2 holds.1 stepped⟩) ran
  rw [List.nil_append] at kept
  exact kept

end Run

/-- A TCB carries one frame in the life of an adapter: what was handed to the bus is never released, so
    the busy TCBs are just those, and no more frames go out than there are TCBs. -/
theorem tcbs_spent (p : Params) (actions : List Action) (final : State)
    (ran : (machine p).run (machine p).start actions = some final) :
    let sent := (transmitted p).trace (machine p).start actions
    sent.Nodup ∧ (∀ tcb ∈ sent, tcb ∈ final.tx.tcbBusy) ∧
      (final.sends.sendingNBL = none → final.tx.tcbBusy.Perm sent) ∧ sent.length ≤ p.numTcbs ∧
      (final.sends.succeeded.map fun nbl => (p.nbls nbl).netBuffers).sum ≤ sent.length := by
  obtain ⟨holds, spent⟩ := spent_run ran
  have blocks := holds.accounting.partition.length_eq
  have distinct := (List.nodup_append.mp holds.accounting.nodup).2.1
  have within := (spent.once.subperm fun tcb => spent.sent_busy).length_le
  rw [List.length_append, List.length_range] at blocks
  refine ⟨spent.once, fun tcb => spent.sent_busy, ?_, by omega, spent.counted⟩
  intro idle
  rw [List.perm_ext_iff_of_nodup distinct spent.once]
  intro tcb
  rw [spent.busy, or_iff_left (holds.exclusive.none_held idle tcb)]

def sentAndCompleted : List Action :=
  [.sendNetBufs 0 [0]] ++ List.replicate 8 (.run 0 0) ++ [.txCompletion 0]

theorem tcbs_spent_completed :
    let final := ((machine solo).run (machine solo).start sentAndCompleted).get (by decide)
    final.submitted = [] ∧ final.sends.succeeded = [0] ∧ final.tx.tcbBusy.Perm [0] := by
  have spent := tcbs_spent solo sentAndCompleted _ (Option.some_get (by decide)).symm
  have trace : (transmitted solo).trace (machine solo).start sentAndCompleted = [0] := by decide
  refine ⟨by decide, by decide +kernel, ?_⟩
  rw [← trace]
  exact spent.2.2.1 (by decide +kernel)

/-- Neither `VenetReset` nor `VenetRestart` gets to set the send event. -/
def unforced (s : State) : Action → Bool
  | .run thread _ =>
    match s.threads thread with
    | some .resetEvent | some .restartEvent => false
    | _ => true
  | _ => true

structure Waiting (s : State) (seen : List Nat) : Prop where
  event : s.tx.sendEvent = true → s.tx.tcbBusy = [] ∨ Allocating s
  down : seen ≠ [] → s.tx.sendEvent = false

section Pause

variable {p : Params} {s next : State} {action : Action} {seen : List Nat}

theorem Spent.some_busy (spent : Spent p s seen) (sent : seen ≠ []) : s.tx.tcbBusy ≠ [] := by
  obtain ⟨tcb, among⟩ := List.exists_mem_of_ne_nil seen sent
  exact List.ne_nil_of_mem (spent.sent_busy among)

theorem Control.event_set (control : Control s next action) (met : unforced s action = true)
    (set : next.tx.sendEvent = true) : s.tx.sendEvent = true ∨ next.tx.tcbBusy = [] := by
  cases control with
  | kept _ kept _ => exact kept.event set
  | event thread bytes pc running _ =>
    rcases running with running | running
    · simp [unforced, running] at met
    · simp [unforced, running] at met
  | pauseReturns thread bytes _ event _ => exact Or.inl event
  | unpaused thread bytes _ after =>
    rw [after] at set
    exact Or.inl set

theorem Waiting.submits {thread nb tcb : Nat} (waiting : Waiting s seen) (holds : Invariant p s)
    (running : s.threads thread = some (.processNbl (.submit nb tcb))) :
    s.tx.sendEvent = false := by
  obtain ⟨nbl, sending⟩ := Option.ne_none_iff_exists'.mp (holds.exclusive.sending thread _ running)
  have busy := (holds.accounting.running thread _ nbl running sending).busy
  rw [Bool.eq_false_iff]
  intro set
  rcases waiting.event set with empty | allocating
  · rw [empty] at busy
    cases busy
  · exact not_allocating holds.exclusive running (by simp) allocating

theorem waiting_step (waiting : Waiting s seen) (spent : Spent p s seen) (holds : Invariant p s)
    (met : unforced s action = true) (stepped : step p s action = some next) :
    Waiting next (seen ++ ((transmitted p).event s action).toList) := by
  have outcome := step_outcome stepped
  have after := spent_step spent holds stepped
  refine ⟨?_, ?_⟩
  · intro set
    rcases (step_control stepped).event_set met set with before | empty
    · exact busy_step holds.exclusive outcome set (waiting.event before)
    · exact Or.inl empty
  · intro sent
    rw [Bool.eq_false_iff]
    intro set
    have before := ((step_control stepped).event_set met set).resolve_right (after.some_busy sent)
    rw [transmitted_event stepped] at sent
    rcases submits_of_outcome outcome with none | ⟨thread, nb, tcb, running, _, _⟩
    · rw [none, Option.toList_none, List.append_nil] at sent
      exact Bool.false_ne_true ((waiting.down sent).symm.trans before)
    · exact Bool.false_ne_true ((waiting.submits holds running).symm.trans before)

end Pause

/-- Once a frame went out, `VenetPause` waits for an event that nothing but a reset or a restart
    sets: the TCB of that frame stays busy. -/
theorem pause_waits_for_ever (p : Params) (actions : List Action) (final : State)
    (met : (machine p).Meets (fun s action => unforced s action = true) (machine p).start actions)
    (ran : (machine p).run (machine p).start actions = some final)
    (sent : (transmitted p).trace (machine p).start actions ≠ []) (thread bytes : Nat)
    (waits : final.threads thread = some .pauseWait) : step p final (.run thread bytes) = none := by
  have kept := @Observed.trace_guarded _ _ _ (transmitted p) _ _ _
    (fun s action => unforced s action = true)
    (fun s seen => Invariant p s ∧ Spent p s seen ∧ Waiting s seen) []
    ⟨invariant_initial p, spent_start p, fun _ => Or.inl rfl, fun sent => absurd rfl sent⟩
    (fun s action next seen holds met stepped => ⟨invariant_step holds.1 (step_outcome stepped),
      spent_step holds.2.1 holds.1 stepped,
      waiting_step holds.2.2 holds.2.1 holds.1 met stepped⟩) met ran
  have down := kept.2.2.down sent
  simp [step, waits, threadStep, down]

def sentAndPaused : List Action :=
  [.sendNetBufs 0 [0]] ++ List.replicate 8 (.run 0 0) ++ [.pause 1, .run 1 0]

theorem pause_waits_for_ever_sent :
    let final := ((machine solo).run (machine solo).start sentAndPaused).get (by decide)
    final.threads 1 = some .pauseWait ∧ final.threads 0 = none ∧ step solo final (.run 1 0) = none := by
  refine ⟨by decide, by decide, ?_⟩
  refine pause_waits_for_ever solo sentAndPaused _ ?_ (Option.some_get (by decide)).symm (by decide)
    1 0 (by decide)
  apply Machine.meets_of_checks (fun _ _ met => met)
  decide

end Venet
