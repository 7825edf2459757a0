import AlacrityDrivers.Venet.ProcessNbl
import AlacrityDrivers.Venet.TcbAccounting

namespace Venet

open Transition

/-- What `SrProcessNBL` returns for an accepted NBL with some `NET_BUFFER`s, with the count that
    `VenetSendNetBufs` has recorded for it. -/
def State.processStatus (s : State) (nbl : Nat) (buffers : List NetBuffer) (priority : BitVec 32) :
    Option NdisStatus :=
  if s.tx.numTCBsFree < s.sends.reserved nbl then some .resources
  else
    (processNblLoop nbl (buffers.map fun nb => ⟨srCopyFrame nb priority, srSubmitTCB⟩)
      ⟨s.tx, []⟩).map Prod.fst

/-- The NBL is not refused for want of TCBs, whatever its `NET_BUFFER`s hold. -/
def Proceeds (p : Params) (s : State) (nbl : Nat) : Prop :=
  ∀ buffers priority, buffers.length = (p.nbls nbl).netBuffers →
    s.processStatus nbl buffers priority ≠ some .resources

def NblPc.admitted : NblPc → Bool
  | .check => false
  | .finish rc => rc == .success
  | _ => true

structure Sized (p : Params) (s : State) : Prop where
  running : ∀ thread pc nbl, s.threads thread = some (.processNbl pc) →
    s.sends.sendingNBL = some nbl → pc.admitted = true → (p.nbls nbl).netBuffers ≤ p.numTcbs
  sent : ∀ nbl, nbl ∈ s.sends.succeeded → (p.nbls nbl).netBuffers ≤ p.numTcbs

section Refusal

variable {p : Params} {s : State} {nbl : Nat}

theorem attempt_not_resources (nb : NetBuffer) (priority : BitVec 32) :
    Attempt.status ⟨srCopyFrame nb priority, srSubmitTCB⟩ ≠ .resources := by
  unfold Attempt.status copyStatus
  split
  · split
    · exact nofun
    · exact nofun
  · exact nofun

theorem loop_not_resources (nbl : Nat) (buffers : List NetBuffer) (priority : BitVec 32)
    (s : Transmit) :
    (processNblLoop nbl (buffers.map fun nb => ⟨srCopyFrame nb priority, srSubmitTCB⟩) s).map Prod.fst
      ≠ some .resources := by
  cases processNblLoop_end nbl (buffers.map fun nb => ⟨srCopyFrame nb priority, srSubmitTCB⟩) s with
  | sent after tcbs sentOn succeeded returned =>
    rw [returned]
    exact nofun
  | failed sent attempt rest after tcbs split sentOn succeeded fails free returned =>
    have among : attempt ∈ buffers.map fun nb => (⟨srCopyFrame nb priority, srSubmitTCB⟩ : Attempt) := by
      rw [split]
      simp
    rcases List.mem_map.mp among with ⟨nb, _, made⟩
    rw [returned, ← made]
    intro resources
    exact attempt_not_resources nb priority (Option.some.inj resources)
  | exhausted few succeeded faulted =>
    rw [faulted]
    exact nofun

theorem processStatus_resources (s : State) (nbl : Nat) (buffers : List NetBuffer)
    (priority : BitVec 32) :
    s.processStatus nbl buffers priority = some .resources ↔
      s.tx.numTCBsFree < s.sends.reserved nbl := by
  unfold State.processStatus
  split
  · rename_i few
    exact iff_of_true rfl few
  · rename_i enough
    exact iff_of_false (loop_not_resources nbl buffers priority _) enough

theorem Invariant.all_free (holds : Invariant p s) (idle : s.tx.tcbBusy = []) :
    s.tx.numTCBsFree = p.numTcbs := by
  have rest : ¬ Allocating s := by
    intro allocating
    rcases allocating with ⟨thread, nb, tcb, place⟩
    rcases Option.ne_none_iff_exists'.mp (holds.exclusive.sending thread _ place) with ⟨nbl, sending⟩
    have holding : Holding s (p.nbls nbl) nb tcb := holds.accounting.running thread _ nbl place sending
    have busy := holding.busy
    rw [idle] at busy
    cases busy
  have partition := holds.accounting.partition
  rw [idle, List.append_nil] at partition
  rw [holds.accounting.counter rest, partition.length_eq, List.length_range]

/-- With all TCBs free, `SrProcessNBL` refuses exactly the NBLs that have more `NET_BUFFER`s than
    there are TCBs. `VenetSendNetBufs` accepts these as well. -/
theorem accepted_nbl_proceeds_iff (p : Params) (s : State) (nbl : Nat)
    (reached : (machine p).Reachable s) (accepted : nbl ∈ s.sends.accepted)
    (idle : s.tx.tcbBusy = []) :
    Proceeds p s nbl ↔ (p.nbls nbl).netBuffers ≤ p.numTcbs := by
  have holds := reachable_invariant reached
  rcases holds.ledger with ⟨queue, ledger⟩
  have free : s.tx.numTCBsFree = p.numTcbs := holds.all_free idle
  have counted : s.sends.reserved nbl = (p.nbls nbl).netBuffers := ledger.counts nbl accepted
  constructor
  · intro proceeds
    have passes := proceeds (List.replicate (p.nbls nbl).netBuffers ⟨[], 0, 0⟩) 0#32
      List.length_replicate
    rw [Ne, processStatus_resources, free, counted] at passes
    exact Nat.not_lt.mp passes
  · intro fits buffers priority _
    rw [Ne, processStatus_resources, free, counted]
    exact Nat.not_lt.mpr fits

theorem accepted_nbl_proceeds_iff_pair :
    let s := ((machine pairs).run (machine pairs).start [.sendNetBufs 0 [0]]).get (by decide)
    Proceeds pairs s 0 ↔ 2 ≤ 3 :=
  accepted_nbl_proceeds_iff pairs _ 0 (Machine.reachable_get [Action.sendNetBufs 0 [0]] (by decide))
    (by decide) (by decide)

def nicMaxBusySends : Nat := 20

def oversized : Params := ⟨fun nbl => ⟨nbl + 1, 21, by decide⟩, nicMaxBusySends, true⟩

theorem oversized_nbl_refused :
    let s := ((machine oversized).run (machine oversized).start [.sendNetBufs 0 [0]]).get (by decide)
    0 ∈ s.sends.accepted ∧ s.tx.tcbBusy = [] ∧ ¬ Proceeds oversized s 0 := by
  refine ⟨by decide, by decide, ?_⟩
  intro proceeds
  have passes := proceeds (List.replicate 21 ⟨[⟨[1], true⟩], 0, 1⟩) 0#32 rfl
  rw [Ne, processStatus_resources] at passes
  exact passes (by decide)

end Refusal

section Run

variable {p : Params} {s next : State} {thread bytes nbl : Nat} {pc : NblPc}

theorem Sized.same (sized : Sized p s) (same : SameNbl s next)
    (sending : next.sends.sendingNBL = s.sends.sendingNBL)
    (succeeded : next.sends.succeeded = s.sends.succeeded) : Sized p next where
  running := by
    intro thread pc nbl place current
    rw [sending] at current
    exact sized.running thread pc nbl ((same thread pc).mp place) current
  sent := by
    rw [succeeded]
    exact sized.sent

theorem check_sized (holds : Invariant p s) (running : s.threads thread = some (.processNbl .check))
    (sending : s.sends.sendingNBL = some nbl)
    (passes : ¬ s.tx.numTCBsFree < s.sends.reserved nbl) : (p.nbls nbl).netBuffers ≤ p.numTcbs := by
  rcases holds.ledger with ⟨queue, ledger⟩
  have counted := ledger.counts nbl (ledger.sending_accepted sending)
  have counter := holds.accounting.counter (not_allocating holds.exclusive running (by simp))
  have whole := holds.accounting.partition.length_eq
  rw [List.length_append, List.length_range] at whole
  omega

theorem inside_admitted (holds : Invariant p s) (sized : Sized p s)
    (running : s.threads thread = some (.processNbl pc)) (sending : s.sends.sendingNBL = some nbl)
    (stepped : processNblStep p s thread bytes nbl pc = some next) {after : NblPc}
    (place : next.threads thread = some (.processNbl after)) (admitted : after.admitted = true) :
    (p.nbls nbl).netBuffers ≤ p.numTcbs := by
  cases pc with
  | check =>
    simp only [processNblStep, Option.some.injEq] at stepped
    rw [← stepped, goto_same, Option.some.injEq, Pc.processNbl.injEq] at place
    apply check_sized holds running sending
    intro few
    rw [if_pos few] at place
    rw [← place] at admitted
    exact absurd admitted (by decide)
  | finish rc => cases stepped
  | fault => cases stepped
  | _ => exact sized.running thread _ nbl running sending rfl

theorem sized_step (holds : Invariant p s) (sized : Sized p s) (outcome : Outcome p s next) :
    Sized p next := by
  cases outcome with
  | aside sends _ _ nbl => exact sized.same nbl (by rw [sends]) (by rw [sends])
  | rejected chain status _ sends _ _ nbl =>
    exact sized.same nbl (by rw [sends]; rfl) (by rw [sends]; rfl)
  | accepted chain _ _ sends _ _ nbl =>
    exact sized.same nbl (by rw [sends, enqueue_chain]; rfl) (by rw [sends, enqueue_chain]; rfl)
  | cancelled cancelId reason sends _ _ nbl =>
    exact sized.same nbl (by rw [sends]; rfl) (by rw [sends]; rfl)
  | completion tcb outstanding after =>
    have sends := completion_sends holds.accounting outstanding
    rw [after]
    exact sized.same (sameNbl_rfl (txCompletion_frame s tcb).1) (by rw [sends]) (by rw [sends])
  | dequeued thread _ idle _ _ after =>
    rw [after]
    refine ⟨?_, sized.sent⟩
    intro other pc nbl place _ admitted
    by_cases same : other = thread
    · rw [same, goto_same, Option.some.injEq, Pc.processNbl.injEq] at place
      rw [← place] at admitted
      cases admitted
    · rw [goto_other _ _ same] at place
      exact absurd place (holds.exclusive.nobody idle other pc)
  | inside thread bytes nbl pc running sending stepped =>
    rcases processNblStep_frame stepped with ⟨sends, _, threads⟩
    refine ⟨?_, by rw [sends]; exact sized.sent⟩
    intro other pc' found place current admitted
    rw [sends, sending, Option.some.injEq] at current
    rw [← current]
    by_cases same : other = thread
    · rw [same] at place
      exact inside_admitted holds sized running sending stepped place admitted
    · rw [threads, Function.update_of_ne same] at place
      exact absurd (holds.exclusive.unique other thread _ _ place running) same
  | finished thread nbl rc running sending after =>
    rcases finishNbl_frame s thread nbl rc with ⟨none, _, _, _, _, _⟩
    rw [after]
    refine ⟨?_, ?_⟩
    · intro other pc found _ current
      rw [none] at current
      cases current
    · unfold finishNbl
      split
      · rename_i success
        intro other among
        rcases List.mem_append.mp among with earlier | now
        · exact sized.sent other earlier
        · rw [List.mem_singleton.mp now]
          apply sized.running thread _ nbl running sending
          rw [success]
          rfl
      · exact sized.sent

theorem sized_start (p : Params) : Sized p (machine p).start where
  running := by
    intro thread pc nbl impossible
    cases impossible
  sent := by
    intro nbl impossible
    cases impossible

theorem reachable_sized (reached : (machine p).Reachable s) : Invariant p s ∧ Sized p s := by
  apply Machine.Reachable.invariant reached ⟨invariant_initial p, sized_start p⟩
  intro s action next holds stepped
  have outcome := step_outcome stepped
  exact ⟨invariant_step holds.1 outcome, sized_step holds.1 holds.2 outcome⟩

theorem Invariant.unsent_blocks (holds : Invariant p s) {front back : List Nat}
    (accepted : s.sends.accepted = front ++ nbl :: back) (kept : nbl ∉ s.sends.cancelled)
    (unsent : nbl ∉ s.sends.succeeded) : ∀ other, other ∈ back → other ∉ s.sends.succeeded := by
  rcases holds.ledger with ⟨queue, ledger⟩
  intro other later sent
  have known : nbl ∈ s.sends.accepted := by
    rw [accepted]
    simp
  have waits : nbl ∈ s.sends.sendingNBL.toList ++ queue := by
    rcases List.mem_append.mp (ledger.accepted.mem_iff.mp known) with owned | cancelled
    · exact (List.mem_append.mp owned).resolve_left unsent
    · exact absurd cancelled kept
  have pair : [other, nbl].Sublist s.sends.accepted := by
    apply List.Sublist.trans _ ledger.order
    exact (List.singleton_sublist.mpr sent).append (List.singleton_sublist.mpr waits)
  have nodup := ledger.acceptedNodup
  rw [accepted] at pair nodup
  exact Lists.pair_not_reversed nodup later pair

/-- An accepted NBL with more `NET_BUFFER`s than TCBs is sent in no run, and until it is cancelled
    nothing that was accepted behind it is sent either. -/
theorem oversized_blocks (reached : (machine p).Reachable s)
    (large : p.numTcbs < (p.nbls nbl).netBuffers) {front back : List Nat}
    (accepted : s.sends.accepted = front ++ nbl :: back) (kept : nbl ∉ s.sends.cancelled) :
    nbl ∉ s.sends.succeeded ∧ ∀ other, other ∈ back → other ∉ s.sends.succeeded := by
  rcases reachable_sized reached with ⟨holds, sized⟩
  have unsent : nbl ∉ s.sends.succeeded := fun sent => absurd (sized.sent nbl sent) (Nat.not_le.mpr large)
  exact ⟨unsent, holds.unsent_blocks accepted kept unsent⟩

end Run

end Venet
