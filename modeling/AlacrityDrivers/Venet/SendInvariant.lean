import AlacrityDrivers.Venet.Ledger
import AlacrityDrivers.Venet.SendStep

namespace Venet

open Transition

/-- `sendingNBL` is the mutex of `SrProcessNBL`. -/
structure Exclusive (s : State) : Prop where
  sending : ∀ thread pc, s.threads thread = some (.processNbl pc) → s.sends.sendingNBL ≠ none
  unique : ∀ first second pc pc', s.threads first = some (.processNbl pc) →
    s.threads second = some (.processNbl pc') → first = second

/-- The thread inside `SrProcessNBL` has a TCB that the bus does not know yet, and there are enough
    free ones for the `NET_BUFFER`s after `nb`. -/
@[mk_iff holding_iff]
structure Holding (s : State) (nbl : Nbl) (nb tcb : Nat) : Prop where
  more : nb < nbl.netBuffers
  enough : nbl.netBuffers ≤ nb + 1 + s.tx.tcbFree.length
  busy : tcb ∈ s.tx.tcbBusy
  unknown : tcb ∉ s.submitted
  zero : (s.tx.tcbs tcb).nbCount = 0

def NblAt (s : State) (nbl : Nbl) : NblPc → Prop
  | .check => True
  | .alloc nb => nb < nbl.netBuffers ∧ nbl.netBuffers ≤ nb + s.tx.tcbFree.length
  | .allocEvent nb tcb => Holding s nbl nb tcb
  | .copy nb tcb => Holding s nbl nb tcb
  | .submit nb tcb => Holding s nbl nb tcb
  | .release tcb _ => tcb ∈ s.tx.tcbBusy ∧ tcb ∉ s.submitted
  | .releaseEvent _ => True
  | .finish _ => True
  | .fault => False

def Allocating (s : State) : Prop :=
  ∃ thread nb tcb, s.threads thread = some (.processNbl (.allocEvent nb tcb))

structure Accounting (p : Params) (s : State) : Prop where
  partition : (s.tx.tcbFree ++ s.tx.tcbBusy).Perm (List.range p.numTcbs)
  counter : ¬ Allocating s → s.tx.numTCBsFree = s.tx.tcbFree.length
  ahead : Allocating s → s.tx.numTCBsFree = s.tx.tcbFree.length + 1
  submitted : ∀ tcb, tcb ∈ s.submitted → tcb ∈ s.tx.tcbBusy ∧ (s.tx.tcbs tcb).nbCount = 0
  running : ∀ thread pc nbl, s.threads thread = some (.processNbl pc) →
    s.sends.sendingNBL = some nbl → NblAt s (p.nbls nbl) pc

structure Invariant (p : Params) (s : State) : Prop where
  ledger : ∃ queue, Ledger p.nbls s.sends queue
  exclusive : Exclusive s
  accounting : Accounting p s

section Frame

variable {p : Params} {s next : State} {thread bytes nbl : Nat} {pc : NblPc}

theorem processNblStep_frame (stepped : processNblStep p s thread bytes nbl pc = some next) :
    next.sends = s.sends ∧
      ∃ after, next.threads = Function.update s.threads thread (some (.processNbl after)) := by
  cases pc with
  | alloc nb =>
    simp only [processNblStep] at stepped
    split at stepped
    · rw [← Option.some.inj stepped]
      exact ⟨rfl, _, rfl⟩
    · rw [← Option.some.inj stepped]
      exact ⟨rfl, _, rfl⟩
  | finish rc => cases stepped
  | fault => cases stepped
  | _ =>
    rw [← Option.some.inj stepped]
    exact ⟨rfl, _, rfl⟩

theorem txCompletion_frame (s : State) (tcb : Nat) :
    (venetTxCompletion s tcb).threads = s.threads ∧
      (venetTxCompletion s tcb).sends.sendingNBL = s.sends.sendingNBL := by
  simp only [venetTxCompletion, true_and]
  split
  · rfl
  · rfl

theorem txCompletion_lists (s : State) (tcb : Nat) :
    (venetTxCompletion s tcb).tx.tcbFree = s.tx.tcbFree ∧
      (venetTxCompletion s tcb).tx.tcbBusy = s.tx.tcbBusy ∧
      (venetTxCompletion s tcb).tx.numTCBsFree = s.tx.numTCBsFree := by
  simp only [venetTxCompletion, and_self]

theorem txCompletion_tcbs (s : State) {tcb other : Nat} (different : other ≠ tcb) :
    (venetTxCompletion s tcb).tx.tcbs other = s.tx.tcbs other := by
  simp only [venetTxCompletion, Function.update_of_ne different]

theorem txCompletion_submitted (s : State) (tcb other : Nat) :
    other ∈ (venetTxCompletion s tcb).submitted ↔ other ∈ s.submitted ∧ other ≠ tcb := by
  simp only [venetTxCompletion, List.mem_filter, decide_eq_true_eq]

theorem finishNbl_frame (s : State) (thread nbl : Nat) (rc : NdisStatus) :
    (finishNbl s thread nbl rc).sends.sendingNBL = none ∧ (finishNbl s thread nbl rc).tx = s.tx ∧
      (finishNbl s thread nbl rc).submitted = s.submitted ∧
      ∃ after, (∀ pc, after ≠ some (.processNbl pc)) ∧
        (finishNbl s thread nbl rc).threads = Function.update s.threads thread after := by
  unfold finishNbl
  split
  · exact ⟨rfl, rfl, rfl, _, by simp, rfl⟩
  · exact ⟨rfl, rfl, rfl, _, by simp, rfl⟩

theorem deque_some {m : QueueMemory} (nonempty : queueEmpty m.queue = false) :
    ∃ nbl, (queueDeque m).1 = some nbl := by
  cases head : m.queue.head with
  | none => simp [queueEmpty, head] at nonempty
  | some nbl => exact ⟨nbl, by simp [queueDeque, head]⟩

end Frame

section Exclusive

variable {p : Params} {s next : State}

theorem Exclusive.same (exclusive : Exclusive s) (nbl : SameNbl s next)
    (sending : next.sends.sendingNBL = s.sends.sendingNBL) : Exclusive next := by
  refine ⟨?_, ?_⟩
  · intro thread pc running
    rw [sending]
    exact exclusive.sending thread pc ((nbl thread pc).mp running)
  · intro first second pc pc' one two
    exact exclusive.unique first second pc pc' ((nbl first pc).mp one) ((nbl second pc').mp two)

theorem Exclusive.nobody (exclusive : Exclusive s) (idle : s.sends.sendingNBL = none) (thread : Nat)
    (pc : NblPc) : s.threads thread ≠ some (.processNbl pc) := by
  intro running
  exact exclusive.sending thread pc running idle

theorem Exclusive.not_allocating (exclusive : Exclusive s) (idle : s.sends.sendingNBL = none) :
    ¬ Allocating s := by
  intro allocating
  rcases allocating with ⟨thread, nb, tcb, place⟩
  exact exclusive.nobody idle thread _ place

theorem Exclusive.dequeued {thread : Nat} (exclusive : Exclusive s)
    (idle : s.sends.sendingNBL = none) (sending : next.sends.sendingNBL ≠ none)
    (threads : next.threads = Function.update s.threads thread (some (.processNbl .check))) :
    Exclusive next := by
  have alone : ∀ other pc, next.threads other = some (.processNbl pc) → other = thread := by
    intro other pc running
    by_contra different
    rw [threads, Function.update_of_ne different] at running
    exact exclusive.nobody idle other pc running
  refine ⟨fun _ _ _ => sending, ?_⟩
  intro first second pc pc' one two
  rw [alone first pc one, alone second pc' two]

theorem Exclusive.inside {thread : Nat} {pc after : NblPc} (exclusive : Exclusive s)
    (running : s.threads thread = some (.processNbl pc)) (sends : next.sends = s.sends)
    (threads : next.threads = Function.update s.threads thread (some (.processNbl after))) :
    Exclusive next := by
  have before : ∀ other pc', next.threads other = some (.processNbl pc') →
      ∃ pc, s.threads other = some (.processNbl pc) := by
    intro other pc' place
    rw [threads, Function.update_apply] at place
    split at place
    · rename_i same
      exact ⟨pc, by rw [same]; exact running⟩
    · exact ⟨pc', place⟩
  refine ⟨?_, ?_⟩
  · intro other pc' place
    rw [sends]
    exact exclusive.sending thread pc running
  · intro first second pc pc' one two
    rcases before first pc one with ⟨_, one⟩
    rcases before second pc' two with ⟨_, two⟩
    exact exclusive.unique first second _ _ one two

theorem exclusive_step (exclusive : Exclusive s) (outcome : Outcome p s next) : Exclusive next := by
  cases outcome with
  | aside sends _ _ nbl => exact exclusive.same nbl (by rw [sends])
  | rejected chain status _ sends _ _ nbl => exact exclusive.same nbl (by rw [sends]; rfl)
  | accepted chain _ _ sends _ _ nbl =>
    exact exclusive.same nbl (by rw [sends, enqueue_chain]; rfl)
  | cancelled cancelId reason sends _ _ nbl => exact exclusive.same nbl (by rw [sends]; rfl)
  | completion tcb _ after =>
    rcases txCompletion_frame s tcb with ⟨threads, sending⟩
    rw [after]
    exact exclusive.same (sameNbl_rfl threads) sending
  | dequeued thread _ idle nonempty _ after =>
    rcases deque_some nonempty with ⟨nbl, removed⟩
    have sending : next.sends.sendingNBL ≠ none := by
      rw [after]
      change (queueDeque s.sends.memory).1 ≠ none
      rw [removed]
      simp
    exact exclusive.dequeued idle sending (by rw [after]; rfl)
  | inside thread bytes nbl pc running _ stepped =>
    rcases processNblStep_frame stepped with ⟨sends, after, threads⟩
    exact exclusive.inside running sends threads
  | finished thread nbl rc running sending after =>
    rcases finishNbl_frame s thread nbl rc with ⟨_, _, _, new, outside, threads⟩
    have nobody : ∀ other pc, next.threads other ≠ some (.processNbl pc) := by
      intro other pc place
      rw [after, threads, Function.update_apply] at place
      split at place
      · exact outside pc place
      · rename_i different
        exact different (exclusive.unique other thread _ _ place running)
    exact ⟨fun other pc place => absurd place (nobody other pc),
      fun first _ pc _ place => absurd place (nobody first pc)⟩

end Exclusive

section Accounting

variable {p : Params} {s next : State} {thread bytes nbl : Nat} {pc after : NblPc}

theorem holding_same {nbl : Nbl} {nb tcb : Nat} (tcbs : SameTcbs s.tx next.tx)
    (submitted : next.submitted = s.submitted) : Holding next nbl nb tcb ↔ Holding s nbl nb tcb := by
  simp only [holding_iff, tcbs.tcbs, tcbs.tcbFree, tcbs.tcbBusy, submitted]

theorem nblAt_same {nbl : Nbl} (tcbs : SameTcbs s.tx next.tx)
    (submitted : next.submitted = s.submitted) : NblAt next nbl pc ↔ NblAt s nbl pc := by
  cases pc <;> simp only [NblAt, holding_same tcbs submitted, tcbs.tcbFree, tcbs.tcbBusy, submitted]

theorem Allocating.same (same : SameNbl s next) : Allocating next ↔ Allocating s := by
  constructor
  · intro allocating
    rcases allocating with ⟨thread, nb, tcb, place⟩
    exact ⟨thread, nb, tcb, (same thread _).mp place⟩
  · intro allocating
    rcases allocating with ⟨thread, nb, tcb, place⟩
    exact ⟨thread, nb, tcb, (same thread _).mpr place⟩

theorem Accounting.same (accounting : Accounting p s) (tcbs : SameTcbs s.tx next.tx)
    (submitted : next.submitted = s.submitted) (same : SameNbl s next)
    (sending : next.sends.sendingNBL = s.sends.sendingNBL) : Accounting p next := by
  refine ⟨?_, ?_, ?_, ?_, ?_⟩
  · rw [tcbs.tcbFree, tcbs.tcbBusy]
    exact accounting.partition
  · rw [Allocating.same same, tcbs.numTCBsFree, tcbs.tcbFree]
    exact accounting.counter
  · rw [Allocating.same same, tcbs.numTCBsFree, tcbs.tcbFree]
    exact accounting.ahead
  · rw [submitted, tcbs.tcbBusy, tcbs.tcbs]
    exact accounting.submitted
  · intro thread pc nbl place current
    rw [sending] at current
    rw [nblAt_same tcbs submitted]
    exact accounting.running thread pc nbl ((same thread pc).mp place) current

theorem Accounting.empty (accounting : Accounting p s) (rest : ¬ Allocating s)
    (tcbs : SameTcbs s.tx next.tx) (submitted : next.submitted = s.submitted)
    (places : ∀ thread pc, next.threads thread = some (.processNbl pc) → pc = .check) :
    Accounting p next := by
  have idle : ¬ Allocating next := by
    intro allocating
    rcases allocating with ⟨thread, nb, tcb, place⟩
    cases places thread _ place
  refine ⟨?_, ?_, ?_, ?_, ?_⟩
  · rw [tcbs.tcbFree, tcbs.tcbBusy]
    exact accounting.partition
  · intro _
    rw [tcbs.numTCBsFree, tcbs.tcbFree]
    exact accounting.counter rest
  · intro allocating
    exact absurd allocating idle
  · rw [submitted, tcbs.tcbBusy, tcbs.tcbs]
    exact accounting.submitted
  · intro thread pc nbl place _
    rw [places thread pc place]
    exact True.intro

theorem Accounting.moved (exclusive : Exclusive s)
    (running : s.threads thread = some (.processNbl pc))
    (threads : next.threads = Function.update s.threads thread (some (.processNbl after)))
    (sending : next.sends.sendingNBL = some nbl)
    (partition : (next.tx.tcbFree ++ next.tx.tcbBusy).Perm (List.range p.numTcbs))
    (counter : (∀ nb tcb, after ≠ .allocEvent nb tcb) →
      next.tx.numTCBsFree = next.tx.tcbFree.length)
    (ahead : (∃ nb tcb, after = .allocEvent nb tcb) →
      next.tx.numTCBsFree = next.tx.tcbFree.length + 1)
    (submitted : ∀ tcb, tcb ∈ next.submitted →
      tcb ∈ next.tx.tcbBusy ∧ (next.tx.tcbs tcb).nbCount = 0)
    (standing : NblAt next (p.nbls nbl) after) : Accounting p next := by
  have alone : ∀ other pc', next.threads other = some (.processNbl pc') → pc' = after := by
    intro other pc' place
    rw [threads, Function.update_apply] at place
    split at place
    · simpa using place.symm
    · rename_i different
      exact absurd (exclusive.unique other thread _ _ place running) different
  refine ⟨partition, ?_, ?_, submitted, ?_⟩
  · intro idle
    apply counter
    intro nb tcb same
    exact idle ⟨thread, nb, tcb, by rw [threads, Function.update_self, same]⟩
  · intro allocating
    rcases allocating with ⟨other, nb, tcb, place⟩
    exact ahead ⟨nb, tcb, (alone other _ place).symm⟩
  · intro other pc' found place current
    rw [alone other pc' place]
    rw [sending, Option.some.injEq] at current
    rw [← current]
    exact standing

theorem loopPc_standing {nbl : Nbl} {nb : Nat} (enough : nbl.netBuffers ≤ nb + s.tx.tcbFree.length) :
    NblAt s nbl (loopPc nbl nb) := by
  unfold loopPc
  split
  · rename_i more
    exact ⟨more, enough⟩
  · exact True.intro

theorem loopPc_ne (nbl : Nbl) (start nb tcb : Nat) : loopPc nbl start ≠ .allocEvent nb tcb := by
  unfold loopPc
  split <;> simp

theorem not_allocating (exclusive : Exclusive s) (running : s.threads thread = some (.processNbl pc))
    (other : ∀ nb tcb, pc ≠ .allocEvent nb tcb) : ¬ Allocating s := by
  intro allocating
  rcases allocating with ⟨second, nb, tcb, place⟩
  have same := exclusive.unique second thread _ _ place running
  rw [same, running, Option.some.injEq, Pc.processNbl.injEq] at place
  exact other nb tcb place

theorem Accounting.nodup (accounting : Accounting p s) : (s.tx.tcbFree ++ s.tx.tcbBusy).Nodup :=
  accounting.partition.nodup_iff.mpr List.nodup_range

theorem alloc_accounting {nb : Nat} (accounting : Accounting p s) (exclusive : Exclusive s)
    (running : s.threads thread = some (.processNbl (.alloc nb)))
    (sending : s.sends.sendingNBL = some nbl)
    (stepped : processNblStep p s thread bytes nbl (.alloc nb) = some next) : Accounting p next := by
  rcases accounting.running thread _ nbl running sending with ⟨more, enough⟩
  have count := accounting.counter (not_allocating exclusive running (by simp))
  have nodup := accounting.nodup
  have partition := accounting.partition
  cases free : s.tx.tcbFree with
  | nil =>
    rw [free, List.length_nil] at enough
    omega
  | cons tcb rest =>
    rw [free] at enough count nodup partition
    have fresh : tcb ∉ s.tx.tcbBusy := by
      intro busy
      exact (List.nodup_cons.mp nodup).1 (List.mem_append_right _ busy)
    have unknown : tcb ∉ s.submitted := fun known => fresh (accounting.submitted tcb known).1
    simp only [processNblStep, allocTcbList, free, Option.some.injEq] at stepped
    rw [← stepped]
    refine Accounting.moved exclusive running rfl sending ?_ ?_ ?_ ?_ ?_
    · exact List.perm_middle.trans partition
    · intro other
      exact absurd rfl (other nb tcb)
    · intro _
      exact count
    · intro other known
      rcases accounting.submitted other known with ⟨busy, zero⟩
      refine ⟨List.mem_cons_of_mem _ busy, ?_⟩
      have different : other ≠ tcb := by
        intro same
        exact unknown (same ▸ known)
      simpa [State.goto, different] using zero
    · simp only [List.length_cons] at enough
      refine ⟨more, ?_, List.mem_cons_self, unknown, ?_⟩
      · change (p.nbls nbl).netBuffers ≤ nb + 1 + rest.length
        omega
      · simp [State.goto]

theorem release_accounting {tcb : Nat} {rc : NdisStatus} (accounting : Accounting p s)
    (exclusive : Exclusive s) (running : s.threads thread = some (.processNbl (.release tcb rc)))
    (sending : s.sends.sendingNBL = some nbl)
    (stepped : processNblStep p s thread bytes nbl (.release tcb rc) = some next) :
    Accounting p next := by
  rcases accounting.running thread _ nbl running sending with ⟨busy, unknown⟩
  have count := accounting.counter (not_allocating exclusive running (by simp))
  rw [← Option.some.inj stepped]
  refine Accounting.moved exclusive running rfl sending ?_ ?_ ?_ ?_ True.intro
  · change (tcb :: s.tx.tcbFree ++ s.tx.tcbBusy.erase tcb).Perm _
    have restored := (List.perm_cons_erase busy).append_left s.tx.tcbFree
    exact (List.perm_middle.symm.trans restored.symm).trans accounting.partition
  · intro _
    exact congrArg (· + 1) count
  · intro allocating
    rcases allocating with ⟨_, _, impossible⟩
    cases impossible
  · intro other known
    rcases accounting.submitted other known with ⟨held, zero⟩
    have different : other ≠ tcb := by
      intro same
      exact unknown (same ▸ known)
    exact ⟨(List.mem_erase_of_ne different).mpr held, zero⟩

theorem Accounting.kept (accounting : Accounting p s) (exclusive : Exclusive s)
    (running : s.threads thread = some (.processNbl pc))
    (threads : next.threads = Function.update s.threads thread (some (.processNbl after)))
    (sending : next.sends.sendingNBL = some nbl) (tcbs : SameTcbs s.tx next.tx)
    (before : ∀ nb tcb, pc ≠ .allocEvent nb tcb) (elsewhere : ∀ nb tcb, after ≠ .allocEvent nb tcb)
    (submitted : ∀ tcb, tcb ∈ next.submitted →
      tcb ∈ s.tx.tcbBusy ∧ (s.tx.tcbs tcb).nbCount = 0)
    (standing : NblAt next (p.nbls nbl) after) : Accounting p next := by
  have count := accounting.counter (not_allocating exclusive running before)
  refine Accounting.moved exclusive running threads sending ?_ ?_ ?_ ?_ standing
  · rw [tcbs.tcbFree, tcbs.tcbBusy]
    exact accounting.partition
  · intro _
    rw [tcbs.numTCBsFree, tcbs.tcbFree]
    exact count
  · intro allocating
    rcases allocating with ⟨nb, tcb, same⟩
    exact absurd same (elsewhere nb tcb)
  · rw [tcbs.tcbBusy, tcbs.tcbs]
    exact submitted

theorem inside_accounting (accounting : Accounting p s) (exclusive : Exclusive s)
    (counts : s.sends.reserved nbl = (p.nbls nbl).netBuffers)
    (running : s.threads thread = some (.processNbl pc)) (sending : s.sends.sendingNBL = some nbl)
    (stepped : processNblStep p s thread bytes nbl pc = some next) : Accounting p next := by
  have standing := accounting.running thread pc nbl running sending
  cases pc with
  | check =>
    have count := accounting.counter (not_allocating exclusive running (by simp))
    rw [← Option.some.inj stepped]
    refine accounting.kept exclusive running rfl sending (sameTcbs_rfl _ _) (by simp) ?_
      accounting.submitted ?_
    · intro nb tcb
      split
      · simp
      · exact loopPc_ne _ _ _ _
    · split
      · exact True.intro
      · rename_i enough
        rw [counts, count] at enough
        apply loopPc_standing
        rw [Nat.zero_add]
        exact Nat.le_of_not_lt enough
  | alloc nb => exact alloc_accounting accounting exclusive running sending stepped
  | allocEvent nb tcb =>
    have count := accounting.ahead ⟨thread, nb, tcb, running⟩
    rw [← Option.some.inj stepped]
    refine Accounting.moved exclusive running rfl sending accounting.partition ?_ ?_
      accounting.submitted ⟨standing.more, standing.enough, standing.busy, standing.unknown,
        standing.zero⟩
    · intro _
      change s.tx.numTCBsFree - 1 = s.tx.tcbFree.length
      omega
    · intro allocating
      rcases allocating with ⟨_, _, impossible⟩
      cases impossible
  | copy nb tcb =>
    rw [← Option.some.inj stepped]
    refine accounting.kept exclusive running rfl sending (sameTcbs_rfl _ _) (by simp) ?_
      accounting.submitted ?_
    · intro nb tcb
      split <;> simp
    · split
      · exact ⟨standing.more, standing.enough, standing.busy, standing.unknown, standing.zero⟩
      · exact ⟨standing.busy, standing.unknown⟩
  | submit nb tcb =>
    rcases standing with ⟨more, enough, busy, _, zero⟩
    rw [← Option.some.inj stepped]
    refine accounting.kept exclusive running rfl sending (sameTcbs_rfl _ _) (by simp)
      (loopPc_ne _ _) ?_ (loopPc_standing enough)
    intro other known
    rcases List.mem_cons.mp known with rfl | old
    · exact ⟨busy, zero⟩
    · exact accounting.submitted other old
  | release tcb rc => exact release_accounting accounting exclusive running sending stepped
  | releaseEvent rc =>
    have tcbs : SameTcbs s.tx (releaseTcbEvent s.tx) := by
      unfold releaseTcbEvent
      split
      · exact sameTcbs_rfl _ _
      · exact ⟨rfl, rfl, rfl, rfl⟩
    rw [← Option.some.inj stepped]
    exact accounting.kept exclusive running rfl sending tcbs (by simp) (by simp)
      accounting.submitted True.intro
  | finish rc => cases stepped
  | fault => cases stepped

theorem txCompletion_apart {tcb own : Nat} (outstanding : tcb ∈ s.submitted)
    (unknown : own ∉ s.submitted) :
    own ∉ (venetTxCompletion s tcb).submitted ∧
      (venetTxCompletion s tcb).tx.tcbs own = s.tx.tcbs own := by
  have different : own ≠ tcb := by
    intro equal
    exact unknown (equal ▸ outstanding)
  refine ⟨?_, txCompletion_tcbs s different⟩
  rw [txCompletion_submitted]
  exact fun known => unknown known.1

theorem Holding.completion {nbl : Nbl} {nb own tcb : Nat} (holding : Holding s nbl nb own)
    (outstanding : tcb ∈ s.submitted) : Holding (venetTxCompletion s tcb) nbl nb own := by
  rcases txCompletion_lists s tcb with ⟨free, busy, _⟩
  rcases txCompletion_apart outstanding holding.unknown with ⟨still, block⟩
  refine ⟨holding.more, ?_, ?_, still, ?_⟩
  · rw [free]
    exact holding.enough
  · rw [busy]
    exact holding.busy
  · rw [block]
    exact holding.zero

theorem completion_standing {nbl : Nbl} {tcb : Nat} (outstanding : tcb ∈ s.submitted)
    (standing : NblAt s nbl pc) : NblAt (venetTxCompletion s tcb) nbl pc := by
  rcases txCompletion_lists s tcb with ⟨free, busy, _⟩
  cases pc with
  | allocEvent nb own => exact standing.completion outstanding
  | copy nb own => exact standing.completion outstanding
  | submit nb own => exact standing.completion outstanding
  | release own rc =>
    rw [NblAt, busy]
    exact ⟨standing.1, (txCompletion_apart outstanding standing.2).1⟩
  | alloc nb =>
    rw [NblAt, free]
    exact standing
  | check => exact True.intro
  | releaseEvent rc => exact True.intro
  | finish rc => exact True.intro
  | fault => exact standing.elim

theorem completion_accounting {tcb : Nat} (accounting : Accounting p s)
    (outstanding : tcb ∈ s.submitted) : Accounting p (venetTxCompletion s tcb) := by
  rcases txCompletion_frame s tcb with ⟨threads, sending⟩
  rcases txCompletion_lists s tcb with ⟨free, busy, count⟩
  have same : SameNbl s (venetTxCompletion s tcb) := sameNbl_rfl threads
  refine ⟨?_, ?_, ?_, ?_, ?_⟩
  · rw [free, busy]
    exact accounting.partition
  · rw [Allocating.same same, count, free]
    exact accounting.counter
  · rw [Allocating.same same, count, free]
    exact accounting.ahead
  · intro other known
    rw [txCompletion_submitted] at known
    rw [busy, txCompletion_tcbs s known.2]
    exact accounting.submitted other known.1
  · intro thread pc nbl place current
    rw [sending] at current
    exact completion_standing outstanding
      (accounting.running thread pc nbl ((same thread pc).mp place) current)

end Accounting

section Step

variable {p : Params} {s next : State}

theorem accounting_step (holds : Invariant p s) (outcome : Outcome p s next) : Accounting p next := by
  have accounting := holds.accounting
  have exclusive := holds.exclusive
  cases outcome with
  | aside sends tcbs submitted nbl => exact accounting.same tcbs submitted nbl (by rw [sends])
  | rejected chain status _ sends tcbs submitted nbl =>
    exact accounting.same tcbs submitted nbl (by rw [sends]; rfl)
  | accepted chain _ _ sends tcbs submitted nbl =>
    exact accounting.same tcbs submitted nbl (by rw [sends, enqueue_chain]; rfl)
  | cancelled cancelId reason sends tcbs submitted nbl =>
    exact accounting.same tcbs submitted nbl (by rw [sends]; rfl)
  | completion tcb outstanding after =>
    rw [after]
    exact completion_accounting accounting outstanding
  | dequeued thread _ idle _ _ after =>
    rw [after]
    refine accounting.empty (exclusive.not_allocating idle) (sameTcbs_rfl _ _) rfl ?_
    intro other pc place
    by_cases same : other = thread
    · rw [same, goto_same, Option.some.injEq, Pc.processNbl.injEq] at place
      exact place.symm
    · rw [goto_other _ _ same] at place
      exact absurd place (exclusive.nobody idle other pc)
  | inside thread bytes nbl pc running sending stepped =>
    rcases holds.ledger with ⟨queue, ledger⟩
    have counts := ledger.counts nbl (ledger.sending_accepted sending)
    exact inside_accounting accounting exclusive counts running sending stepped
  | finished thread nbl rc running sending after =>
    rcases finishNbl_frame s thread nbl rc with ⟨_, tx, submitted, new, outside, threads⟩
    rw [after]
    refine accounting.empty (not_allocating exclusive running (by simp)) ?_ submitted ?_
    · rw [tx]
      exact ⟨rfl, rfl, rfl, rfl⟩
    · intro other pc place
      rw [threads, Function.update_apply] at place
      split at place
      · exact absurd place (outside pc)
      · rename_i different
        exact absurd (exclusive.unique other thread _ _ place running) different

theorem completion_sends {tcb : Nat} (accounting : Accounting p s) (outstanding : tcb ∈ s.submitted) :
    (venetTxCompletion s tcb).sends = s.sends := by
  have zero := (accounting.submitted tcb outstanding).2
  simp only [venetTxCompletion, zero, if_neg decrementULong_zero]

theorem ledger_step (holds : Invariant p s) (outcome : Outcome p s next) :
    ∃ queue, Ledger p.nbls next.sends queue := by
  rcases holds.ledger with ⟨queue, ledger⟩
  cases outcome with
  | aside sends _ _ _ => exact ⟨queue, by rw [sends]; exact ledger⟩
  | rejected chain status fresh sends _ _ _ =>
    exact ⟨queue, by rw [sends]; exact ledger.reject chain status fresh⟩
  | accepted chain fresh _ sends _ _ _ =>
    exact ⟨queue ++ chain, by rw [sends]; exact ledger.accept chain fresh⟩
  | cancelled cancelId reason sends _ _ _ =>
    exact ⟨_, by rw [sends]; exact ledger.cancel cancelId reason⟩
  | completion tcb outstanding after =>
    exact ⟨queue, by rw [after, completion_sends holds.accounting outstanding]; exact ledger⟩
  | dequeued thread _ idle nonempty _ after =>
    rw [after]
    cases queue with
    | nil =>
      have empty := ledger.holds.empty_iff.mpr rfl
      rw [nonempty] at empty
      cases empty
    | cons nbl queue => exact ⟨queue, ledger.dequeue idle⟩
  | inside thread bytes nbl pc _ _ stepped =>
    exact ⟨queue, by rw [(processNblStep_frame stepped).1]; exact ledger⟩
  | finished thread nbl rc _ sending after =>
    rw [after, finishNbl]
    split
    · exact ⟨queue, ledger.sent sending⟩
    · exact ⟨nbl :: queue, ledger.requeue sending⟩

theorem invariant_step (holds : Invariant p s) (outcome : Outcome p s next) : Invariant p next :=
  ⟨ledger_step holds outcome, exclusive_step holds.exclusive outcome, accounting_step holds outcome⟩

theorem setupTxLoop_perm (n i : Nat) (free : List Nat) :
    (setupTxLoop n i free).Perm (List.range' i n ++ free) := by
  induction n generalizing i free with
  | zero => exact List.Perm.refl free
  | succ n ih =>
    rw [setupTxLoop, List.range'_succ]
    exact (ih (i + 1) (i :: free)).trans List.perm_middle

theorem invariant_initial (p : Params) : Invariant p (machine p).start := by
  have blocks : ((machine p).start.tx.tcbFree).Perm (List.range p.numTcbs) := by
    have loop := setupTxLoop_perm p.numTcbs 0 []
    rw [List.append_nil, ← List.range_eq_range'] at loop
    exact loop
  refine ⟨⟨[], ledger_initial p.nbls⟩, ⟨?_, ?_⟩, ⟨?_, ?_, ?_, ?_, ?_⟩⟩
  · intro thread pc impossible
    cases impossible
  · intro first second pc pc' impossible
    cases impossible
  · change ((machine p).start.tx.tcbFree ++ []).Perm _
    rw [List.append_nil]
    exact blocks
  · intro _
    rw [blocks.length_eq, List.length_range]
    rfl
  · intro allocating
    rcases allocating with ⟨_, _, _, impossible⟩
    cases impossible
  · intro tcb impossible
    cases impossible
  · intro thread pc nbl impossible
    cases impossible

theorem reachable_invariant (reached : (machine p).Reachable s) : Invariant p s :=
  reached.invariant (invariant_initial p) fun _ _ _ holds stepped =>
    invariant_step holds (step_outcome stepped)

end Step

end Venet
