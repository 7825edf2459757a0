import AlacrityDrivers.Venet.ProcessNbl

namespace Venet

section Report

def nbFrame (nb : NetBuffer) (priority : BitVec 32) : List UInt8 :=
  let data := dataBytes nb
  let frame :=
    if isPriority priority && p8021MacLen ≤ data.length then
      data.take p8021MacLen ++ p8021TpidType ++ p8021Tci priority ++ data.drop p8021MacLen
    else data
  frame ++ List.replicate (ethMinPacketSize - frame.length) 0

/-- A length that a frame can have, and a chain of `MDL`s long enough for it. -/
structure NetBuffer.Valid (nb : NetBuffer) : Prop where
  some : 0 < nb.dataLength
  short : nb.dataLength ≤ ethMaxPacketSize
  enough : nb.dataOffset + nb.dataLength ≤ (chainBytes nb.mdls).length

/-- Success is returned when every frame was handed over, and something else when an `MDL` cannot be
    mapped. -/
structure ReportsSent (buffers : List NetBuffer) (priority : BitVec 32) (s : Transmit)
    (result : Option (NdisStatus × Transmit)) : Prop where
  mapped : (∀ nb ∈ buffers, ∀ mdl ∈ nb.mdls, mdl.mapped = true) →
    ∃ after frames, result = some (.success, after) ∧ after.submitted = s.submitted ++ frames ∧
      List.Forall₂ (fun nb frame => nbFrame nb priority <+: frame.data) buffers frames
  unmapped : (∃ nb ∈ buffers, ∃ mdl ∈ nb.mdls, mdl.mapped = false) →
    ∃ status after, result = some (status, after) ∧ status ≠ .success

variable {nbl : Nat} {buffers : List NetBuffer} {priority : BitVec 32} {s : Transmit}

theorem srCountNBL_le (n : Nat) : srCountNBL n ≤ n := by
  induction n with
  | zero => exact Nat.le_refl 0
  | succ n ih =>
    rw [srCountNBL]
    exact Nat.le_trans (Nat.mod_le _ _) (Nat.succ_le_succ ih)

theorem mappedUpTo_of_mapped {mdls : List Mdl} (mapped : ∀ mdl ∈ mdls, mdl.mapped = true)
    (wanted : Nat) : mappedUpTo wanted mdls = true := by
  induction mdls generalizing wanted with
  | nil => rfl
  | cons mdl mdls ih =>
    rw [mappedUpTo, mapped mdl List.mem_cons_self,
      ih (fun other among => mapped other (List.mem_cons_of_mem _ among)), Bool.true_and, Bool.or_true]

theorem copied_status {nb : NetBuffer} (valid : nb.Valid) :
    (⟨srCopyFrame nb priority, srSubmitTCB⟩ : Attempt).status = .success ↔
      mappedUpTo (nb.dataOffset + nb.dataLength) nb.mdls = false := by
  rw [← srCopyFrame_fails_iff priority valid.some valid.enough, Attempt.status, copyStatus]
  by_cases nothing : (srCopyFrame nb priority).count = 0
  · simp [nothing, srSubmitTCB]
  · simp [nothing]

/-- `SrProcessNBL` always returns, with success only if no frame could be copied. -/
theorem srProcessNBL_success_iff (nbl : Nat) (priority : BitVec 32)
    (listed : buffers.length ≤ s.tx.tcbFree.length)
    (counted : buffers.length ≤ s.tx.numTCBsFree) (valid : ∀ nb ∈ buffers, nb.Valid) :
    ∃ status after, srProcessNBL nbl buffers priority s = some (status, after) ∧
      (status = .success ↔
        ∀ nb ∈ buffers, mappedUpTo (nb.dataOffset + nb.dataLength) nb.mdls = false) := by
  have attempted : srProcessNBL nbl buffers priority s = processNblLoop nbl
      (buffers.map fun nb => ⟨srCopyFrame nb priority, srSubmitTCB⟩) s := by
    have count := srCountNBL_le buffers.length
    rw [srProcessNBL, processNbl, List.length_map, if_neg (by omega)]
  rw [attempted]
  cases processNblLoop_end nbl (buffers.map fun nb => ⟨srCopyFrame nb priority, srSubmitTCB⟩) s with
  | sent after tcbs _ succeeded returned =>
    refine ⟨_, after, returned, fun _ => ?_, fun _ => rfl⟩
    intro nb among
    exact (copied_status (valid nb among)).mp (succeeded _ (List.mem_map_of_mem among))
  | failed sent attempt rest after tcbs split _ _ fails _ returned =>
    refine ⟨_, after, returned, fun same => absurd same fails, ?_⟩
    intro unmapped
    have among : attempt ∈ buffers.map fun nb => ⟨srCopyFrame nb priority, srSubmitTCB⟩ := by
      rw [split]
      simp
    rcases List.mem_map.mp among with ⟨nb, present, rfl⟩
    exact (copied_status (valid nb present)).mpr (unmapped nb present)
  | exhausted few _ _ =>
    rw [List.length_map] at few
    omega

/-- `SrProcessNBL` takes the byte count of `SrCopyFrame` for a status, so it reports the sending of an
    NBL correctly exactly when the NBL is empty, or when some `MDL` cannot be mapped but some
    `NET_BUFFER` can be copied. -/
theorem nbl_reported_sent (nbl : Nat) (buffers : List NetBuffer) (priority : BitVec 32) (s : Transmit)
    (listed : buffers.length ≤ s.tx.tcbFree.length) (counted : buffers.length ≤ s.tx.numTCBsFree)
    (valid : ∀ nb ∈ buffers, nb.Valid) :
    ReportsSent buffers priority s (srProcessNBL nbl buffers priority s) ↔
      buffers = [] ∨ (∃ nb ∈ buffers, ∃ mdl ∈ nb.mdls, mdl.mapped = false) ∧
        ∃ nb ∈ buffers, mappedUpTo (nb.dataOffset + nb.dataLength) nb.mdls = true := by
  rcases srProcessNBL_success_iff nbl priority listed counted valid with
    ⟨status, after, returned, success⟩
  constructor
  · intro reports
    by_cases mapped : ∀ nb ∈ buffers, ∀ mdl ∈ nb.mdls, mdl.mapped = true
    · rcases reports.mapped mapped with ⟨final, _, succeeded, _⟩
      rw [returned] at succeeded
      have none := success.mp (Prod.mk.inj (Option.some.inj succeeded)).1
      left
      rw [List.eq_nil_iff_forall_not_mem]
      intro nb among
      have all := mappedUpTo_of_mapped (mapped nb among) (nb.dataOffset + nb.dataLength)
      exact Bool.false_ne_true ((none nb among).symm.trans all)
    · right
      have unmapped : ∃ nb ∈ buffers, ∃ mdl ∈ nb.mdls, mdl.mapped = false := by
        simpa using mapped
      refine ⟨unmapped, ?_⟩
      rcases reports.unmapped unmapped with ⟨other, final, failed, fails⟩
      rw [returned] at failed
      rw [← (Prod.mk.inj (Option.some.inj failed)).1, Ne, success] at fails
      simpa using fails
  · intro condition
    rcases condition with empty | ⟨⟨nb, among, mdl, part, unmapped⟩, whole⟩
    · subst empty
      refine ⟨?_, fun impossible => by simp at impossible⟩
      intro _
      exact ⟨s, [], rfl, by simp, .nil⟩
    · refine ⟨?_, ?_⟩
      · intro mapped
        exact absurd (mapped nb among mdl part) (by simp [unmapped])
      · intro _
        refine ⟨status, after, returned, ?_⟩
        intro same
        rcases whole with ⟨copied, present, mapped⟩
        exact Bool.false_ne_true ((success.mp same copied present).symm.trans mapped)

def halfMapped : List NetBuffer := [⟨[⟨[1], false⟩], 0, 1⟩, ⟨[⟨[2], true⟩], 0, 1⟩]

theorem halfMapped_reported :
    ReportsSent halfMapped 0#32 ⟨venetSetupTx 2, []⟩
      (srProcessNBL 0 halfMapped 0#32 ⟨venetSetupTx 2, []⟩) := by
  apply (nbl_reported_sent 0 halfMapped 0#32 ⟨venetSetupTx 2, []⟩ (by decide) (by decide) _).mpr
  · right
    decide
  · intro nb among
    simp only [halfMapped, List.mem_cons, List.not_mem_nil, or_false] at among
    rcases among with same | same
    · rw [same]
      exact ⟨by decide, by decide, by decide⟩
    · rw [same]
      exact ⟨by decide, by decide, by decide⟩

def oneByte : List NetBuffer := [⟨[⟨[2], true⟩], 0, 1⟩]

theorem copied_nbl_reported_failed :
    (∀ nb ∈ oneByte, nb.Valid) ∧
      ¬ ReportsSent oneByte 0#32 ⟨venetSetupTx 1, []⟩
        (srProcessNBL 0 oneByte 0#32 ⟨venetSetupTx 1, []⟩) := by
  constructor
  · intro nb among
    rw [List.mem_singleton.mp among]
    exact ⟨by decide, by decide, by decide⟩
  · intro reports
    rcases reports.mapped (by decide) with ⟨after, _, returned, _⟩
    have status : (srProcessNBL 0 oneByte 0#32 ⟨venetSetupTx 1, []⟩).map Prod.fst = some .success := by
      rw [returned]
      rfl
    revert status
    decide

end Report

section Trace

/-- The accounting of the TCBs while no thread is inside `VenetAllocTCB`. -/
structure Tx.Accounted (tx : Tx) (numTcbs : Nat) : Prop where
  partition : (tx.tcbFree ++ tx.tcbBusy).Perm (List.range numTcbs)
  counter : tx.numTCBsFree = tx.tcbFree.length

/-- The TCBs and the bus are as before, so that a retry which succeeds sends each frame once. -/
structure Traceless (nbl frames : Nat) (before after : Transmit) : Prop where
  tcbFree : after.tx.tcbFree.Perm before.tx.tcbFree
  tcbBusy : after.tx.tcbBusy.Perm before.tx.tcbBusy
  numTCBsFree : after.tx.numTCBsFree = before.tx.numTCBsFree
  submitted : after.submitted = before.submitted
  retry : ∀ attempts final, attempts.length = frames →
    processNbl nbl attempts after = some (.success, final) →
    final.submitted.map Submission.data =
      before.submitted.map Submission.data ++ attempts.map fun attempt => attempt.frame.data

variable {nbl : Nat} {attempts sent : List Attempt} {s after : Transmit} {tcbs : List Nat}

theorem SentOn.data (sentOn : SentOn s after tcbs sent) :
    after.submitted.map Submission.data =
      s.submitted.map Submission.data ++ sent.map fun attempt => attempt.frame.data := by
  have frames : ∀ (tcbs : List Nat) (data : List (List UInt8)), tcbs.length = data.length →
      (List.zipWith Submission.mk tcbs data).map Submission.data = data := by
    intro tcbs
    induction tcbs with
    | nil =>
      intro data same
      exact (List.eq_nil_of_length_eq_zero same.symm).symm
    | cons tcb tcbs ih =>
      intro data same
      cases data with
      | nil => cases same
      | cons first data =>
        rw [List.zipWith_cons_cons, List.map_cons, ih data (Nat.succ.inj same)]
  rw [sentOn.submitted, List.map_append, frames]
  rw [List.length_map]
  exact sentOn.length

theorem processNbl_sent {final : Transmit}
    (succeeded : processNbl nbl attempts s = some (.success, final)) :
    ∃ tcbs, SentOn s final tcbs attempts := by
  unfold processNbl at succeeded
  split at succeeded
  · cases succeeded
  · cases processNblLoop_end nbl attempts s with
    | sent after tcbs sentOn _ returned =>
      rw [returned] at succeeded
      rw [← (Prod.mk.inj (Option.some.inj succeeded)).2]
      exact ⟨tcbs, sentOn⟩
    | failed _ attempt _ _ _ _ _ _ fails _ returned =>
      rw [returned] at succeeded
      exact absurd (Prod.mk.inj (Option.some.inj succeeded)).1 fails
    | exhausted _ _ faulted =>
      rw [faulted] at succeeded
      cases succeeded

theorem traceless_of_same (nbl frames : Nat) (free : after.tx.tcbFree = s.tx.tcbFree)
    (busy : after.tx.tcbBusy = s.tx.tcbBusy) (counter : after.tx.numTCBsFree = s.tx.numTCBsFree)
    (submitted : after.submitted = s.submitted) : Traceless nbl frames s after := by
  refine ⟨List.Perm.of_eq free, List.Perm.of_eq busy, counter, submitted, ?_⟩
  intro attempts final _ succeeded
  rcases processNbl_sent succeeded with ⟨tcbs, sentOn⟩
  rw [sentOn.data, submitted]

theorem SentOn.traceless_iff (nbl : Nat) (sentOn : SentOn s after tcbs sent)
    (counted : s.tx.numTCBsFree = s.tx.tcbFree.length) (frames : Nat) :
    Traceless nbl frames s after ↔ sent = [] := by
  have length := sentOn.length
  constructor
  · intro traceless
    have busy := traceless.tcbBusy.length_eq
    rw [sentOn.busy, List.length_append, List.length_reverse] at busy
    exact List.eq_nil_of_length_eq_zero (by omega)
  · intro none
    subst none
    have empty : tcbs = [] := List.eq_nil_of_length_eq_zero length
    subst empty
    have counter := sentOn.counter (by omega)
    have submitted := sentOn.submitted
    simp only [List.map_nil, List.zipWith_nil_left, List.append_nil] at submitted
    exact traceless_of_same nbl frames sentOn.free.symm sentOn.busy counter.symm submitted

theorem stops_first_iff {attempt : Attempt} {rest : List Attempt} {available : Nat}
    (split : attempts = sent ++ attempt :: rest)
    (succeeded : ∀ other ∈ sent, other.status = .success) (fails : attempt.status ≠ .success)
    (reached : sent.length < available) :
    ((∀ other ∈ attempts.take available, other.status = .success) ∨
        ∃ first ∈ attempts.head?, first.status ≠ .success) ↔ sent = [] := by
  constructor
  · intro condition
    rcases condition with whole | ⟨first, head, early⟩
    · have among : attempt ∈ attempts.take available := by
        rw [split, List.take_append, List.mem_append]
        right
        have more : available - sent.length = (available - sent.length - 1) + 1 := by omega
        rw [more, List.take_succ_cons]
        exact List.mem_cons_self
      exact absurd (whole attempt among) fails
    · cases sent with
      | nil => rfl
      | cons other sent =>
        rw [split] at head
        have first := succeeded other List.mem_cons_self
        rw [Option.some.inj head] at first
        exact absurd first early
  · intro none
    right
    rw [split, none]
    exact ⟨attempt, rfl, fails⟩

theorem failure_traceless_iff {result : Option (NdisStatus × Transmit)} {status : NdisStatus}
    (frames : Nat) (returned : result = some (status, after)) (fails : status ≠ .success) :
    (∀ status final, result = some (status, final) → status ≠ .success →
        Traceless nbl frames s final) ↔ Traceless nbl frames s after := by
  constructor
  · intro all
    exact all status after returned fails
  · intro traceless other final result _
    rw [returned] at result
    rw [← (Prod.mk.inj (Option.some.inj result)).2]
    exact traceless

/-- `SrProcessNBL` gives back the TCB of the frame that failed and no other, so a failure leaves no
    trace exactly when the NBL was refused for want of TCBs, when no frame failed, or when the first
    one did. -/
theorem failed_nbl_traceless (numTcbs nbl : Nat) (attempts : List Attempt) (s : Transmit)
    (accounted : s.tx.Accounted numTcbs) :
    (∀ status after, processNbl nbl attempts s = some (status, after) → status ≠ .success →
        Traceless nbl attempts.length s after) ↔
      s.tx.numTCBsFree < srCountNBL attempts.length ∨
        (∀ attempt ∈ attempts.take s.tx.tcbFree.length, attempt.status = .success) ∨
        ∃ first ∈ attempts.head?, first.status ≠ .success := by
  by_cases refused : s.tx.numTCBsFree < srCountNBL attempts.length
  · refine ⟨fun _ => Or.inl refused, ?_⟩
    intro _
    have unchanged : Traceless nbl attempts.length s s := traceless_of_same nbl _ rfl rfl rfl rfl
    rw [processNbl, if_pos refused, failure_traceless_iff attempts.length rfl (by decide)]
    exact unchanged
  · rw [processNbl, if_neg refused, or_iff_right refused]
    cases processNblLoop_end nbl attempts s with
    | sent final tcbs _ succeeded returned =>
      constructor
      · intro _
        exact Or.inl fun attempt among => succeeded attempt (List.mem_of_mem_take among)
      · intro _ status after result failed
        rw [returned] at result
        exact absurd (Prod.mk.inj (Option.some.inj result)).1.symm failed
    | failed sent attempt rest final tcbs split sentOn succeeded fails free returned =>
      rw [failure_traceless_iff attempts.length returned fails,
        stops_first_iff split succeeded fails free]
      exact sentOn.traceless_iff nbl accounted.counter attempts.length
    | exhausted few succeeded faulted =>
      refine ⟨fun _ => Or.inl succeeded, ?_⟩
      intro _ status after result _
      rw [faulted] at result
      cases result

theorem failed_nbl_traceless_first :
    ∃ status after,
      processNbl 0 [⟨⟨[], 60⟩, .success⟩, ⟨⟨[], 0⟩, .success⟩] ⟨venetSetupTx 2, []⟩ =
        some (status, after) ∧ status ≠ .success ∧ Traceless 0 2 ⟨venetSetupTx 2, []⟩ after := by
  have traceless := (failed_nbl_traceless 2 0 [⟨⟨[], 60⟩, .success⟩, ⟨⟨[], 0⟩, .success⟩]
    ⟨venetSetupTx 2, []⟩ ⟨by decide, rfl⟩).mpr (Or.inr (Or.inr ⟨_, rfl, by decide⟩))
  have failed : NdisStatus.bytes 60 ≠ .success := by decide
  exact ⟨.bytes 60, _, rfl, failed, traceless _ _ rfl failed⟩

/-- The first buffer, which cannot be mapped, counts as sent, and the second one fails. -/
theorem second_failure_leaves_first :
    (venetSetupTx 2).Accounted 2 ∧
      ¬ ∀ status after, srProcessNBL 0 halfMapped 0#32 ⟨venetSetupTx 2, []⟩ = some (status, after) →
        status ≠ .success → Traceless 0 2 ⟨venetSetupTx 2, []⟩ after := by
  refine ⟨⟨by decide, rfl⟩, ?_⟩
  intro all
  have traceless := all (.bytes 60) _ rfl (by decide)
  have counter := traceless.numTCBsFree
  revert counter
  decide

end Trace

end Venet
