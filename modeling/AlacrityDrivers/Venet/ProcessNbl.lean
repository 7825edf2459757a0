import AlacrityDrivers.Venet.CopyFrame

namespace Venet

/-- A frame handed to the bus: the TCB, and what its `data` holds. -/
structure Submission where
  tcb : Nat
  data : List UInt8
deriving DecidableEq, Repr

/-- The TCBs, and the frames handed to the bus so far. -/
structure Transmit where
  tx : Tx
  submitted : List Submission

/-- What `SrCopyFrame` and `SrSubmitTCB` return for one `NET_BUFFER`. -/
structure Attempt where
  frame : CopiedFrame
  submit : NdisStatus

def Attempt.status (attempt : Attempt) : NdisStatus :=
  if copyStatus attempt.frame.count = .success then attempt.submit else copyStatus attempt.frame.count

def srSubmitTCB : NdisStatus := .success

/-- The loop of `SrProcessNBL`; `none` where it takes the `NULL` of `VenetAllocTCB` for a TCB. -/
def processNblLoop (nbl : Nat) : List Attempt → Transmit → Option (NdisStatus × Transmit)
  | [], s => some (.success, s)
  | attempt :: rest, s =>
    match venetAllocTCB s.tx nbl with
    | none => none
    | some (tcb, tx) =>
      let rc := copyStatus attempt.frame.count
      if rc ≠ .success then some (rc, { s with tx := venetReleaseTCB tx tcb })
      else if attempt.submit ≠ .success then
        some (attempt.submit, { s with tx := venetReleaseTCB tx tcb })
      else processNblLoop nbl rest ⟨tx, s.submitted ++ [⟨tcb, attempt.frame.data⟩]⟩

/-- `SrProcessNBL` for an NBL whose count `VenetSendNetBufs` has stored. -/
def processNbl (nbl : Nat) (attempts : List Attempt) (s : Transmit) : Option (NdisStatus × Transmit) :=
  if s.tx.numTCBsFree < srCountNBL attempts.length then some (.resources, s)
  else processNblLoop nbl attempts s

def srProcessNBL (nbl : Nat) (buffers : List NetBuffer) (priority : BitVec 32) (s : Transmit) :
    Option (NdisStatus × Transmit) :=
  processNbl nbl (buffers.map fun nb => ⟨srCopyFrame nb priority, srSubmitTCB⟩) s

structure SentOn (before after : Transmit) (tcbs : List Nat) (sent : List Attempt) : Prop where
  length : tcbs.length = sent.length
  free : before.tx.tcbFree = tcbs ++ after.tx.tcbFree
  busy : after.tx.tcbBusy = tcbs.reverse ++ before.tx.tcbBusy
  counter : before.tx.tcbFree.length ≤ before.tx.numTCBsFree →
    before.tx.numTCBsFree = after.tx.numTCBsFree + tcbs.length
  submitted : after.submitted =
    before.submitted ++ List.zipWith Submission.mk tcbs (sent.map fun attempt => attempt.frame.data)

inductive LoopEnd (attempts : List Attempt) (s : Transmit) (result : Option (NdisStatus × Transmit)) :
    Prop
  | sent (after : Transmit) (tcbs : List Nat) (sentOn : SentOn s after tcbs attempts)
      (succeeded : ∀ attempt ∈ attempts, attempt.status = .success)
      (returned : result = some (.success, after))
  | failed (sent : List Attempt) (attempt : Attempt) (rest : List Attempt) (after : Transmit)
      (tcbs : List Nat) (split : attempts = sent ++ attempt :: rest)
      (sentOn : SentOn s after tcbs sent)
      (succeeded : ∀ attempt ∈ sent, attempt.status = .success) (fails : attempt.status ≠ .success)
      (free : sent.length < s.tx.tcbFree.length) (returned : result = some (attempt.status, after))
  | exhausted (few : s.tx.tcbFree.length < attempts.length)
      (succeeded : ∀ attempt ∈ attempts.take s.tx.tcbFree.length, attempt.status = .success)
      (faulted : result = none)

section Loop

variable {nbl tcb : Nat} {attempt : Attempt} {attempts sent rest : List Attempt} {s after : Transmit}
  {tcbs free : List Nat}

theorem sentOn_nil (s : Transmit) : SentOn s s [] [] := by
  refine ⟨rfl, rfl, rfl, fun _ => rfl, ?_⟩
  simp

def Transmit.handOver (s : Transmit) (nbl tcb : Nat) (free : List Nat) (data : List UInt8) : Transmit where
  tx := allocTcbEvent
    { s.tx with
      tcbs := Function.update s.tx.tcbs tcb ⟨some nbl, .success, 0⟩
      tcbFree := free
      tcbBusy := tcb :: s.tx.tcbBusy }
  submitted := s.submitted ++ [⟨tcb, data⟩]

theorem SentOn.cons (shape : s.tx.tcbFree = tcb :: free)
    (sentOn : SentOn (s.handOver nbl tcb free attempt.frame.data) after tcbs sent) :
    SentOn s after (tcb :: tcbs) (attempt :: sent) := by
  have rest : free = tcbs ++ after.tx.tcbFree := sentOn.free
  refine ⟨?_, ?_, ?_, ?_, ?_⟩
  · rw [List.length_cons, List.length_cons, sentOn.length]
  · rw [shape, rest, List.cons_append]
  · rw [sentOn.busy, List.reverse_cons, List.append_assoc]
    rfl
  · intro covered
    rw [shape, List.length_cons] at covered
    have later := sentOn.counter
    simp only [Transmit.handOver, allocTcbEvent] at later
    have count := later (by omega)
    rw [List.length_cons]
    omega
  · rw [sentOn.submitted, List.map_cons, List.zipWith_cons_cons]
    simp [Transmit.handOver]

theorem venetAllocTCB_cons (shape : s.tx.tcbFree = tcb :: free) (nbl : Nat) :
    venetAllocTCB s.tx nbl = some (tcb, (s.handOver nbl tcb free []).tx) := by
  rw [venetAllocTCB, allocTcbList, shape]
  rfl

theorem venetReleaseTCB_lists (tx : Tx) (tcb : Nat) :
    (venetReleaseTCB tx tcb).tcbFree = tcb :: tx.tcbFree ∧
      (venetReleaseTCB tx tcb).tcbBusy = tx.tcbBusy.erase tcb ∧
      (venetReleaseTCB tx tcb).numTCBsFree = tx.numTCBsFree + 1 := by
  unfold venetReleaseTCB releaseTcbEvent
  split
  · exact ⟨rfl, rfl, rfl⟩
  · exact ⟨rfl, rfl, rfl⟩

theorem sentOn_released (shape : s.tx.tcbFree = tcb :: free) (nbl : Nat) :
    SentOn s { s with tx := venetReleaseTCB (s.handOver nbl tcb free []).tx tcb } [] [] := by
  rcases venetReleaseTCB_lists (s.handOver nbl tcb free []).tx tcb with ⟨list, busy, counter⟩
  refine ⟨rfl, ?_, ?_, ?_, ?_⟩
  · rw [shape, List.nil_append, list]
    rfl
  · rw [busy]
    exact List.erase_cons_head (a := tcb) (l := s.tx.tcbBusy)
  · intro covered
    rw [shape, List.length_cons] at covered
    have taken : (s.handOver nbl tcb free []).tx.numTCBsFree = s.tx.numTCBsFree - 1 := rfl
    change s.tx.numTCBsFree = (venetReleaseTCB (s.handOver nbl tcb free []).tx tcb).numTCBsFree + 0
    rw [counter, taken]
    omega
  · simp

theorem processNblLoop_fails (shape : s.tx.tcbFree = tcb :: free) (fails : attempt.status ≠ .success) :
    processNblLoop nbl (attempt :: rest) s =
      some (attempt.status, { s with tx := venetReleaseTCB (s.handOver nbl tcb free []).tx tcb }) := by
  rw [Attempt.status] at fails ⊢
  simp only [processNblLoop, venetAllocTCB_cons shape]
  by_cases copied : copyStatus attempt.frame.count = .success
  · rw [if_pos copied] at fails ⊢
    rw [if_neg (not_not.mpr copied), if_pos fails]
  · rw [if_neg copied, if_pos copied]

theorem processNblLoop_passes (shape : s.tx.tcbFree = tcb :: free)
    (passes : attempt.status = .success) :
    processNblLoop nbl (attempt :: rest) s =
      processNblLoop nbl rest (s.handOver nbl tcb free attempt.frame.data) := by
  rw [Attempt.status] at passes
  simp only [processNblLoop, venetAllocTCB_cons shape]
  by_cases copied : copyStatus attempt.frame.count = .success
  · rw [if_pos copied] at passes
    rw [if_neg (not_not.mpr copied), if_neg (not_not.mpr passes)]
    rfl
  · rw [if_neg copied] at passes
    exact absurd passes copied

/-- The induction follows the loop: one TCB and one attempt go with each pass. -/
theorem processNblLoop_end (nbl : Nat) (attempts : List Attempt) (s : Transmit) :
    LoopEnd attempts s (processNblLoop nbl attempts s) := by
  induction attempts generalizing s with
  | nil => exact .sent s [] (sentOn_nil s) (by simp) rfl
  | cons attempt attempts ih =>
    cases shape : s.tx.tcbFree with
    | nil =>
      apply LoopEnd.exhausted
      · rw [shape]
        exact Nat.succ_pos _
      · rw [shape]
        simp
      · rw [processNblLoop, venetAllocTCB, allocTcbList, shape]
        rfl
    | cons tcb free =>
      by_cases passes : attempt.status = .success
      · have both : ∀ sent : List Attempt, (∀ other ∈ sent, other.status = .success) →
            ∀ other ∈ attempt :: sent, other.status = .success := by
          intro sent succeeded other among
          rcases List.mem_cons.mp among with same | later
          · rw [same]
            exact passes
          · exact succeeded other later
        rw [processNblLoop_passes shape passes]
        cases ih (s.handOver nbl tcb free attempt.frame.data) with
        | sent after tcbs sentOn succeeded returned =>
          exact .sent after (tcb :: tcbs) (sentOn.cons shape) (both attempts succeeded) returned
        | failed sent failing rest after tcbs split sentOn succeeded fails more returned =>
          refine .failed (attempt :: sent) failing rest after (tcb :: tcbs) (by rw [split]; rfl)
            (sentOn.cons shape) (both sent succeeded) fails ?_ returned
          rw [shape]
          exact Nat.succ_lt_succ more
        | exhausted few succeeded faulted =>
          refine .exhausted ?_ ?_ faulted
          · rw [shape]
            exact Nat.succ_lt_succ few
          · rw [shape]
            exact both _ succeeded
      · exact .failed [] attempt attempts _ [] rfl (sentOn_released shape nbl) (by simp) passes
          (by rw [shape]; exact Nat.succ_pos _) (processNblLoop_fails shape passes)

end Loop

end Venet
