import AlacrityDrivers.Library.Lists
import AlacrityDrivers.Venet.Send

namespace Venet

/-- Every NBL handed over has been completed, was sent, is being sent or waits in the queue, and the
    accepted ones among them keep their order. -/
structure Ledger (nbls : Nat → Nbl) (sends : Sends) (queue : List Nat) : Prop where
  holds : sends.memory.Holds queue
  order : (sends.succeeded ++ (sends.sendingNBL.toList ++ queue)).Sublist sends.accepted
  accepted : sends.accepted.Perm
    (sends.succeeded ++ (sends.sendingNBL.toList ++ queue) ++ sends.cancelled)
  handed : sends.handed.Perm
    (sends.completed.map Prod.fst ++ (sends.succeeded ++ (sends.sendingNBL.toList ++ queue)))
  acceptedHanded : sends.accepted ⊆ sends.handed
  acceptedNodup : sends.accepted.Nodup
  handedNodup : sends.handed.Nodup
  counts : ∀ nbl, nbl ∈ sends.accepted → sends.reserved nbl = (nbls nbl).netBuffers

section Enqueue

variable (nbls : Nat → Nbl) (chain : List Nat) (sends : Sends)

theorem enqueue_chain :
    chain.foldl (Sends.enqueue nbls) sends =
      { sends with
        memory := chain.foldl queueEnqueTail sends.memory
        accepted := sends.accepted ++ chain
        reserved := (chain.foldl (Sends.enqueue nbls) sends).reserved } := by
  induction chain generalizing sends with
  | nil => simp
  | cons nbl rest ih =>
    rw [List.foldl_cons, ih]
    simp [Sends.enqueue]

theorem enqueue_reserved (nbl : Nat) :
    (chain.foldl (Sends.enqueue nbls) sends).reserved nbl =
      if nbl ∈ chain then (nbls nbl).netBuffers else sends.reserved nbl := by
  induction chain generalizing sends with
  | nil => simp
  | cons first rest ih =>
    rw [List.foldl_cons, ih]
    by_cases later : nbl ∈ rest
    · simp [later]
    · by_cases here : nbl = first
      · subst here
        simp [later, Sends.enqueue, srCountNBL_eq _ (nbls nbl).fits]
      · simp [later, here, Sends.enqueue]

end Enqueue

section Ledger

variable {nbls : Nat → Nbl} {sends : Sends} {queue : List Nat} {nbl : Nat}

theorem ledger_initial (nbls : Nat → Nbl) : Ledger nbls .initial [] := by
  refine ⟨holds_init _, List.Sublist.slnil, List.Perm.refl _, List.Perm.refl _, ?_, List.nodup_nil,
    List.nodup_nil, ?_⟩
  · exact List.Subset.refl _
  · intro nbl impossible
    cases impossible

theorem Ledger.nodup (ledger : Ledger nbls sends queue) :
    (sends.succeeded ++ (sends.sendingNBL.toList ++ queue) ++ sends.cancelled).Nodup :=
  ledger.accepted.nodup_iff.mp ledger.acceptedNodup

theorem Ledger.sending_fresh (ledger : Ledger nbls sends queue)
    (sending : sends.sendingNBL = some nbl) : nbl ∉ queue := by
  have distinct := (List.nodup_append.mp (List.nodup_append.mp ledger.nodup).1).2.1
  rw [sending] at distinct
  exact (List.nodup_cons.mp distinct).1

theorem Ledger.sending_accepted (ledger : Ledger nbls sends queue)
    (sending : sends.sendingNBL = some nbl) : nbl ∈ sends.accepted := by
  apply ledger.accepted.mem_iff.mpr
  simp [sending]

theorem Ledger.queue_length (ledger : Ledger nbls sends queue) :
    queue.length < sends.accepted.length + 1 := by
  have length := ledger.accepted.length_eq
  simp only [List.length_append] at length
  omega

theorem Ledger.reject (ledger : Ledger nbls sends queue) (chain : List Nat) (status : NdisStatus)
    (fresh : (sends.handed ++ chain).Nodup) :
    Ledger nbls ((sends.handOver chain).complete chain status) queue := by
  refine ⟨ledger.holds, ledger.order, ledger.accepted, ?_, ?_, ledger.acceptedNodup, fresh,
    ledger.counts⟩
  · rw [List.perm_iff_count]
    intro x
    have count := ledger.handed.count_eq x
    simp only [List.count_append] at count
    simp only [Sends.complete, Sends.handOver, List.map_append, List.map_map, Function.comp_def,
      List.map_id', List.count_append]
    omega
  · intro x present
    exact List.mem_append_left _ (ledger.acceptedHanded present)

theorem Ledger.accept (ledger : Ledger nbls sends queue) (chain : List Nat)
    (fresh : (sends.handed ++ chain).Nodup) :
    Ledger nbls (chain.foldl (Sends.enqueue nbls) (sends.handOver chain)) (queue ++ chain) := by
  have queued : queue ⊆ sends.handed := by
    intro x present
    apply ledger.acceptedHanded
    apply ledger.accepted.mem_iff.mpr
    simp [present]
  rcases List.nodup_append.mp fresh with ⟨_, chainNodup, apart⟩
  have distinct : (queue ++ chain).Nodup :=
    List.nodup_append.mpr ⟨ledger.holds.nodup, chainNodup, fun x before y after =>
      apart x (queued before) y after⟩
  have reserved := enqueue_reserved nbls chain (sends.handOver chain)
  rw [enqueue_chain]
  refine ⟨ledger.holds.enqueChain chain distinct, ?_, ?_, ?_, ?_, ?_, fresh, ?_⟩
  · change List.Sublist (sends.succeeded ++ (sends.sendingNBL.toList ++ (queue ++ chain)))
      (sends.accepted ++ chain)
    rw [← List.append_assoc, ← List.append_assoc, List.append_assoc sends.succeeded]
    exact ledger.order.append (List.Sublist.refl chain)
  · rw [List.perm_iff_count]
    intro x
    have count := ledger.accepted.count_eq x
    simp only [List.count_append] at count
    simp only [Sends.handOver, List.count_append]
    omega
  · rw [List.perm_iff_count]
    intro x
    have count := ledger.handed.count_eq x
    simp only [List.count_append] at count
    simp only [Sends.handOver, List.count_append]
    omega
  · intro x present
    rcases List.mem_append.mp present with old | new
    · exact List.mem_append_left _ (ledger.acceptedHanded old)
    · exact List.mem_append_right _ new
  · refine List.nodup_append.mpr ⟨ledger.acceptedNodup, chainNodup, ?_⟩
    intro x before y after
    exact apart x (ledger.acceptedHanded before) y after
  · intro x present
    change (chain.foldl (Sends.enqueue nbls) (sends.handOver chain)).reserved x = _
    rw [reserved]
    split
    · rfl
    · rename_i old
      exact ledger.counts x ((List.mem_append.mp present).resolve_right old)

theorem Ledger.dequeue (ledger : Ledger nbls sends (nbl :: queue)) (idle : sends.sendingNBL = none) :
    Ledger nbls
      { sends with
        memory := (queueDeque sends.memory).2
        sendingNBL := (queueDeque sends.memory).1 } queue := by
  rcases ledger.holds.deque with ⟨removed, rest⟩
  have order := ledger.order
  have accepted := ledger.accepted
  have handed := ledger.handed
  rw [idle] at order accepted handed
  rw [removed]
  exact ⟨rest, order, accepted, handed, ledger.acceptedHanded, ledger.acceptedNodup,
    ledger.handedNodup, ledger.counts⟩

theorem Ledger.requeue (ledger : Ledger nbls sends queue) (sending : sends.sendingNBL = some nbl) :
    Ledger nbls { sends with sendingNBL := none, memory := queueEnqueHead sends.memory nbl }
      (nbl :: queue) := by
  have order := ledger.order
  have accepted := ledger.accepted
  have handed := ledger.handed
  rw [sending] at order accepted handed
  exact ⟨ledger.holds.enqueHead (ledger.sending_fresh sending), order, accepted, handed,
    ledger.acceptedHanded, ledger.acceptedNodup, ledger.handedNodup, ledger.counts⟩

theorem Ledger.sent (ledger : Ledger nbls sends queue) (sending : sends.sendingNBL = some nbl) :
    Ledger nbls { sends with sendingNBL := none, succeeded := sends.succeeded ++ [nbl] } queue := by
  have order := ledger.order
  have accepted := ledger.accepted
  have handed := ledger.handed
  rw [sending] at order accepted handed
  have regroup : sends.succeeded ++ ((some nbl).toList ++ queue) =
      (sends.succeeded ++ [nbl]) ++ ((none : Option Nat).toList ++ queue) := by simp
  rw [regroup] at order accepted handed
  exact ⟨ledger.holds, order, accepted, handed, ledger.acceptedHanded, ledger.acceptedNodup,
    ledger.handedNodup, ledger.counts⟩

def cancelMatch (nbls : Nat → Nbl) (cancelId nbl : Nat) : Bool :=
  cancelId == 0 || (nbls nbl).cancelId == cancelId

theorem Ledger.cancel (ledger : Ledger nbls sends queue) (cancelId : Nat) (reason : NdisStatus) :
    Ledger nbls (sends.cancelQueued nbls cancelId reason)
      (queue.eraseP (cancelMatch nbls cancelId)) := by
  obtain ⟨kept, taken⟩ := srCancelQueued_holds (cancelMatch nbls cancelId)
    (sends.accepted.length + 1) ledger.queue_length ledger.holds
  have split := Lists.find_eraseP_perm (cancelMatch nbls cancelId) queue
  have cancelled : sends.cancelQueued nbls cancelId reason =
      ({ sends with
        memory := (srCancelQueued (cancelMatch nbls cancelId) (sends.accepted.length + 1)
          sends.memory).1
        cancelled := sends.cancelled ++ (queue.find? (cancelMatch nbls cancelId)).toList }).complete
          (queue.find? (cancelMatch nbls cancelId)).toList reason := by
    rw [← taken]
    rfl
  rw [cancelled]
  refine ⟨kept, ?_, ?_, ?_, ledger.acceptedHanded, ledger.acceptedNodup, ledger.handedNodup,
    ledger.counts⟩
  · apply List.Sublist.trans _ ledger.order
    exact (List.Sublist.refl _).append ((List.Sublist.refl _).append (List.eraseP_sublist))
  · rw [List.perm_iff_count]
    intro x
    have count := ledger.accepted.count_eq x
    have parts := split.count_eq x
    simp only [List.count_append] at count parts
    simp only [Sends.complete, List.count_append]
    omega
  · rw [List.perm_iff_count]
    intro x
    have count := ledger.handed.count_eq x
    have parts := split.count_eq x
    simp only [List.count_append] at count parts
    simp only [Sends.complete, List.map_append, List.map_map, Function.comp_def, List.map_id',
      List.count_append]
    omega

end Ledger

end Venet
