import AlacrityDrivers.Venet.Queue

namespace Venet

open LinkedList

structure CancelSearch where
  next : Nat → Option Nat
  sendQueue : QueueHeader
  cancelQueue : QueueHeader
  curr : Option Nat
  prev : Option Nat

/-- Taking a match off the send queue and putting it at the head of the cancel queue, which gives
    its `Next` another value. -/
def cancelTake (search : CancelSearch) (curr : Nat) : CancelSearch :=
  let after := search.next curr
  let sendQueue :=
    if search.sendQueue.head = some curr then
      { head := after, tail := if after = none then none else search.sendQueue.tail }
    else { search.sendQueue with tail := if after = none then search.prev else search.sendQueue.tail }
  let next :=
    if search.sendQueue.head = some curr then search.next
    else match search.prev with
      | some prev => Function.update search.next prev after
      | none => search.next
  let cancel := queueEnqueHead ⟨next, search.cancelQueue⟩ curr
  { search with next := cancel.next, sendQueue := sendQueue, cancelQueue := cancel.queue }

def cancelLoop (matching : Nat → Bool) : Nat → CancelSearch → CancelSearch
  | 0, search => search
  | fuel + 1, search =>
    match search.curr with
    | none => search
    | some curr =>
      let search := if matching curr then cancelTake search curr else search
      cancelLoop matching fuel { search with prev := some curr, curr := search.next curr }

def cancelComplete : Nat → QueueMemory → List Nat
  | 0, _ => []
  | fuel + 1, m =>
    match queueDeque m with
    | (none, _) => []
    | (some nbl, m) => nbl :: cancelComplete fuel m

/-- `SrCancelQueued`: what it leaves of the send queue, and the NBLs it completes. The queue holds
    fewer than `fuel` NBLs. -/
def srCancelQueued (matching : Nat → Bool) (fuel : Nat) (m : QueueMemory) : QueueMemory × List Nat :=
  let search := cancelLoop matching fuel
    { next := m.next, sendQueue := m.queue, cancelQueue := .init, curr := m.queue.head,
      prev := m.queue.head }
  (⟨search.next, search.sendQueue⟩, cancelComplete fuel ⟨search.next, search.cancelQueue⟩)

structure Searching (m : QueueMemory) (search : CancelSearch) (before rest : List Nat) : Prop where
  next : search.next = m.next
  sendQueue : search.sendQueue = m.queue
  cancelQueue : search.cancelQueue = .init
  curr : search.curr = rest.head?
  prev : before ≠ [] → search.prev = before.getLast?

section Search

variable {m : QueueMemory} {matching : Nat → Bool} {search : CancelSearch} {before rest : List Nat}
  {curr : Nat}

theorem next_of_holds (before : List Nat) (holds : m.Holds (before ++ curr :: rest)) :
    m.next curr = rest.head? := by
  have chain := holds.chain
  rw [segment_append] at chain
  rcases chain with ⟨middle, _, back⟩
  exact back.2.first_eq

theorem head_eq_iff (holds : m.Holds (before ++ curr :: rest)) :
    m.queue.head = some curr ↔ before = [] := by
  rw [holds.chain.first_eq]
  cases before with
  | nil => simp
  | cons first before =>
    have distinct := holds.nodup
    rw [List.cons_append, List.nodup_cons] at distinct
    have different : first ≠ curr := by
      intro same
      exact distinct.1 (by simp [same])
    simpa using different

theorem cancelTake_first (holds : m.Holds (curr :: rest))
    (searching : Searching m search [] (curr :: rest)) :
    (cancelTake search curr).next = Function.update m.next curr none ∧
      (cancelTake search curr).sendQueue =
        ⟨rest.head?, if rest.head? = none then none else m.queue.tail⟩ := by
  have after : m.next curr = rest.head? := holds.chain.2.first_eq
  have first : m.queue.head = some curr := holds.chain.1
  simp only [cancelTake, searching.sendQueue, if_pos first, queueEnqueHead, searching.next,
    searching.cancelQueue, after]
  exact ⟨rfl, trivial⟩

theorem cancelTake_later {prev : Nat} (holds : m.Holds ((before ++ [prev]) ++ curr :: rest))
    (searching : Searching m search (before ++ [prev]) (curr :: rest)) :
    (cancelTake search curr).next =
        Function.update (Function.update m.next prev rest.head?) curr none ∧
      (cancelTake search curr).sendQueue =
        ⟨m.queue.head, if rest.head? = none then some prev else m.queue.tail⟩ := by
  have after := next_of_holds _ holds
  have later : ¬ m.queue.head = some curr := by
    rw [head_eq_iff holds]
    simp
  have previous : search.prev = some prev := by simpa using searching.prev (by simp)
  simp only [cancelTake, searching.sendQueue, if_neg later, queueEnqueHead, searching.next,
    searching.cancelQueue, after, previous]
  exact ⟨rfl, trivial⟩

theorem cancelTake_sendQueue (holds : m.Holds (before ++ curr :: rest))
    (searching : Searching m search before (curr :: rest)) :
    QueueMemory.Holds ⟨(cancelTake search curr).next, (cancelTake search curr).sendQueue⟩
      (before ++ rest) := by
  have distinct := holds.nodup
  have unlinked := List.nodup_middle.mp distinct
  have fresh : curr ∉ before ++ rest := (List.nodup_cons.mp unlinked).1
  have nodup : (before ++ rest).Nodup := (List.nodup_cons.mp unlinked).2
  rcases List.eq_nil_or_concat before with empty | ⟨front, prev, shape⟩
  · subst empty
    rcases cancelTake_first holds searching with ⟨next, sendQueue⟩
    rw [next, sendQueue]
    have back := holds.chain.2
    rw [back.first_eq] at back
    refine ⟨back.update fresh none, ?_, nodup⟩
    rw [holds.tail]
    cases rest <;> simp
  · rw [List.concat_eq_append] at shape
    subst shape
    rcases cancelTake_later holds searching with ⟨next, sendQueue⟩
    rw [next, sendQueue]
    have apart := nodup
    rw [List.append_assoc, List.singleton_append] at apart
    have alone := (List.nodup_cons.mp (List.nodup_middle.mp apart)).1
    rw [List.mem_append, not_or] at alone
    have chain := holds.chain
    rw [segment_append] at chain
    rcases chain with ⟨middle, passed, starts, back⟩
    rw [back.first_eq] at back
    refine ⟨?_, ?_, nodup⟩
    · apply Segment.update _ fresh
      rw [segment_append]
      exact ⟨rest.head?, passed.redirect alone.1 _, back.update alone.2 _⟩
    · rw [holds.tail]
      cases rest <;> simp

theorem cancelTake_next (searching : Searching m search before (curr :: rest)) :
    (cancelTake search curr).next curr = none := by
  rw [cancelTake]
  simp [queueEnqueHead, searching.cancelQueue, QueueHeader.init]

theorem cancelTake_cancelQueue (searching : Searching m search before (curr :: rest)) :
    (cancelTake search curr).cancelQueue = ⟨some curr, some curr⟩ := by
  rw [cancelTake]
  simp [queueEnqueHead, searching.cancelQueue, QueueHeader.init]

end Search

structure Searched (m : QueueMemory) (search : CancelSearch) (kept taken : List Nat) : Prop where
  sendQueue : QueueMemory.Holds ⟨search.next, search.sendQueue⟩ kept
  cancelQueue : QueueMemory.Holds ⟨search.next, search.cancelQueue⟩ taken

section Loop

variable {m : QueueMemory} {matching : Nat → Bool} {search : CancelSearch} {before rest : List Nat}

theorem cancelLoop_done (ended : search.curr = none) (fuel : Nat) :
    cancelLoop matching fuel search = search := by
  cases fuel with
  | zero => rfl
  | succ fuel => simp only [cancelLoop, ended]

theorem cancelLoop_searched (matching : Nat → Bool) (fuel : Nat) (enough : rest.length < fuel)
    (holds : m.Holds (before ++ rest)) (searching : Searching m search before rest) :
    Searched m (cancelLoop matching fuel search) (before ++ rest.eraseP matching)
      (rest.find? matching).toList := by
  induction rest generalizing before fuel search with
  | nil =>
    rw [cancelLoop_done searching.curr]
    refine ⟨?_, ?_⟩
    · rw [searching.next, searching.sendQueue]
      exact holds
    · rw [searching.cancelQueue]
      exact holds_init _
  | cons curr rest ih =>
    obtain ⟨fuel, rfl⟩ : ∃ less, fuel = less + 1 := ⟨fuel - 1, by omega⟩
    have here : search.curr = some curr := searching.curr
    by_cases found : matching curr = true
    · simp only [cancelLoop, here, if_pos found]
      have last := cancelTake_next searching
      rw [last, cancelLoop_done rfl, List.eraseP_cons_of_pos found, List.find?_cons_of_pos found]
      refine ⟨cancelTake_sendQueue holds searching, ?_⟩
      simp only [cancelTake_cancelQueue searching]
      exact ⟨⟨rfl, last⟩, rfl, List.nodup_singleton curr⟩
    · simp only [cancelLoop, here, if_neg found]
      rw [List.eraseP_cons_of_neg found, List.find?_cons_of_neg found]
      have regroup : ∀ tail, before ++ curr :: tail = (before ++ [curr]) ++ tail := by simp
      rw [regroup] at holds ⊢
      apply ih fuel (by simpa using enough) holds
      refine ⟨searching.next, searching.sendQueue, searching.cancelQueue, ?_, fun _ => by simp⟩
      have after := next_of_holds before (by rw [regroup]; exact holds)
      simpa [searching.next] using after

theorem cancelComplete_holds (nbls : List Nat) (fuel : Nat) (enough : nbls.length < fuel)
    (holds : m.Holds nbls) : cancelComplete fuel m = nbls := by
  induction nbls generalizing m fuel with
  | nil =>
    obtain ⟨fuel, rfl⟩ : ∃ less, fuel = less + 1 := ⟨fuel - 1, by omega⟩
    have empty : m.queue.head = none := holds.chain
    simp [cancelComplete, queueDeque, empty]
  | cons nbl nbls ih =>
    obtain ⟨fuel, rfl⟩ : ∃ less, fuel = less + 1 := ⟨fuel - 1, by omega⟩
    rcases holds.deque with ⟨removed, rest⟩
    have split : queueDeque m = (some nbl, (queueDeque m).2) := by rw [← removed]
    rw [cancelComplete, split]
    simp only [ih fuel (by simpa using enough) rest]

theorem srCancelQueued_holds {nbls : List Nat} (matching : Nat → Bool) (fuel : Nat)
    (enough : nbls.length < fuel) (holds : m.Holds nbls) :
    (srCancelQueued matching fuel m).1.Holds (nbls.eraseP matching) ∧
      (srCancelQueued matching fuel m).2 = (nbls.find? matching).toList := by
  have searching : Searching m ⟨m.next, m.queue, .init, m.queue.head, m.queue.head⟩ [] nbls :=
    ⟨rfl, rfl, rfl, holds.chain.first_eq, fun impossible => absurd rfl impossible⟩
  have searched := cancelLoop_searched matching fuel enough holds searching
  have short : (nbls.find? matching).toList.length < fuel := by
    cases nbls with
    | nil => exact enough
    | cons nbl nbls =>
      have atMost := Option.length_toList_le (o := (nbl :: nbls).find? matching)
      simp only [List.length_cons] at enough
      omega
  exact ⟨searched.sendQueue, cancelComplete_holds _ _ short searched.cancelQueue⟩

end Loop

end Venet
