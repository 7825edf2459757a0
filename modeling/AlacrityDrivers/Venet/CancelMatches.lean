import AlacrityDrivers.Venet.Ledger

namespace Venet

/-- `SrCancelQueued` with the status that it completes the NBLs with. -/
def cancelCompleted (nbls : Nat → Nbl) (fuel cancelId : Nat) (reason : NdisStatus) (m : QueueMemory) :
    QueueMemory × List (Nat × NdisStatus) :=
  let (memory, taken) := srCancelQueued (cancelMatch nbls cancelId) fuel m
  (memory, taken.map fun nbl => (nbl, reason))

/-- Every match is completed once with the reason and nothing else is; the others stay queued, in
    order and well linked. -/
structure RemovesMatches (matching : Nat → Bool) (reason : NdisStatus) (queued : List Nat)
    (result : QueueMemory × List (Nat × NdisStatus)) : Prop where
  completed : result.2.Perm ((queued.filter matching).map fun nbl => (nbl, reason))
  kept : result.1.Holds (queued.filter fun nbl => !matching nbl)

/-- `SrCancelQueued` removes exactly the matches if and only if no more than one queued NBL
    matches. -/
theorem cancel_removes_matches (nbls : Nat → Nbl) (fuel cancelId : Nat) (reason : NdisStatus)
    (m : QueueMemory) (queued : List Nat) (enough : queued.length < fuel) (holds : m.Holds queued) :
    RemovesMatches (cancelMatch nbls cancelId) reason queued
        (cancelCompleted nbls fuel cancelId reason m) ↔
      queued.countP (cancelMatch nbls cancelId) ≤ 1 := by
  have searched := srCancelQueued_holds (cancelMatch nbls cancelId) fuel enough holds
  rcases searched with ⟨kept, taken⟩
  have completed : (cancelCompleted nbls fuel cancelId reason m).2 =
      (queued.find? (cancelMatch nbls cancelId)).toList.map fun nbl => (nbl, reason) := by
    rw [← taken]
    rfl
  constructor
  · intro removes
    have count := removes.completed.length_eq
    rw [completed, List.length_map, List.length_map] at count
    rw [List.countP_eq_length_filter, ← count]
    exact Option.length_toList_le
  · intro few
    constructor
    · rw [completed, Lists.find_eq_filter few]
    · rw [← Lists.eraseP_eq_filter few]
      exact kept

/-- `SrCancelQueued` for the id of the first of two NBLs with different ids. -/
theorem cancel_removes_first :
    RemovesMatches (cancelMatch solo.nbls 1) .requestAborted [0, 1]
      (cancelCompleted solo.nbls 3 1 .requestAborted
        ([0, 1].foldl queueEnqueTail ⟨fun _ => none, .init⟩)) := by
  apply (cancel_removes_matches solo.nbls 3 1 .requestAborted _ [0, 1] (by decide) _).mpr
  · decide
  · exact (holds_init fun _ => none).enqueChain [0, 1] (by decide)

/-- Two queued NBLs and a `NULL` cancel id. -/
theorem cancel_all_misses_second :
    ¬ RemovesMatches (cancelMatch solo.nbls 0) .requestAborted [0, 1]
      (cancelCompleted solo.nbls 3 0 .requestAborted
        ([0, 1].foldl queueEnqueTail ⟨fun _ => none, .init⟩)) := by
  intro removes
  have count := removes.completed.length_eq
  revert count
  decide

end Venet
