import AlacrityDrivers.Vbus.EventRing

namespace Vbus.EventRing

open Circular

/-- The loop of `eventq_wakeup` and the signal behind it; `none` where it is not over after that many
    passes. -/
def wakeupLoop : Nat → State → IoqIterator → Option State
  | 0, s, iter =>
    match (iterate s iter).drainer with
    | none => some (iterate s iter)
    | some _ => none
  | passes + 1, s, iter =>
    match (iterate s iter).drainer with
    | none => some (iterate s iter)
    | some moved => wakeupLoop passes (iterate s iter) moved

def eventqWakeup (size : RingSize) (passes : Nat) (s : State) : Option State :=
  (enter size s).bind fun started => started.drainer.bind (wakeupLoop passes started)

def slotAt (size : RingSize) (s : State) (k : Nat) : Nat :=
  ((s.head.idx .inuse).head + k) % size.count

/-- Every descriptor has an event buffer of its own. -/
def DistinctCookies (size : RingSize) (head : RingHead) : Prop :=
  ∀ i j, i < size.count → j < size.count → (head.ring i).cookie = (head.ring j).cookie → i = j

structure ReadyRun (size : RingSize) (s : State) (n : Nat) : Prop where
  within : n ≤ size.count
  north : ∀ k, k < n → (s.head.ring (slotAt size s k)).sown = .north
  ends : n < size.count → (s.head.ring (slotAt size s n)).sown = .south

structure DrainedBy (size : RingSize) (s : State) (n : Nat) (after : State) : Prop where
  dispatched : after.dispatched = s.dispatched ++ (List.range n).map fun k =>
    ⟨slotAt size s k, s.events (s.head.ring (slotAt size s k)).cookie⟩
  handed : ∀ k, k < n → after.head.ring (slotAt size s k) =
    { s.head.ring (slotAt size s k) with sown := .south }
  kept : ∀ i, (∀ k, k < n → i ≠ slotAt size s k) → after.head.ring i = s.head.ring i
  zeroed : ∀ k, k < n → after.events (s.head.ring (slotAt size s k)).cookie = .zeroed
  untouched : ∀ buffer, (∀ k, k < n → buffer ≠ (s.head.ring (slotAt size s k)).cookie) →
    after.events buffer = s.events buffer
  head : (after.head.idx .inuse).head = slotAt size s n
  tail : (after.head.idx .inuse).tail = (s.head.idx .inuse).tail
  full : (after.head.idx .inuse).full = if n = 0 then (s.head.idx .inuse).full else false
  valid : after.head.idx .valid = s.head.idx .valid
  pops : after.pops = s.pops + n
  asserted : after.asserted = s.asserted

section Drain

variable {size : RingSize} {s cur : State} {k : Nat}

theorem slotAt_lt (size : RingSize) (s : State) (k : Nat) : slotAt size s k < size.count :=
  Nat.mod_lt _ size.positive

theorem slotAt_ne {j : Nat} (earlier : j < k) (inside : k < size.count) :
    slotAt size s k ≠ slotAt size s j := by
  intro same
  have equal := mod_injective size.positive (by omega) (by omega) same.symm
  omega

theorem wakeupLoop_ends {iter : IoqIterator} (passes : Nat) (ended : (iterate s iter).drainer = none) :
    wakeupLoop passes s iter = some (iterate s iter) := by
  cases passes with
  | zero => rw [wakeupLoop, ended]
  | succ passes => rw [wakeupLoop, ended]

theorem wakeupLoop_pass {iter moved : IoqIterator} (passes : Nat)
    (more : (iterate s iter).drainer = some moved) :
    wakeupLoop passes s iter =
      if passes = 0 then none else wakeupLoop (passes - 1) (iterate s iter) moved := by
  cases passes with
  | zero =>
    rw [wakeupLoop, more]
    rfl
  | succ passes =>
    rw [wakeupLoop, more]
    rfl

def drainIter (size : RingSize) (s : State) (k : Nat) : IoqIterator :=
  iterAt ⟨.north, size⟩ .inuse .zero (slotAt size s k)

theorem DrainedBy.iterate_ready (drained : DrainedBy size s k cur)
    (ready : (cur.head.ring (slotAt size s k)).sown = .north) :
    iterate cur (drainIter size s k) =
      { cur with
        head := cur.head.handOver .inuse (idxHeadPop (cur.head.idx .inuse) size.count)
          (slotAt size s k) .south
        events := Function.update cur.events (cur.head.ring (slotAt size s k)).cookie .zeroed
        drainer := some (drainIter size s (k + 1))
        dispatched := cur.dispatched ++
          [⟨slotAt size s k, cur.events (cur.head.ring (slotAt size s k)).cookie⟩]
        pops := cur.pops + 1 } := by
  have popped : ioqIterPop cur.head (drainIter size s k) =
      ⟨0, cur.head.handOver .inuse (idxHeadPop (cur.head.idx .inuse) size.count) (slotAt size s k)
          .south, drainIter size s (k + 1), false⟩ := by
    rw [pop_admitted cur.head (drainIter size s k) drained.head.symm (congrArg some ready), drainIter,
      slotAt, finishIter_at]
    rfl
  exact iterate_north ready popped

theorem DrainedBy.pass (drained : DrainedBy size s k cur) (inside : k < size.count)
    (distinct : DistinctCookies size s.head)
    (ready : (s.head.ring (slotAt size s k)).sown = .north) :
    DrainedBy size s (k + 1) (iterate cur (drainIter size s k)) ∧
      (iterate cur (drainIter size s k)).drainer = some (drainIter size s (k + 1)) := by
  have same : cur.head.ring (slotAt size s k) = s.head.ring (slotAt size s k) :=
    drained.kept _ fun j earlier => slotAt_ne earlier inside
  have apart : ∀ j, j < k →
      (s.head.ring (slotAt size s k)).cookie ≠ (s.head.ring (slotAt size s j)).cookie := by
    intro j earlier equal
    exact slotAt_ne earlier inside (distinct _ _ (slotAt_lt size s k) (slotAt_lt size s j) equal)
  have event : cur.events (s.head.ring (slotAt size s k)).cookie =
      s.events (s.head.ring (slotAt size s k)).cookie := drained.untouched _ apart
  rcases idxHeadPop_ends (cur.head.idx .inuse) size.count with ⟨first, last⟩
  rw [drained.iterate_ready (by rw [same]; exact ready), same]
  refine ⟨?_, rfl⟩
  exact
    { dispatched := by
        change cur.dispatched ++ [_] = _
        rw [drained.dispatched, List.range_succ, List.map_append, event, List.append_assoc]
        rfl
      handed := by
        intro j before
        change (cur.head.handOver _ _ _ _).ring _ = _
        rw [handOver_desc]
        by_cases latest : j = k
        · rw [latest, if_pos rfl, same]
        · have earlier : j < k := by omega
          rw [if_neg (slotAt_ne earlier inside).symm, drained.handed j earlier]
      kept := by
        intro i others
        change (cur.head.handOver _ _ _ _).ring i = _
        rw [handOver_desc, if_neg (others k (Nat.lt_succ_self k))]
        exact drained.kept i fun j earlier => others j (Nat.lt_succ_of_lt earlier)
      zeroed := by
        intro j before
        change Function.update cur.events _ _ _ = _
        by_cases latest : j = k
        · rw [latest, Function.update_self]
        · have earlier : j < k := by omega
          rw [Function.update_of_ne (apart j earlier).symm]
          exact drained.zeroed j earlier
      untouched := by
        intro buffer others
        change Function.update cur.events _ _ _ = _
        rw [Function.update_of_ne (others k (Nat.lt_succ_self k))]
        exact drained.untouched buffer fun j earlier => others j (Nat.lt_succ_of_lt earlier)
      head := by
        rw [handOver_idx, first, drained.head]
        exact moduloInc_mod size _
      tail := by
        rw [handOver_idx, last]
        exact drained.tail
      full := by
        rw [handOver_idx, idxHeadPop_full, if_neg (Nat.succ_ne_zero k)]
      valid := by
        rw [handOver_idx_ne cur.head .valid (by decide)]
        exact drained.valid
      pops := by
        change cur.pops + 1 = s.pops + (k + 1)
        rw [drained.pops, Nat.add_assoc]
      asserted := drained.asserted }

theorem DrainedBy.finish (drained : DrainedBy size s k cur)
    (foreign : (cur.head.ring (slotAt size s k)).sown = .south) :
    DrainedBy size s k (iterate cur (drainIter size s k)) ∧
      (iterate cur (drainIter size s k)).drainer = none := by
  have south : (cur.head.ring (slotAt size s k)).sown ≠ .north := by
    rw [foreign]
    decide
  rw [drainIter, iterate_south south]
  exact ⟨⟨drained.dispatched, drained.handed, drained.kept, drained.zeroed, drained.untouched,
    drained.head, drained.tail, drained.full, drained.valid, drained.pops, drained.asserted⟩, rfl⟩

/-- The induction is on the descriptors that the drain has not been at yet. After a whole lap it meets
    the first one it gave away. -/
theorem wakeupLoop_drains (remaining : Nat) (total : k + remaining = size.count)
    (drained : DrainedBy size s k cur)
    (distinct : DistinctCookies size s.head)
    (north : ∀ j, j < k → (s.head.ring (slotAt size s j)).sown = .north) :
    ∃ more final, ReadyRun size s (k + more) ∧ DrainedBy size s (k + more) final ∧
      final.drainer = none ∧
      ∀ passes, wakeupLoop passes cur (drainIter size s k) =
        if more ≤ passes then some final else none := by
  induction remaining generalizing k cur with
  | zero =>
    have whole : k = size.count := total
    have positive := size.positive
    have lap : slotAt size s k = slotAt size s 0 := by
      rw [slotAt, slotAt, whole, Nat.add_mod_right, Nat.add_zero]
    have foreign : (cur.head.ring (slotAt size s k)).sown = .south := by
      rw [lap, drained.handed 0 (by omega)]
    rcases drained.finish foreign with ⟨final, stopped⟩
    refine ⟨0, _, ⟨by omega, north, fun impossible => by omega⟩, final, stopped, ?_⟩
    intro passes
    rw [wakeupLoop_ends passes stopped, if_pos (Nat.zero_le passes)]
  | succ remaining ih =>
    have inside : k < size.count := by omega
    have same : cur.head.ring (slotAt size s k) = s.head.ring (slotAt size s k) :=
      drained.kept _ fun j earlier => slotAt_ne earlier inside
    cases owner : (s.head.ring (slotAt size s k)).sown with
    | south =>
      rcases drained.finish (by rw [same]; exact owner) with ⟨final, stopped⟩
      refine ⟨0, _, ⟨by omega, north, fun _ => owner⟩, final, stopped, ?_⟩
      intro passes
      rw [wakeupLoop_ends passes stopped, if_pos (Nat.zero_le passes)]
    | north =>
      rcases drained.pass inside distinct owner with ⟨next, moved⟩
      have longer : ∀ j, j < k + 1 → (s.head.ring (slotAt size s j)).sown = .north := by
        intro j before
        by_cases latest : j = k
        · rw [latest]
          exact owner
        · exact north j (by omega)
      rcases ih (by omega) next longer with ⟨more, final, run, result, stopped, looped⟩
      have count : k + (more + 1) = k + 1 + more := by omega
      refine ⟨more + 1, final, by rw [count]; exact run, by rw [count]; exact result, stopped, ?_⟩
      intro passes
      rw [wakeupLoop_pass passes moved]
      cases passes with
      | zero => rw [if_pos rfl, if_neg (Nat.not_succ_le_zero more)]
      | succ passes =>
        rw [if_neg (Nat.succ_ne_zero passes), Nat.add_sub_cancel, looped passes]
        simp only [Nat.succ_le_succ_iff]

theorem drainedBy_zero (inside : (s.head.idx .inuse).head < size.count) (drainer : Option IoqIterator) :
    DrainedBy size s 0 { s with drainer := drainer } where
  dispatched := (List.append_nil s.dispatched).symm
  handed := fun k impossible => absurd impossible (Nat.not_lt_zero k)
  kept := fun _ _ => rfl
  zeroed := fun k impossible => absurd impossible (Nat.not_lt_zero k)
  untouched := fun _ _ => rfl
  head := (Nat.mod_eq_of_lt inside).symm
  tail := rfl
  full := rfl
  valid := rfl
  pops := rfl
  asserted := rfl

/-- From any ring, `eventq_wakeup` ends after as many passes as the north owns descriptors from the
    in-use head on, having handled exactly these. -/
theorem eventqWakeup_drains (size : RingSize) (s : State)
    (inside : (s.head.idx .inuse).head < size.count)
    (distinct : DistinctCookies size s.head) :
    ∃ n final, ReadyRun size s n ∧ DrainedBy size s n final ∧ final.drainer = none ∧
      ∀ passes, eventqWakeup size passes s = if n ≤ passes then some final else none := by
  let started : State := { s with drainer := some (drainIter size s 0) }
  have begun : ∀ passes, eventqWakeup size passes s = wakeupLoop passes started (drainIter size s 0) := by
    intro passes
    have entered : enter size s = some started := by
      have sought : enter size s = some
          { s with
            drainer := some (iterAt ⟨.north, size⟩ .inuse .zero (s.head.idx .inuse).head)
            asserted := s.asserted && true } := rfl
      have place : slotAt size s 0 = (s.head.idx .inuse).head := Nat.mod_eq_of_lt inside
      rw [sought, Bool.and_true]
      simp only [started, drainIter, place]
    rw [eventqWakeup, entered]
    rfl
  rcases wakeupLoop_drains size.count (Nat.zero_add _) (drainedBy_zero inside _) distinct
    (fun j impossible => absurd impossible (Nat.not_lt_zero j)) with
    ⟨n, final, run, drained, stopped, looped⟩
  rw [Nat.zero_add] at run drained
  refine ⟨n, final, run, drained, stopped, ?_⟩
  intro passes
  rw [begun]
  exact looped passes

theorem ready_distinct {head : RingHead} (ready : EventqReady head size) (place : Nat)
    (owner : Locality) : DistinctCookies size (head.setSown place owner) := by
  intro i j first second same
  have kept : ∀ k, ((head.setSown place owner).ring k).cookie = (head.ring k).cookie := by
    intro k
    by_cases there : k = place
    · simp [RingHead.setSown, there]
    · simp [RingHead.setSown, there]
  rw [kept, kept, (ready.desc i first).cookie, (ready.desc j second).cookie] at same
  exact same

def oneHanded : State :=
  { initial ⟨2, by decide, by decide⟩ with
    head := (eventqStart ⟨2, by decide, by decide⟩).setSown 0 .north }

theorem eventqWakeup_drains_handed :
    ∃ n final, ReadyRun ⟨2, by decide, by decide⟩ oneHanded n ∧
      DrainedBy ⟨2, by decide, by decide⟩ oneHanded n final ∧ final.drainer = none ∧
      ∀ passes, eventqWakeup ⟨2, by decide, by decide⟩ passes oneHanded =
        if n ≤ passes then some final else none :=
  eventqWakeup_drains ⟨2, by decide, by decide⟩ oneHanded (by decide)
    (ready_distinct (eventqStart_ready _) 0 .north)

end Drain

end Vbus.EventRing
