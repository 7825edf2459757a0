import AlacrityDrivers.Vbus.EventDelivery

namespace Vbus.DrainRace

open Transition Circular EventQueue

/-- The event queue with, for each thread, the number of pops there had been when its drain sought
    the head or last popped, and whether any pop has failed. -/
structure Race where
  queue : EventQueue.State
  since : Nat → Nat
  failed : Bool

def drainStep (size : RingSize) (r : Race) (thread : Nat) : GuestPc → Race
  | .seek after =>
    { r with
      queue := guestStep size r.queue thread (.seek after)
      since := Function.update r.since thread r.queue.pops }
  | .dispatch pos after =>
    let dispatched := guestStep size r.queue thread (.dispatch pos after)
    { r with queue := guestStep size dispatched thread (.clear pos r.queue.posted after) }
  | .pop pos mark after =>
    let popped := guestStep size r.queue thread (.pop pos mark after)
    if (ioqIterPop r.queue.head (drainIter size pos)).ret < 0 then
      { r with
        queue := popped
        failed := true }
    else
      { r with
        queue := popped
        since := Function.update r.since thread popped.pops }
  | pc => { r with queue := guestStep size r.queue thread pc }

def step (size : RingSize) (r : Race) : EventQueue.Action → Option Race
  | .guestStep thread => (r.queue.guest thread).map (drainStep size r thread)
  | action => (EventQueue.step size r.queue action).map fun queue => { r with queue := queue }

def machine (size : RingSize) : Machine Race EventQueue.Action where
  start := ⟨(EventQueue.machine size).start, fun _ => 0, false⟩
  step := step size

/-- No posting has been dispatched twice, and no pop has failed. -/
structure Once (r : Race) : Prop where
  dispatched : r.queue.dispatched.Nodup
  popped : r.failed = false

/-- A drain pops only if no other drain has popped since it took its position, or only so often that
    the head has come back there, with an event outstanding. -/
def Undisturbed (size : RingSize) (r : Race) : EventQueue.Action → Prop
  | .guestStep thread => ∀ pos mark after, r.queue.guest thread = some (.pop pos mark after) →
      r.queue.pops = r.since thread ∨
        size.count ∣ r.queue.pops - r.since thread ∧ r.queue.pops < r.queue.posted
  | _ => True

structure Buffered (size : RingSize) (s : EventQueue.State) : Prop where
  window : OwnedWindow s.head size .inuse .north s.pops s.posted
  cookie : ∀ i, i < size.count → (s.head.ring i).cookie = i
  held : ∀ i k, s.events i = some k → k % size.count = i ∧ k < s.posted ∧ k ∉ s.dispatched
  past : ∀ k ∈ s.dispatched, k < s.posted
  once : s.dispatched.Nodup

def Stands (size : RingSize) (s : EventQueue.State) (since : Nat) : GuestPc → Prop
  | .test pos _ => since ≤ s.pops ∧ pos = since % size.count
  | .dispatch pos _ => since ≤ s.pops ∧ pos = since % size.count ∧ (s.pops = since → s.pops < s.posted)
  | .clear pos _ _ => since ≤ s.pops ∧ pos = since % size.count ∧ (s.pops = since → s.pops < s.posted)
  | .pop pos _ _ => since ≤ s.pops ∧ pos = since % size.count ∧ (s.pops = since → s.pops < s.posted)
  | _ => True

structure Known (size : RingSize) (r : Race) : Prop where
  buffered : Buffered size r.queue
  stands : ∀ thread pc, r.queue.guest thread = some pc → Stands size r.queue (r.since thread) pc

section Buffered

variable {size : RingSize} {s : EventQueue.State} {thread : Nat}

theorem buffered_initial (size : RingSize) : Buffered size (EventQueue.machine size).start := by
  have ready := eventqStart_ready size
  refine ⟨ready.inuse, fun i inside => (ready.desc i inside).cookie, ?_, ?_, List.nodup_nil⟩
  · intro i k impossible
    cases impossible
  · intro k impossible
    cases impossible

theorem Buffered.beside (buffered : Buffered size s) (host : Option InjectPc) (inFlight : Nat)
    (dpcQueued : Bool) (guest : Nat → Option GuestPc) :
    Buffered size { s with
      host := host
      inFlight := inFlight
      dpcQueued := dpcQueued
      guest := guest } :=
  ⟨buffered.window, buffered.cookie, buffered.held, buffered.past, buffered.once⟩

theorem Buffered.goto (buffered : Buffered size s) (thread : Nat) (next : Option GuestPc) :
    Buffered size (s.goto thread next) := buffered.beside _ _ _ _

theorem Buffered.flags (buffered : Buffered size s) (signal : ShmSignalDesc) (dpcQueued : Bool) :
    Buffered size { s with
      head := { s.head with signal := signal }
      dpcQueued := dpcQueued } :=
  ⟨⟨buffered.window.tracks, buffered.window.owner⟩, buffered.cookie, buffered.held, buffered.past,
    buffered.once⟩

theorem Buffered.post (buffered : Buffered size s) (room : s.posted < s.pops + size.count) :
    Buffered size { s with
      head := s.head.handOver .inuse (idxTailPush (s.head.idx .inuse) size.count)
        (s.head.idx .inuse).tail .north
      events := Function.update s.events (s.posted % size.count) (some s.posted)
      host := some .markDirty
      posted := s.posted + 1 } := by
  refine ⟨buffered.window.after_push room, ?_, ?_, ?_, buffered.once⟩
  · intro i inside
    rw [handOver_desc]
    exact buffered.cookie i inside
  · intro i k holds
    dsimp only at holds ⊢
    by_cases last : i = s.posted % size.count
    · rw [last, Function.update_self, Option.some.injEq] at holds
      subst holds
      refine ⟨last.symm, Nat.lt_succ_self _, ?_⟩
      intro dispatched
      exact Nat.lt_irrefl _ (buffered.past _ dispatched)
    · rw [Function.update_of_ne last] at holds
      rcases buffered.held i k holds with ⟨place, before, fresh⟩
      exact ⟨place, Nat.lt_succ_of_lt before, fresh⟩
  · intro k dispatched
    exact Nat.lt_succ_of_lt (buffered.past k dispatched)

theorem Buffered.clear (buffered : Buffered size s) (i : Nat) :
    Buffered size { s with events := Function.update s.events i none } := by
  refine ⟨buffered.window, buffered.cookie, ?_, buffered.past, buffered.once⟩
  intro j k holds
  dsimp only at holds
  by_cases same : j = i
  · rw [same, Function.update_self] at holds
    cases holds
  · rw [Function.update_of_ne same] at holds
    exact buffered.held j k holds

theorem Buffered.dispatch (buffered : Buffered size s) (i : Nat) :
    Buffered size { s with
      dispatched := s.dispatched ++ (s.events i).toList
      events := Function.update s.events i none } := by
  cases content : s.events i with
  | none =>
    rw [Option.toList_none, List.append_nil]
    exact buffered.clear i
  | some event =>
    rcases buffered.held i event content with ⟨place, before, fresh⟩
    refine ⟨buffered.window, buffered.cookie, ?_, ?_, ?_⟩
    · intro j k holds
      dsimp only at holds ⊢
      by_cases same : j = i
      · rw [same, Function.update_self] at holds
        cases holds
      · rw [Function.update_of_ne same] at holds
        rcases buffered.held j k holds with ⟨there, posted, waiting⟩
        refine ⟨there, posted, ?_⟩
        intro dispatched
        rcases List.mem_append.mp dispatched with earlier | now
        · exact waiting earlier
        · rw [Option.toList_some, List.mem_singleton] at now
          exact same (there.symm.trans (now ▸ place))
    · intro k dispatched
      rcases List.mem_append.mp dispatched with earlier | now
      · exact buffered.past k earlier
      · rw [Option.toList_some, List.mem_singleton] at now
        exact now ▸ before
    · apply List.nodup_append.mpr
      refine ⟨buffered.once, List.pairwise_singleton _ event, ?_⟩
      intro earlier among now singleton same
      rw [List.mem_singleton.mp singleton] at same
      exact fresh (same ▸ among)

theorem Buffered.pop (buffered : Buffered size s) (nonempty : s.pops < s.posted) :
    Buffered size { s with
      head := s.head.handOver .inuse (idxHeadPop (s.head.idx .inuse) size.count)
        (s.head.idx .inuse).head .south
      pops := s.pops + 1 } := by
  refine ⟨buffered.window.after_pop nonempty, ?_, buffered.held, buffered.past, buffered.once⟩
  intro i inside
  rw [handOver_desc]
  exact buffered.cookie i inside

end Buffered

section Stands

variable {size : RingSize} {s next : EventQueue.State} {since : Nat} {pc : GuestPc}

theorem stands_mono (stands : Stands size s since pc) (pops : s.pops ≤ next.pops)
    (posted : s.posted ≤ next.posted) : Stands size next since pc := by
  have outstanding (le : since ≤ s.pops) (seen : s.pops = since → s.pops < s.posted)
      (same : next.pops = since) : next.pops < next.posted := by
    have before := seen (by omega)
    omega
  cases pc with
  | test pos after => exact ⟨Nat.le_trans stands.1 pops, stands.2⟩
  | dispatch pos after =>
    exact ⟨Nat.le_trans stands.1 pops, stands.2.1, outstanding stands.1 stands.2.2⟩
  | clear pos mark after =>
    exact ⟨Nat.le_trans stands.1 pops, stands.2.1, outstanding stands.1 stands.2.2⟩
  | pop pos mark after =>
    exact ⟨Nat.le_trans stands.1 pops, stands.2.1, outstanding stands.1 stands.2.2⟩
  | _ => exact True.intro

theorem stands_unplaced (unplaced : pc.Unplaced) : Stands size s since pc := by
  cases pc with
  | test | dispatch | clear | pop => exact unplaced.elim
  | _ => exact True.intro

end Stands

section Known

variable {size : RingSize} {r : Race} {thread : Nat}

theorem known_start (size : RingSize) : Known size (machine size).start := by
  refine ⟨buffered_initial size, ?_⟩
  intro thread pc impossible
  cases impossible

theorem Known.move (known : Known size r) {queue : EventQueue.State} {next : Option GuestPc}
    {since : Nat → Nat} (buffered : Buffered size queue)
    (guests : ∀ other, other ≠ thread → queue.guest other = r.queue.guest other)
    (pops : r.queue.pops ≤ queue.pops) (posted : r.queue.posted ≤ queue.posted)
    (others : ∀ other, other ≠ thread → since other = r.since other)
    (stands : ∀ pc, next = some pc → Stands size (queue.goto thread next) (since thread) pc)
    (failed : Bool) : Known size ⟨queue.goto thread next, since, failed⟩ := by
  refine ⟨buffered.goto thread next, ?_⟩
  intro other pc running
  by_cases same : other = thread
  · subst same
    rw [goto_guest_self] at running
    exact stands pc running
  · dsimp only at running ⊢
    rw [goto_guest_other queue thread next same, guests other same] at running
    rw [others other same]
    exact stands_mono (known.stands other pc running) pops posted

theorem Known.goto (known : Known size r) (thread : Nat) (next : Option GuestPc)
    (stands : ∀ pc, next = some pc → Stands size r.queue (r.since thread) pc) :
    Known size { r with queue := r.queue.goto thread next } :=
  known.move known.buffered (fun _ _ => rfl) (Nat.le_refl _) (Nat.le_refl _) (fun _ _ => rfl) stands
    r.failed

theorem stands_some {s : EventQueue.State} {since : Nat} {new : GuestPc}
    (stands : Stands size s since new) : ∀ pc, some new = some pc → Stands size s since pc := by
  intro pc next
  rw [← Option.some.inj next]
  exact stands

theorem Known.seek (known : Known size r) (thread : Nat) (after : After) :
    Known size (drainStep size r thread (.seek after)) := by
  apply known.move known.buffered (fun _ _ => rfl) (Nat.le_refl _) (Nat.le_refl _)
  · intro other different
    exact Function.update_of_ne different _ _
  · apply stands_some
    rw [Function.update_self]
    exact ⟨Nat.le_refl _, known.buffered.window.tracks.head⟩

theorem Known.test (known : Known size r) {pos : Nat} {after : After}
    (running : r.queue.guest thread = some (.test pos after)) :
    Known size (drainStep size r thread (.test pos after)) := by
  rcases known.stands thread _ running with ⟨le, place⟩
  apply known.goto
  apply stands_some
  split
  · rename_i owned
    refine ⟨le, place, ?_⟩
    intro same
    apply known.buffered.window.head_owner.mp
    rw [known.buffered.window.tracks.head, same, ← place]
    exact owned
  · exact True.intro

theorem Known.dispatch (known : Known size r) {pos : Nat} {after : After}
    (running : r.queue.guest thread = some (.dispatch pos after)) :
    Known size (drainStep size r thread (.dispatch pos after)) := by
  have dispatched := known.buffered.dispatch (r.queue.head.ring pos).cookie
  refine known.move (dispatched.goto thread _) ?_ (Nat.le_refl _) (Nat.le_refl _) (fun _ _ => rfl) ?_ _
  · intro other different
    exact goto_guest_other _ _ _ different
  · exact stands_some (known.stands thread _ running)

theorem Known.pop (known : Known size r) {pos mark : Nat} {after : After}
    (running : r.queue.guest thread = some (.pop pos mark after)) :
    Known size (drainStep size r thread (.pop pos mark after)) := by
  rcases known.stands thread _ running with ⟨le, place, _⟩
  rcases pop_drain known.buffered.window pos with ⟨_, nonempty, popped⟩ | ⟨_, refused⟩
  · simp only [drainStep, guestStep, popped]
    apply known.move (known.buffered.pop nonempty) (fun _ _ => rfl) (Nat.le_succ _) (Nat.le_refl _)
    · intro other different
      exact Function.update_of_ne different _ _
    · apply stands_some
      rw [Function.update_self]
      exact ⟨Nat.le_refl _, rfl⟩
  · simp only [drainStep, guestStep, refused]
    apply known.move known.buffered (fun _ _ => rfl) (Nat.le_refl _) (Nat.le_refl _)
      (fun _ _ => rfl)
    apply stands_some
    exact ⟨le, place⟩

theorem Known.drain (known : Known size r) {pc : GuestPc}
    (running : r.queue.guest thread = some pc) : Known size (drainStep size r thread pc) := by
  have outside := guestStep_outside size r.queue thread pc
  cases pc with
  | seek after => exact known.seek thread after
  | test pos after => exact known.test running
  | dispatch pos after => exact known.dispatch running
  | clear pos mark after =>
    apply known.move (known.buffered.clear _) (fun _ _ => rfl) (Nat.le_refl _) (Nat.le_refl _)
      (fun _ _ => rfl)
    apply stands_some
    exact known.stands thread _ running
  | pop pos mark after => exact known.pop running
  | _ =>
    rcases outside (fun inLoop => inLoop True.intro) with ⟨signal, dpcQueued, next, moved, unplaced⟩
    rw [drainStep, moved]
    · apply known.move (known.buffered.flags signal dpcQueued) (fun _ _ => rfl) (Nat.le_refl _)
        (Nat.le_refl _) (fun _ _ => rfl)
      intro new arrived
      exact stands_unplaced (unplaced new arrived)
    all_goals nofun

theorem Known.post (known : Known size r) {queue : EventQueue.State}
    (posted : post size r.queue = some queue) : Known size { r with queue := queue } := by
  rcases post_cases known.buffered.window known.buffered.cookie with refused | ⟨room, admitted⟩
  · rw [refused, Option.some.injEq] at posted
    rw [← posted]
    exact known
  · rw [admitted, Option.some.injEq] at posted
    rw [← posted]
    refine ⟨known.buffered.post room, ?_⟩
    intro thread pc running
    exact stands_mono (known.stands thread pc running) (Nat.le_refl _) (Nat.le_succ _)

theorem Known.hostStep (known : Known size r) (pc : InjectPc) :
    Known size { r with queue := hostStep r.queue pc } := by
  refine ⟨(known.buffered.flags _ _).beside _ _ _ _, ?_⟩
  intro thread pc running
  exact stands_mono (known.stands thread pc running) (Nat.le_refl _) (Nat.le_refl _)

theorem Known.deliver (known : Known size r) (thread inFlight : Nat) :
    Known size { r with queue := { r.queue with inFlight := inFlight }.goto thread (some .isrTest) } := by
  have delivered := known.buffered.beside r.queue.host inFlight r.queue.dpcQueued r.queue.guest
  apply known.move delivered (fun _ _ => rfl) (Nat.le_refl _) (Nat.le_refl _) (fun _ _ => rfl)
  apply stands_some
  exact True.intro

theorem Known.startDpc (known : Known size r) (thread : Nat) (queued : Bool) :
    Known size { r with
      queue := { r.queue with dpcQueued := queued }.goto thread
        (some (.wakeup .testEnabled .enable)) } := by
  have started := known.buffered.beside r.queue.host r.queue.inFlight queued r.queue.guest
  apply known.move started (fun _ _ => rfl) (Nat.le_refl _) (Nat.le_refl _) (fun _ _ => rfl)
  apply stands_some
  exact True.intro

theorem known_step (size : RingSize) (r : Race) (action : EventQueue.Action) (next : Race)
    (known : Known size r) (stepped : step size r action = some next) : Known size next := by
  cases action with
  | post =>
    simp only [step, EventQueue.step, Option.map_eq_some_iff, Option.ite_none_right_eq_some] at stepped
    rcases stepped with ⟨queue, ⟨_, posted⟩, rfl⟩
    exact known.post posted
  | hostStep =>
    simp only [step, EventQueue.step, Option.map_eq_some_iff] at stepped
    rcases stepped with ⟨_, ⟨pc, _, rfl⟩, rfl⟩
    exact known.hostStep pc
  | deliver thread =>
    simp only [step, EventQueue.step, Option.map_eq_some_iff, Option.ite_none_right_eq_some,
      Option.some.injEq] at stepped
    rcases stepped with ⟨_, ⟨_, rfl⟩, rfl⟩
    exact known.deliver thread _
  | startDpc thread =>
    simp only [step, EventQueue.step, Option.map_eq_some_iff, Option.ite_none_right_eq_some,
      Option.some.injEq] at stepped
    rcases stepped with ⟨_, ⟨_, rfl⟩, rfl⟩
    exact known.startDpc thread _
  | call thread callback =>
    simp only [step, EventQueue.step, Option.map_eq_some_iff, Option.ite_none_right_eq_some,
      Option.some.injEq] at stepped
    rcases stepped with ⟨_, ⟨_, rfl⟩, rfl⟩
    apply known.goto
    apply stands_some
    cases callback with
    | _ => exact True.intro
  | guestStep thread =>
    simp only [step, Option.map_eq_some_iff] at stepped
    rcases stepped with ⟨pc, running, rfl⟩
    exact known.drain running

/-- Whatever the drains do, no event is dispatched twice. -/
theorem dispatched_once {size : RingSize} {r : Race} (reached : (machine size).Reachable r) :
    r.queue.dispatched.Nodup :=
  (reached.invariant (known_start size) (known_step size)).buffered.once

theorem Known.pop_failed (known : Known size r) {pos mark : Nat} {after : After}
    (running : r.queue.guest thread = some (.pop pos mark after)) (unfailed : r.failed = false) :
    (drainStep size r thread (.pop pos mark after)).failed = false ↔
      r.queue.pops = r.since thread ∨
        size.count ∣ r.queue.pops - r.since thread ∧ r.queue.pops < r.queue.posted := by
  rcases known.stands thread _ running with ⟨le, place, seen⟩
  have head := known.buffered.window.tracks.head
  have turns : pos = (r.queue.head.idx .inuse).head ↔
      size.count ∣ r.queue.pops - r.since thread := by
    rw [place, head]
    exact Nat.modEq_iff_dvd' le
  rcases pop_drain known.buffered.window pos with ⟨position, nonempty, popped⟩ | ⟨empty, refused⟩
  · simp only [drainStep, popped]
    constructor
    · intro _
      exact Or.inr ⟨turns.mp position, nonempty⟩
    · intro _
      exact unfailed
  · simp only [drainStep, refused]
    constructor
    · intro impossible
      cases impossible
    · intro undisturbed
      have outstanding : pos = (r.queue.head.idx .inuse).head ∧ r.queue.pops < r.queue.posted := by
        rcases undisturbed with same | ⟨whole, nonempty⟩
        · exact ⟨by rw [place, head, same], seen same⟩
        · exact ⟨turns.mpr whole, nonempty⟩
      have none := empty outstanding.1
      omega

theorem once_preserved (r : Race) (action : EventQueue.Action) (next : Race)
    (known : Known size r ∧ r.failed = false) (guarded : Undisturbed size r action)
    (stepped : step size r action = some next) : Known size next ∧ next.failed = false := by
  refine ⟨known_step size r action next known.1 stepped, ?_⟩
  cases action with
  | guestStep thread =>
    simp only [step, Option.map_eq_some_iff] at stepped
    rcases stepped with ⟨pc, running, rfl⟩
    cases pc with
    | pop pos mark after =>
      exact (known.1.pop_failed running known.2).mpr (guarded pos mark after running)
    | _ => exact known.2
  | _ =>
    simp only [step, Option.map_eq_some_iff] at stepped
    rcases stepped with ⟨queue, _, rfl⟩
    exact known.2

theorem once_forced (r : Race) (action : EventQueue.Action) (next : Race)
    (known : Known size r ∧ r.failed = false) (stepped : step size r action = some next)
    (once : Once next) : Undisturbed size r action := by
  cases action with
  | guestStep thread =>
    intro pos mark after running
    simp only [step, running, Option.map_some, Option.some.injEq] at stepped
    rw [← stepped] at once
    exact (known.1.pop_failed running known.2).mp once.popped
  | _ => exact True.intro

end Known

/-- `_ShmSignalWakeup` keeps no drain out while another is at work: no event is dispatched twice, but
    a pop succeeds only where the other drains have not popped since the drain took its position. -/
theorem drains_dispatch_once (size : RingSize) (actions : List EventQueue.Action) :
    (machine size).Throughout Once (machine size).start actions ↔
      (machine size).Meets ((machine size).OnSteps (Undisturbed size)) (machine size).start
        actions := by
  apply Machine.throughout_iff_guarded
    (fun r => Known size r ∧ r.failed = false) _ once_preserved once_forced ⟨known_start size, rfl⟩
  intro r known
  exact ⟨known.1.buffered.once, known.2⟩

def steps (thread count : Nat) : List EventQueue.Action := List.replicate count (.guestStep thread)

def overlap : List EventQueue.Action :=
  .post :: .hostStep :: .call 0 .d0Entry :: steps 0 7 ++ List.replicate 4 .hostStep ++
    .deliver 1 :: steps 1 3 ++ .startDpc 1 :: steps 1 9 ++ steps 0 1 ++ steps 1 1 ++ steps 0 1 ++
    steps 1 1

theorem second_pop_fails :
    let m := machine ⟨2, by decide, by decide⟩
    let final := (m.run m.start overlap).get (by decide)
    ¬ Once final ∧ final.queue.dispatched = [0] ∧ final.queue.pops = 1 := by
  refine ⟨?_, by decide, by decide⟩
  intro once
  have popped := once.popped
  revert popped
  decide

end Vbus.DrainRace
