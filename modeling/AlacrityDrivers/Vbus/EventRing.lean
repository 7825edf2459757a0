import AlacrityDrivers.Library.Lists
import AlacrityDrivers.Library.Transition
import AlacrityDrivers.Vbus.EventqInit

namespace Vbus.EventRing

open Transition Circular

/-- `struct vbus_pci_event`. In the union, `add.id` and `handle.handle` are the same eight bytes. -/
structure VbusPciEvent where
  eventid : Nat
  word : Nat
  type : List Nat
deriving DecidableEq, Repr

def VbusPciEvent.zeroed : VbusPciEvent := ⟨0, 0, List.replicate 128 0⟩

structure Posting where
  desc : Nat
  event : VbusPciEvent
deriving DecidableEq, Repr

/-- The event ring, the event buffers and one guest thread in or outside the loop of
    `eventq_wakeup`. The logs keep the admitted pushes, the dispatches, the successful pops, and
    whether every `ASSERT` has held. -/
structure State where
  head : RingHead
  events : Nat → VbusPciEvent
  drainer : Option IoqIterator
  posted : List Posting
  dispatched : List Posting
  pops : Nat
  asserted : Bool

inductive Action where
  | post (event : VbusPciEvent)
  | enter
  | iterate

def post (size : RingSize) (event : VbusPciEvent) (s : State) : Option State :=
  (hostPush size s.head).map fun pushed =>
    if pushed.ret < 0 then { s with head := pushed.head }
    else
      let desc := (s.head.idx .inuse).tail
      { s with
        head := pushed.head
        events := Function.update s.events (s.head.ring desc).cookie event
        posted := s.posted ++ [⟨desc, event⟩] }

/-- `eventq_wakeup` up to its loop. -/
def enter (size : RingSize) (s : State) : Option State :=
  (ioqIterInit ⟨.north, size⟩ .inuse .zero).map fun iter =>
    let sought := ioqIterSeek s.head iter .head 0
    { s with drainer := some sought.2, asserted := s.asserted && decide (0 ≤ sought.1) }

/-- One pass of the loop of `eventq_wakeup`, or its end and the signal to the south. The dispatch only
    logs the event: the handlers of the `switch` touch neither the ring nor the event buffers. -/
def iterate (s : State) (iter : IoqIterator) : State :=
  match iter.desc with
  | none => s
  | some slot =>
    if (s.head.ring slot).sown = .north then
      let event := (s.head.ring slot).cookie
      let popped := ioqIterPop s.head iter
      { s with
        head := popped.head
        events := Function.update s.events event .zeroed
        drainer := some popped.iter
        dispatched := s.dispatched ++ [⟨slot, s.events event⟩]
        pops := if popped.ret < 0 then s.pops else s.pops + 1
        asserted := s.asserted && decide (0 ≤ popped.ret) }
    else { s with head := (ioqSignal s.head .north).1, drainer := none }

def step (size : RingSize) (s : State) : Action → Option State
  | .post event => post size event s
  | .enter => if s.drainer = none then enter size s else none
  | .iterate => s.drainer.map (iterate s)

def initial (size : RingSize) : State :=
  { head := eventqStart size, events := fun _ => .zeroed, drainer := none, posted := [],
    dispatched := [], pops := 0, asserted := true }

def machine (size : RingSize) : Machine State Action := ⟨initial size, step size⟩

structure Invariant (size : RingSize) (s : State) : Prop where
  window : OwnedWindow s.head size .inuse .north s.pops s.posted.length
  cookie : ∀ i, i < size.count → (s.head.ring i).cookie = i
  desc : ∀ (k : Nat) (posting : Posting), s.posted[k]? = some posting → posting.desc = k % size.count
  buffer : ∀ (k : Nat) (posting : Posting), s.posted[k]? = some posting → s.pops ≤ k →
    s.events (k % size.count) = posting.event
  drainer : ∀ iter, s.drainer = some iter →
    iter = iterAt ⟨.north, size⟩ .inuse .zero (s.head.idx .inuse).head
  order : s.dispatched = s.posted.take s.pops
  asserted : s.asserted = true

section Invariant

variable {size : RingSize} {s : State}

theorem invariant_initial (size : RingSize) : Invariant size (initial size) := by
  have ready := eventqStart_ready size
  refine ⟨ready.inuse, fun i inside => (ready.desc i inside).cookie, ?_, ?_, ?_, rfl, rfl⟩
  all_goals simp [initial]

theorem iterate_north {ioq : Ioq} {slot : IdxSlot} {flags : IterFlags} {pos : Nat} {head : RingHead}
    {moved : IoqIterator} {injected : Bool} (ready : (s.head.ring pos).sown = .north)
    (popped : ioqIterPop s.head (iterAt ioq slot flags pos) = ⟨0, head, moved, injected⟩) :
    iterate s (iterAt ioq slot flags pos) =
      { s with
        head := head
        events := Function.update s.events (s.head.ring pos).cookie .zeroed
        drainer := some moved
        dispatched := s.dispatched ++ [⟨pos, s.events (s.head.ring pos).cookie⟩]
        pops := s.pops + 1 } := by
  change (if (s.head.ring pos).sown = .north then _ else _) = _
  rw [if_pos ready, popped]
  simp

theorem iterate_south {ioq : Ioq} {slot : IdxSlot} {flags : IterFlags} {pos : Nat}
    (foreign : (s.head.ring pos).sown ≠ .north) :
    iterate s (iterAt ioq slot flags pos) =
      { s with
        head := (ioqSignal s.head .north).1
        drainer := none } := by
  change (if (s.head.ring pos).sown = .north then _ else _) = _
  rw [if_neg foreign]

theorem Invariant.pops_le (holds : Invariant size s) : s.pops ≤ s.posted.length :=
  holds.window.tracks.le

theorem post_full (holds : Invariant size s) (event : VbusPciEvent)
    (full : s.posted.length = s.pops + size.count) : post size event s = some s := by
  have refused := holds.window.push_full full
  change ioqIterPush s.head (iterAt ⟨.south, size⟩ .inuse .zero _) = _ at refused
  simp [post, hostPush_eq, refused]

def posted (size : RingSize) (event : VbusPciEvent) (s : State) : State :=
  { s with
    head := s.head.handOver .inuse (idxTailPush (s.head.idx .inuse) size.count)
      (s.head.idx .inuse).tail .north
    events := Function.update s.events (s.head.idx .inuse).tail event
    posted := s.posted ++ [⟨(s.head.idx .inuse).tail, event⟩] }

theorem post_room (holds : Invariant size s) (event : VbusPciEvent)
    (room : s.posted.length < s.pops + size.count) :
    post size event s = some (posted size event s) := by
  have admitted := holds.window.push room
  change ioqIterPush s.head (iterAt ⟨.south, size⟩ .inuse .zero _) = _ at admitted
  have tail := holds.window.tracks.tail
  have cookie := holds.cookie (s.head.idx .inuse).tail
    (by rw [tail]; exact Nat.mod_lt _ size.positive)
  simp [post, hostPush_eq, admitted, posted, cookie]

theorem posted_invariant (holds : Invariant size s) (event : VbusPciEvent)
    (room : s.posted.length < s.pops + size.count) : Invariant size (posted size event s) := by
  have tail := holds.window.tracks.tail
  have le := holds.pops_le
  refine ⟨?_, ?_, ?_, ?_, ?_, ?_, holds.asserted⟩
  · simpa [posted] using holds.window.after_push room
  · intro i inside
    change ((RingHead.handOver _ _ _ _ _).ring i).cookie = i
    rw [handOver_desc]
    exact holds.cookie i inside
  · intro k posting present
    rcases Lists.getElem?_concat_cases present with earlier | ⟨last, same⟩
    · exact holds.desc k posting earlier
    · rw [← same, last, tail]
  · intro k posting present pending
    change s.pops ≤ k at pending
    change Function.update s.events (s.head.idx .inuse).tail event (k % size.count) = posting.event
    rcases Lists.getElem?_concat_cases present with earlier | ⟨last, same⟩
    · have old := (List.getElem?_eq_some_iff.mp earlier).1
      have other : k % size.count ≠ (s.head.idx .inuse).tail := by
        rw [tail]
        intro same
        have equal := mod_injective size.positive (by omega : k ≤ s.posted.length) (by omega) same
        omega
      rw [Function.update_of_ne other]
      exact holds.buffer k posting earlier pending
    · rw [← same, last, tail, Function.update_self]
  · intro iter running
    have place := holds.drainer iter running
    rw [place]
    simp only [posted, handOver_idx, idxTailPush]
    split <;> rfl
  · rw [show (posted size event s).dispatched = s.dispatched from rfl, holds.order]
    exact (List.take_append_of_le_length le).symm

theorem enter_invariant (holds : Invariant size s) {next : State} (entered : enter size s = some next) :
    Invariant size next := by
  have started : enter size s = some { s with
      drainer := some (iterAt ⟨.north, size⟩ .inuse .zero (s.head.idx .inuse).head)
      asserted := s.asserted && true } := rfl
  rw [started, Option.some.injEq] at entered
  subst next
  refine ⟨holds.window, holds.cookie, holds.desc, holds.buffer, ?_, holds.order, ?_⟩
  · intro iter running
    exact (Option.some.inj running).symm
  · simpa using holds.asserted

def drained (size : RingSize) (posting : Posting) (s : State) : State :=
  { s with
    head := s.head.handOver .inuse (idxHeadPop (s.head.idx .inuse) size.count)
      (s.head.idx .inuse).head .south
    events := Function.update s.events (s.head.idx .inuse).head .zeroed
    drainer := some (iterAt ⟨.north, size⟩ .inuse .zero ((s.pops + 1) % size.count))
    dispatched := s.dispatched ++ [posting]
    pops := s.pops + 1 }

theorem iterate_ready (holds : Invariant size s) (nonempty : s.pops < s.posted.length) :
    iterate s (iterAt ⟨.north, size⟩ .inuse .zero (s.head.idx .inuse).head) =
      drained size s.posted[s.pops] s := by
  have ready := holds.window.head_owner.mpr nonempty
  have popped := holds.window.pop nonempty
  have head := holds.window.tracks.head
  have cookie := holds.cookie (s.head.idx .inuse).head
    (by rw [head]; exact Nat.mod_lt _ size.positive)
  have present : s.posted[s.pops]? = some s.posted[s.pops] := List.getElem?_eq_getElem nonempty
  have desc := holds.desc _ _ present
  have event := holds.buffer _ _ present (Nat.le_refl _)
  have oldest : (⟨(s.head.idx .inuse).head, s.events (s.head.idx .inuse).head⟩ : Posting) =
      s.posted[s.pops] := by
    rw [head, event, ← desc]
  rw [iterate_north ready popped, cookie, oldest]
  rfl

theorem drained_invariant (holds : Invariant size s) (nonempty : s.pops < s.posted.length) :
    Invariant size (drained size s.posted[s.pops] s) := by
  have head := holds.window.tracks.head
  have bound := holds.window.tracks.bound
  refine ⟨holds.window.after_pop nonempty, ?_, holds.desc, ?_, ?_, ?_, holds.asserted⟩
  · intro i inside
    change ((RingHead.handOver _ _ _ _ _).ring i).cookie = i
    rw [handOver_desc]
    exact holds.cookie i inside
  · intro k posting present pending
    change s.pops + 1 ≤ k at pending
    change Function.update s.events (s.head.idx .inuse).head .zeroed (k % size.count) = posting.event
    have inside := (List.getElem?_eq_some_iff.mp present).1
    change k < s.posted.length at inside
    have other : k % size.count ≠ (s.head.idx .inuse).head := by
      rw [head]
      intro same
      have equal := mod_injective size.positive (by omega : s.pops ≤ k) (by omega) same.symm
      omega
    rw [Function.update_of_ne other]
    exact holds.buffer k posting present (by omega)
  · intro iter running
    have ends := (idxHeadPop_ends (s.head.idx .inuse) size.count).1
    simp only [drained, handOver_idx, Option.some.injEq] at running ⊢
    rw [← running, ends, head, moduloInc_mod]
  · change s.dispatched ++ [s.posted[s.pops]] = s.posted.take (s.pops + 1)
    rw [holds.order, List.take_succ_eq_append_getElem nonempty]

theorem iterate_empty (holds : Invariant size s) (empty : s.pops = s.posted.length) :
    iterate s (iterAt ⟨.north, size⟩ .inuse .zero (s.head.idx .inuse).head) =
      { s with head := (ioqSignal s.head .north).1, drainer := none } := by
  apply iterate_south
  intro ready
  have nonempty := holds.window.head_owner.mp ready
  omega

theorem iterate_invariant (holds : Invariant size s) {iter : IoqIterator}
    (running : s.drainer = some iter) : Invariant size (iterate s iter) := by
  rw [holds.drainer iter running]
  by_cases nonempty : s.pops < s.posted.length
  · rw [iterate_ready holds nonempty]
    exact drained_invariant holds nonempty
  · have le := holds.pops_le
    rw [iterate_empty holds (by omega)]
    refine ⟨⟨holds.window.tracks, holds.window.owner⟩, holds.cookie, holds.desc, holds.buffer, ?_,
      holds.order, holds.asserted⟩
    intro other impossible
    cases impossible

theorem invariant_step (size : RingSize) (s : State) (action : Action) (next : State)
    (holds : Invariant size s) (stepped : step size s action = some next) : Invariant size next := by
  cases action with
  | post event =>
    simp only [step] at stepped
    by_cases room : s.posted.length < s.pops + size.count
    · rw [post_room holds event room, Option.some.injEq] at stepped
      rw [← stepped]
      exact posted_invariant holds event room
    · have bound := holds.window.tracks.bound
      rw [post_full holds event (by omega), Option.some.injEq] at stepped
      rw [← stepped]
      exact holds
  | enter =>
    simp only [step, Option.ite_none_right_eq_some] at stepped
    exact enter_invariant holds stepped.2
  | iterate =>
    simp only [step, Option.map_eq_some_iff] at stepped
    obtain ⟨iter, running, stepped⟩ := stepped
    rw [← stepped]
    exact iterate_invariant holds running

end Invariant

theorem reachable_invariant {size : RingSize} {s : State} (reached : (machine size).Reachable s) :
    Invariant size s :=
  reached.invariant (invariant_initial size) (invariant_step size)

def Refused (size : RingSize) (s : State) : Prop :=
  ∃ result, hostPush size s.head = some result ∧ result.ret < 0

theorem refused_iff {size : RingSize} {s : State} (holds : Invariant size s) :
    Refused size s ↔ s.posted.length = s.pops + size.count := by
  have bound := holds.window.tracks.bound
  constructor
  · intro refused
    obtain ⟨result, pushed, negative⟩ := refused
    by_contra notFull
    have admitted := holds.window.push (by omega)
    change ioqIterPush s.head (iterAt ⟨.south, size⟩ .inuse .zero _) = _ at admitted
    rw [hostPush_eq, admitted, Option.some.injEq] at pushed
    rw [← pushed] at negative
    exact absurd negative (Int.lt_irrefl 0)
  · intro full
    have refused := holds.window.push_full full
    change ioqIterPush s.head (iterAt ⟨.south, size⟩ .inuse .zero _) = _ at refused
    have negative : (-1 : Int) < 0 := by decide
    exact ⟨_, (hostPush_eq size s.head).trans (congrArg some refused), negative⟩

/-- The north-owned descriptors are the `n = pushes - pops` ones from the in-use head on, a push is
    refused exactly when `n` is the ring size, the guest dispatches what was pushed, in order and
    each once, and no `ASSERT` fails. -/
theorem event_ring_delivery (size : RingSize) (s : State) (reached : (machine size).Reachable s) :
    s.pops ≤ s.posted.length ∧ s.posted.length - s.pops ≤ size.count ∧
      (∀ i, i < size.count → ((s.head.ring i).sown = .north ↔
        ∃ k, k < s.posted.length - s.pops ∧ i = ((s.head.idx .inuse).head + k) % size.count)) ∧
      (Refused size s ↔ s.posted.length - s.pops = size.count) ∧
      s.dispatched = s.posted.take s.pops ∧ s.asserted = true := by
  have holds := reachable_invariant reached
  have le := holds.pops_le
  have bound := holds.window.tracks.bound
  have refused := refused_iff holds
  refine ⟨le, by omega, ?_, by rw [refused]; omega, holds.order, holds.asserted⟩
  intro i inside
  rw [holds.window.owner i inside, window_offset, holds.window.tracks.head]

def wrapAround : List Action :=
  [.post ⟨2, 7, []⟩, .post ⟨3, 8, []⟩, .enter, .iterate, .post ⟨3, 9, []⟩, .iterate, .iterate]

theorem event_ring_delivery_wraps :
    ((((machine ⟨1, by decide, by decide⟩).run (machine ⟨1, by decide, by decide⟩).start
      wrapAround).get (by decide)).dispatched.map Posting.event) = [⟨2, 7, []⟩, ⟨3, 9, []⟩] := by
  have delivery := event_ring_delivery ⟨1, by decide, by decide⟩ _
    (Machine.reachable_get (m := machine ⟨1, by decide, by decide⟩) wrapAround (by decide))
  have order := delivery.2.2.2.2.1
  exact (congrArg (List.map Posting.event) order).trans (by decide)

end Vbus.EventRing
