import AlacrityDrivers.Library.Transition
import AlacrityDrivers.Vbus.EventqInit
import AlacrityDrivers.Vbus.RingAccess

namespace Vbus.FullRace

open Transition Circular

/-- A ring without outstanding descriptors, all of them with the south. -/
structure EmptyRing (size : RingSize) where
  head : RingHead
  base : Nat
  inside : base < size.count
  idx : head.idx .inuse = ⟨base, base, false⟩
  south : ∀ i, i < size.count → (head.ring i).sown = .south

/-- One pusher in the south and one popper in the north, each with the place in its call, and the
    calls that have returned successfully. -/
structure State where
  head : RingHead
  pusher : IoqIterator
  popper : IoqIterator
  pushPc : Option PushPc
  popPc : Option PopPc
  pushes : Nat
  pops : Nat

inductive Action where
  | callPush
  | pushAccess
  | seekPusher (type : IoqSeekType) (offset : Int)
  | callPop
  | popAccess
  | seekPopper (type : IoqSeekType) (offset : Int)

def afterPush (s : State) (pc : PushPc) : State :=
  let access := pushStep s.head s.pusher pc
  { s with
    head := access.head
    pusher := access.iter
    pushPc := access.control.pc
    pushes := s.pushes + access.control.success }

def afterPop (s : State) (pc : PopPc) : State :=
  let access := popStep s.head s.popper pc
  { s with
    head := access.head
    popper := access.iter
    popPc := access.control.pc
    pops := s.pops + access.control.success }

def step (s : State) : Action → Option State
  | .callPush => if s.pushPc = none then some { s with pushPc := some .testTail } else none
  | .pushAccess => s.pushPc.map (afterPush s)
  | .seekPusher type offset =>
    if s.pushPc = none then some { s with pusher := (ioqIterSeek s.head s.pusher type offset).2 }
    else none
  | .callPop => if s.popPc = none then some { s with popPc := some .testHead } else none
  | .popAccess => s.popPc.map (afterPop s)
  | .seekPopper type offset =>
    if s.popPc = none then some { s with popper := (ioqIterSeek s.head s.popper type offset).2 }
    else none

/-- What `ioq_iter_init` makes for `IOQ_IDX_INUSE`. -/
def inuseIter (locale : Locality) (size : RingSize) (autoupdate : Bool) : IoqIterator :=
  { ioq := ⟨locale, size⟩, idx := .inuse, pos := 2 ^ 32 - 1, desc := none, update := autoupdate,
    dualidx := false, flipowner := true }

def machine {size : RingSize} (ring : EmptyRing size) (pusherUpdate popperUpdate : Bool) :
    Machine State Action where
  start :=
    { head := ring.head, pusher := inuseIter .south size pusherUpdate,
      popper := inuseIter .north size popperUpdate, pushPc := none, popPc := none, pushes := 0,
      pops := 0 }
  step := step

structure Progress where
  pushed : Nat
  handed : Nat
  popped : Nat
  returned : Nat

structure Midway (size : RingSize) (head : RingHead) (c : Progress) : Prop where
  tailAt : (head.idx .inuse).tail = c.pushed % size.count
  headAt : (head.idx .inuse).head = c.popped % size.count
  returned_le : c.returned ≤ c.popped
  popped_le : c.popped ≤ c.handed
  handed_le : c.handed ≤ c.pushed
  bound : c.pushed ≤ c.returned + size.count
  owner : ∀ i, i < size.count →
    ((head.ring i).sown = .north ↔ Window size.count c.returned c.handed i)

section Midway

variable {size : RingSize} {head : RingHead} {c : Progress}

theorem Midway.setFull (midway : Midway size head c) (full : Bool) :
    Midway size (head.setIdx .inuse { head.idx .inuse with full := full }) c := by
  refine ⟨?_, ?_, midway.returned_le, midway.popped_le, midway.handed_le, midway.bound, midway.owner⟩
  · simpa using midway.tailAt
  · simpa using midway.headAt

theorem Midway.setTail (midway : Midway size head c) (room : c.pushed < c.returned + size.count) :
    Midway size (head.setIdx .inuse { head.idx .inuse with tail := (c.pushed + 1) % size.count })
      { c with pushed := c.pushed + 1 } := by
  have handed_le := midway.handed_le
  refine ⟨?_, ?_, midway.returned_le, midway.popped_le, ?_, room, midway.owner⟩
  · simp
  · simpa using midway.headAt
  · exact Nat.le_succ_of_le handed_le

theorem Midway.setHead (midway : Midway size head c) (ready : c.popped < c.handed) :
    Midway size (head.setIdx .inuse { head.idx .inuse with head := (c.popped + 1) % size.count })
      { c with popped := c.popped + 1 } := by
  have returned_le := midway.returned_le
  refine ⟨?_, ?_, ?_, ready, midway.handed_le, midway.bound, midway.owner⟩
  · simpa using midway.tailAt
  · simp
  · exact Nat.le_succ_of_le returned_le

theorem Midway.hand (midway : Midway size head c) (due : c.handed < c.pushed) :
    Midway size (head.setSown (c.handed % size.count) .north) { c with handed := c.handed + 1 } := by
  have popped_le := midway.popped_le
  have returned_le := midway.returned_le
  refine ⟨midway.tailAt, midway.headAt, returned_le, Nat.le_succ_of_le popped_le, due, midway.bound, ?_⟩
  intro i inside
  change _ ↔ Window size.count c.returned (c.handed + 1) i
  rw [RingHead.setSown_sown, window_push (by omega), ← midway.owner i inside]
  split
  · simp_all
  · simp_all

theorem Midway.giveBack (midway : Midway size head c) (due : c.returned < c.popped) :
    Midway size (head.setSown (c.returned % size.count) .south)
      { c with returned := c.returned + 1 } := by
  have bound := midway.bound
  have handed_le := midway.handed_le
  refine ⟨midway.tailAt, midway.headAt, due, midway.popped_le, handed_le, ?_, ?_⟩
  · dsimp only
    omega
  · intro i inside
    change _ ↔ Window size.count (c.returned + 1) c.handed i
    rw [RingHead.setSown_sown, window_pop size.positive (by omega), ← midway.owner i inside]
    split
    · simp_all
    · simp_all

theorem Midway.signal (midway : Midway size head c) (locale : Locality) :
    Midway size (ioqSignal head locale).1 c :=
  ⟨midway.tailAt, midway.headAt, midway.returned_le, midway.popped_le, midway.handed_le, midway.bound,
    midway.owner⟩

theorem Midway.tail_free (midway : Midway size head c) (settled : c.handed = c.pushed)
    (free : (head.ring (c.pushed % size.count)).sown ≠ .north) :
    c.pushed < c.returned + size.count := by
  have bound := midway.bound
  rw [Ne, midway.owner _ (Nat.mod_lt _ size.positive), settled, window_tail size.positive bound] at free
  omega

theorem Midway.head_ready (midway : Midway size head c) (settled : c.returned = c.popped)
    (ready : (head.ring (c.popped % size.count)).sown = .north) : c.popped < c.handed := by
  rw [midway.owner _ (Nat.mod_lt _ size.positive), settled, window_head] at ready
  exact ready

end Midway

structure InuseIter (iter : IoqIterator) (locale : Locality) (size : RingSize) : Prop where
  ioq : iter.ioq = ⟨locale, size⟩
  idx : iter.idx = .inuse
  flips : iter.flipowner = true
  desc : ∀ slot, iter.desc = some slot → slot = iter.pos

section InuseIter

variable {iter : IoqIterator} {locale : Locality} {size : RingSize} {head : RingHead}

theorem inuseIter_init (locale : Locality) (size : RingSize) (autoupdate : Bool) :
    InuseIter (inuseIter locale size autoupdate) locale size :=
  ⟨rfl, rfl, rfl, fun _ impossible => by cases impossible⟩

theorem InuseIter.setpos (known : InuseIter iter locale size) (pos : Nat) :
    InuseIter (ioqIterSetpos iter pos) locale size :=
  ⟨known.ioq, known.idx, known.flips, fun _ present => (Option.some.inj present).symm⟩

theorem InuseIter.seek (known : InuseIter iter locale size) (type : IoqSeekType) (offset : Int) :
    InuseIter (ioqIterSeek head iter type offset).2 locale size := by
  cases type with
  | tail => exact known.setpos _
  | next => exact known.setpos _
  | head => exact known.setpos _
  | set =>
    simp only [ioqIterSeek]
    split
    · exact known
    · exact known.setpos _

theorem InuseIter.owned (known : InuseIter iter locale size)
    (owned : iter.descSown head = some iter.ioq.locale) :
    iter.desc = some iter.pos ∧ (head.ring iter.pos).sown = locale := by
  simp only [IoqIterator.descSown, Option.map_eq_some_iff, known.ioq] at owned
  obtain ⟨slot, present, owner⟩ := owned
  have place := known.desc slot present
  subst place
  exact ⟨present, owner⟩

theorem InuseIter.flipOwner (known : InuseIter iter locale size) {slot : Nat}
    (present : iter.desc = some slot) : flipOwner head iter = head.setSown slot locale.other := by
  simp [Vbus.flipOwner, known.flips, present, known.ioq]

theorem InuseIter.flipAccess {Pc : Type} (known : InuseIter iter locale size) {slot : Nat}
    (present : iter.desc = some slot) (head : RingHead) (signal : Int → Pc) :
    ∃ control, (control = .goto (signal 0) ∨ control = .exit 0) ∧
      Vbus.flipAccess head iter signal = ⟨head.setSown slot locale.other,
        ioqIterSetpos iter (moduloInc iter.pos iter.ioq.size.count), control⟩ := by
  rw [Vbus.flipAccess, known.flipOwner present]
  cases iter.update with
  | true => exact ⟨_, Or.inl rfl, rfl⟩
  | false => exact ⟨_, Or.inr rfl, rfl⟩

end InuseIter

def PusherAt (size : RingSize) (c : Progress) (start : Nat) (iter : IoqIterator) (full : Bool) :
    Option PushPc → Prop
  | none => c.pushed = start ∧ c.handed = start
  | some .testTail => c.pushed = start ∧ c.handed = start
  | some .testSown => c.pushed = start ∧ c.handed = start ∧ iter.pos = start % size.count
  | some .loadTail =>
    c.pushed = start ∧ c.handed = start ∧ iter.desc = some (start % size.count) ∧
      start < c.returned + size.count
  | some (.loadHead tail) =>
    c.pushed = start ∧ c.handed = start ∧ iter.desc = some (start % size.count) ∧
      start < c.returned + size.count ∧ tail = (start + 1) % size.count
  | some (.setFull tail) =>
    c.pushed = start ∧ c.handed = start ∧ iter.desc = some (start % size.count) ∧
      start < c.returned + size.count ∧ tail = (start + 1) % size.count
  | some (.setTail tail) =>
    c.pushed = start ∧ c.handed = start ∧ iter.desc = some (start % size.count) ∧
      start < c.returned + size.count ∧ tail = (start + 1) % size.count ∧
      (start + 1 = c.popped + size.count → full = true)
  | some .flip =>
    c.pushed = start + 1 ∧ c.handed = start ∧ iter.desc = some (start % size.count)
  | some (.signal ret) => c.pushed = start + 1 ∧ c.handed = start + 1 ∧ ret = 0

def PopperAt (size : RingSize) (c : Progress) (start : Nat) (iter : IoqIterator) :
    Option PopPc → Prop
  | none => c.popped = start ∧ c.returned = start
  | some .testHead => c.popped = start ∧ c.returned = start
  | some .testSown => c.popped = start ∧ c.returned = start ∧ iter.pos = start % size.count
  | some .loadHead =>
    c.popped = start ∧ c.returned = start ∧ iter.desc = some (start % size.count) ∧
      start < c.handed
  | some (.setHead head) =>
    c.popped = start ∧ c.returned = start ∧ iter.desc = some (start % size.count) ∧
      start < c.handed ∧ head = (start + 1) % size.count
  | some .testFull =>
    c.popped = start + 1 ∧ c.returned = start ∧ iter.desc = some (start % size.count)
  | some .clearFull =>
    c.popped = start + 1 ∧ c.returned = start ∧ iter.desc = some (start % size.count)
  | some .flip =>
    c.popped = start + 1 ∧ c.returned = start ∧ iter.desc = some (start % size.count)
  | some (.signal ret) => c.popped = start + 1 ∧ c.returned = start + 1 ∧ ret = 0

def Setting : Option PushPc → Prop
  | some (.setTail _) => True
  | some .flip => True
  | _ => False

def Clearing : Option PopPc → Prop
  | some .testFull => True
  | some .clearFull => True
  | _ => False

/-- `full` is set wherever the ring is full, and where it is set the ring is not empty, unless one
    of the two sides is about to see to it. -/
structure Invariant (size : RingSize) (base : Nat) (s : State) (c : Progress) : Prop where
  midway : Midway size s.head c
  pusherIter : InuseIter s.pusher .south size
  popperIter : InuseIter s.popper .north size
  pusher : PusherAt size c (base + s.pushes) s.pusher (s.head.idx .inuse).full s.pushPc
  popper : PopperAt size c (base + s.pops) s.popper s.popPc
  full : c.pushed = c.popped + size.count → (s.head.idx .inuse).full = true
  stale : (s.head.idx .inuse).full = true →
    c.popped < c.handed ∨ Setting s.pushPc ∨ Clearing s.popPc

theorem PusherAt.after_pop {size : RingSize} {c : Progress} {start : Nat} {iter : IoqIterator}
    {full after : Bool} {pc : Option PushPc} (known : PusherAt size c start iter full pc)
    (next : Progress)
    (pushed : next.pushed = c.pushed) (handed : next.handed = c.handed)
    (returned : c.returned ≤ next.returned)
    (keeps : c.pushed < c.returned + size.count → c.pushed + 1 = next.popped + size.count →
      next.popped = c.popped ∧ (full = true → after = true)) :
    PusherAt size next start iter after pc := by
  rcases pc with _ | _ | _ | _ | _ | _ | _ | _ | _
  case some.loadTail =>
    obtain ⟨tailAt, handedAt, desc, room⟩ := known
    exact ⟨by omega, by omega, desc, by omega⟩
  case some.loadHead =>
    obtain ⟨tailAt, handedAt, desc, room, new⟩ := known
    exact ⟨by omega, by omega, desc, by omega, new⟩
  case some.setFull =>
    obtain ⟨tailAt, handedAt, desc, room, new⟩ := known
    exact ⟨by omega, by omega, desc, by omega, new⟩
  case some.setTail =>
    obtain ⟨tailAt, handedAt, desc, room, new, last⟩ := known
    refine ⟨by omega, by omega, desc, by omega, new, ?_⟩
    intro becomes
    obtain ⟨same, kept⟩ := keeps (by omega) (by omega)
    exact kept (last (by omega))
  all_goals
    simp only [PusherAt, pushed, handed] at known ⊢
    exact known

theorem PopperAt.after_push {size : RingSize} {c : Progress} {start : Nat} {iter : IoqIterator}
    {pc : Option PopPc} (known : PopperAt size c start iter pc) (next : Progress)
    (popped : next.popped = c.popped)
    (returned : next.returned = c.returned) (handed : c.handed ≤ next.handed) :
    PopperAt size next start iter pc := by
  rcases pc with _ | _ | _ | _ | _ | _ | _ | _ | _
  case some.loadHead =>
    obtain ⟨headAt, returnedAt, desc, ready⟩ := known
    exact ⟨by omega, by omega, desc, by omega⟩
  case some.setHead =>
    obtain ⟨headAt, returnedAt, desc, ready, new⟩ := known
    exact ⟨by omega, by omega, desc, by omega, new⟩
  all_goals
    simp only [PopperAt, popped, returned] at known ⊢
    exact known

section Pusher

variable {size : RingSize} {base : Nat} {s : State} {c : Progress} {pc : PushPc}

theorem Invariant.pusherAt (holds : Invariant size base s c) {iter : IoqIterator}
    (next : Option PushPc) (known : InuseIter iter .south size)
    (facts : PusherAt size c (base + s.pushes) iter (s.head.idx .inuse).full next)
    (outside : ¬ Setting s.pushPc) :
    Invariant size base { s with pusher := iter, pushPc := next } c := by
  refine ⟨holds.midway, known, holds.popperIter, facts, holds.popper, holds.full, ?_⟩
  intro full
  rcases holds.stale full with pending | setting | clearing
  · exact Or.inl pending
  · exact absurd setting outside
  · exact Or.inr (Or.inr clearing)

theorem push_testTail (holds : Invariant size base s c) (running : s.pushPc = some .testTail) :
    Invariant size base (afterPush s .testTail) c := by
  have facts := holds.pusher
  have outside : ¬ Setting s.pushPc := by rw [running]; exact id
  rw [running] at facts
  by_cases position : s.pusher.pos = (s.head.idx s.pusher.idx).tail
  · have after : afterPush s .testTail = { s with pusher := s.pusher, pushPc := some .testSown } := by
      simp [afterPush, pushStep, position, Control.pc, Control.success]
    rw [after]
    refine holds.pusherAt _ holds.pusherIter ⟨facts.1, facts.2, ?_⟩ outside
    rw [position, holds.pusherIter.idx, holds.midway.tailAt, facts.1]
  · have after : afterPush s .testTail = { s with pusher := s.pusher, pushPc := none } := by
      simp [afterPush, pushStep, position, Control.pc, Control.success]
    rw [after]
    exact holds.pusherAt _ holds.pusherIter facts outside

theorem push_testSown (holds : Invariant size base s c) (running : s.pushPc = some .testSown) :
    Invariant size base (afterPush s .testSown) c := by
  have facts := holds.pusher
  have outside : ¬ Setting s.pushPc := by rw [running]; exact id
  rw [running] at facts
  obtain ⟨pushed, handed, position⟩ := facts
  by_cases owned : s.pusher.descSown s.head = some s.pusher.ioq.locale
  · have after : afterPush s .testSown = { s with pusher := s.pusher, pushPc := some .loadTail } := by
      simp [afterPush, pushStep, owned, Control.pc, Control.success]
    obtain ⟨desc, south⟩ := holds.pusherIter.owned owned
    rw [position] at desc south
    have room := holds.midway.tail_free (handed.trans pushed.symm) (by rw [pushed, south]; decide)
    rw [after]
    exact holds.pusherAt _ holds.pusherIter ⟨pushed, handed, desc, by omega⟩ outside
  · have after : afterPush s .testSown = { s with pusher := s.pusher, pushPc := none } := by
      simp [afterPush, pushStep, owned, Control.pc, Control.success]
    rw [after]
    exact holds.pusherAt _ holds.pusherIter ⟨pushed, handed⟩ outside

theorem push_loadTail (holds : Invariant size base s c) (running : s.pushPc = some .loadTail) :
    Invariant size base (afterPush s .loadTail) c := by
  have facts := holds.pusher
  have outside : ¬ Setting s.pushPc := by rw [running]; exact id
  rw [running] at facts
  obtain ⟨pushed, handed, desc, room⟩ := facts
  refine holds.pusherAt _ holds.pusherIter ⟨pushed, handed, desc, room, ?_⟩ outside
  rw [holds.pusherIter.idx, holds.pusherIter.ioq, holds.midway.tailAt, moduloInc_mod, pushed]

theorem push_loadHead (tail : Nat) (holds : Invariant size base s c)
    (running : s.pushPc = some (.loadHead tail)) :
    Invariant size base (afterPush s (.loadHead tail)) c := by
  have facts := holds.pusher
  have outside : ¬ Setting s.pushPc := by rw [running]; exact id
  rw [running] at facts
  obtain ⟨pushed, handed, desc, room, new⟩ := facts
  by_cases meets : (s.head.idx s.pusher.idx).head = tail
  · have after : afterPush s (.loadHead tail) =
        { s with pusher := s.pusher, pushPc := some (.setFull tail) } := by
      simp [afterPush, pushStep, meets, Control.pc, Control.success]
    rw [after]
    exact holds.pusherAt _ holds.pusherIter ⟨pushed, handed, desc, room, new⟩ outside
  · have after : afterPush s (.loadHead tail) =
        { s with pusher := s.pusher, pushPc := some (.setTail tail) } := by
      simp [afterPush, pushStep, meets, Control.pc, Control.success]
    rw [after]
    refine holds.pusherAt _ holds.pusherIter ⟨pushed, handed, desc, room, new, ?_⟩ outside
    intro last
    rw [holds.pusherIter.idx, holds.midway.headAt, new, last, Nat.add_mod_right] at meets
    exact absurd rfl meets

/-- `full` is set before the descriptor is handed over; a stale value of head is harmless here. -/
theorem push_setFull (tail : Nat) (holds : Invariant size base s c)
    (running : s.pushPc = some (.setFull tail)) :
    Invariant size base (afterPush s (.setFull tail)) c := by
  have facts := holds.pusher
  rw [running] at facts
  obtain ⟨pushed, handed, desc, room, new⟩ := facts
  have after : afterPush s (.setFull tail) =
      { s with
        head := s.head.setIdx .inuse { s.head.idx .inuse with full := true }
        pushPc := some (.setTail tail) } := by
    simp [afterPush, pushStep, holds.pusherIter.idx, Control.pc, Control.success]
  rw [after]
  refine ⟨holds.midway.setFull true, holds.pusherIter, holds.popperIter,
    ⟨pushed, handed, desc, room, new, ?_⟩, holds.popper, ?_, fun _ => Or.inr (Or.inl trivial)⟩
  · simp
  · simp

theorem push_setTail (tail : Nat) (holds : Invariant size base s c)
    (running : s.pushPc = some (.setTail tail)) :
    Invariant size base (afterPush s (.setTail tail)) { c with pushed := c.pushed + 1 } := by
  have facts := holds.pusher
  rw [running] at facts
  obtain ⟨pushed, handed, desc, room, new, last⟩ := facts
  have after : afterPush s (.setTail tail) =
      { s with
        head := s.head.setIdx .inuse { s.head.idx .inuse with tail := (c.pushed + 1) % size.count }
        pushPc := some .flip } := by
    simp [afterPush, pushStep, holds.pusherIter.idx, Control.pc, Control.success, new, pushed]
  rw [after]
  refine ⟨holds.midway.setTail (by omega), holds.pusherIter, holds.popperIter, ?_,
    holds.popper.after_push _ rfl rfl (Nat.le_refl _), ?_, fun _ => Or.inr (Or.inl trivial)⟩
  · exact ⟨congrArg (· + 1) pushed, handed, desc⟩
  · intro becomes
    have full := last (by rw [← pushed]; exact becomes)
    simpa using full

theorem push_flip (holds : Invariant size base s c) (running : s.pushPc = some .flip) :
    Invariant size base (afterPush s .flip) { c with handed := c.handed + 1 } := by
  have facts := holds.pusher
  have popped_le := holds.midway.popped_le
  rw [running] at facts
  obtain ⟨pushed, handed, desc⟩ := facts
  rw [← handed] at desc
  have midway := holds.midway.hand (by omega)
  have popper := holds.popper.after_push { c with handed := c.handed + 1 } rfl rfl (Nat.le_succ _)
  have moved := holds.pusherIter.setpos (moduloInc s.pusher.pos s.pusher.ioq.size.count)
  obtain ⟨control, either, access⟩ := holds.pusherIter.flipAccess desc s.head PushPc.signal
  have pending : c.popped < c.handed + 1 := by omega
  rcases either with rfl | rfl
  · have after : afterPush s .flip =
        { s with
          head := s.head.setSown (c.handed % size.count) .north
          pusher := ioqIterSetpos s.pusher (moduloInc s.pusher.pos s.pusher.ioq.size.count)
          pushPc := some (.signal 0) } := by
      simp [afterPush, pushStep, access, Control.pc, Control.success, Locality.other]
    rw [after]
    exact ⟨midway, moved, holds.popperIter, ⟨pushed, congrArg (· + 1) handed, rfl⟩, popper,
      holds.full, fun _ => Or.inl pending⟩
  · have after : afterPush s .flip =
        { s with
          head := s.head.setSown (c.handed % size.count) .north
          pusher := ioqIterSetpos s.pusher (moduloInc s.pusher.pos s.pusher.ioq.size.count)
          pushPc := none
          pushes := s.pushes + 1 } := by
      simp [afterPush, pushStep, access, Control.pc, Control.success, Locality.other]
    rw [after]
    exact ⟨midway, moved, holds.popperIter, ⟨pushed, congrArg (· + 1) handed⟩, popper,
      holds.full, fun _ => Or.inl pending⟩

theorem push_signal (ret : Int) (holds : Invariant size base s c)
    (running : s.pushPc = some (.signal ret)) :
    Invariant size base (afterPush s (.signal ret)) c := by
  have facts := holds.pusher
  have outside : ¬ Setting s.pushPc := by rw [running]; exact id
  rw [running] at facts
  obtain ⟨pushed, handed, success⟩ := facts
  have after : afterPush s (.signal ret) =
      { s with
        head := (ioqSignal s.head s.pusher.ioq.locale).1
        pushPc := none
        pushes := s.pushes + 1 } := by
    simp [afterPush, pushStep, Control.pc, Control.success, success]
  rw [after]
  refine ⟨holds.midway.signal _, holds.pusherIter, holds.popperIter, ⟨pushed, handed⟩, holds.popper,
    holds.full, ?_⟩
  intro full
  rcases holds.stale full with pending | setting | clearing
  · exact Or.inl pending
  · exact absurd setting outside
  · exact Or.inr (Or.inr clearing)

theorem push_access (holds : Invariant size base s c) (running : s.pushPc = some pc) :
    ∃ next, Invariant size base (afterPush s pc) next := by
  cases pc with
  | testTail => exact ⟨_, push_testTail holds running⟩
  | testSown => exact ⟨_, push_testSown holds running⟩
  | loadTail => exact ⟨_, push_loadTail holds running⟩
  | loadHead tail => exact ⟨_, push_loadHead tail holds running⟩
  | setFull tail => exact ⟨_, push_setFull tail holds running⟩
  | setTail tail => exact ⟨_, push_setTail tail holds running⟩
  | flip => exact ⟨_, push_flip holds running⟩
  | signal ret => exact ⟨_, push_signal ret holds running⟩

end Pusher

section Popper

variable {size : RingSize} {base : Nat} {s : State} {c : Progress} {pc : PopPc}

theorem Invariant.popperAt (holds : Invariant size base s c) {iter : IoqIterator}
    (next : Option PopPc) (known : InuseIter iter .north size)
    (facts : PopperAt size c (base + s.pops) iter next)
    (clears : Clearing s.popPc → (s.head.idx .inuse).full = true → Clearing next) :
    Invariant size base { s with popper := iter, popPc := next } c := by
  refine ⟨holds.midway, holds.pusherIter, known, holds.pusher, facts, holds.full, ?_⟩
  intro full
  rcases holds.stale full with pending | setting | clearing
  · exact Or.inl pending
  · exact Or.inr (Or.inl setting)
  · exact Or.inr (Or.inr (clears clearing full))

theorem pop_testHead (holds : Invariant size base s c) (running : s.popPc = some .testHead) :
    Invariant size base (afterPop s .testHead) c := by
  have facts := holds.popper
  have outside : ¬ Clearing s.popPc := by rw [running]; exact id
  rw [running] at facts
  by_cases position : s.popper.pos = (s.head.idx s.popper.idx).head
  · have after : afterPop s .testHead = { s with popper := s.popper, popPc := some .testSown } := by
      simp [afterPop, popStep, position, Control.pc, Control.success]
    rw [after]
    refine holds.popperAt _ holds.popperIter ⟨facts.1, facts.2, ?_⟩
      (fun clearing _ => absurd clearing outside)
    rw [position, holds.popperIter.idx, holds.midway.headAt, facts.1]
  · have after : afterPop s .testHead = { s with popper := s.popper, popPc := none } := by
      simp [afterPop, popStep, position, Control.pc, Control.success]
    rw [after]
    exact holds.popperAt _ holds.popperIter facts (fun clearing _ => absurd clearing outside)

theorem pop_testSown (holds : Invariant size base s c) (running : s.popPc = some .testSown) :
    Invariant size base (afterPop s .testSown) c := by
  have facts := holds.popper
  have outside : ¬ Clearing s.popPc := by rw [running]; exact id
  rw [running] at facts
  obtain ⟨popped, returned, position⟩ := facts
  by_cases owned : s.popper.descSown s.head = some s.popper.ioq.locale
  · have after : afterPop s .testSown = { s with popper := s.popper, popPc := some .loadHead } := by
      simp [afterPop, popStep, owned, Control.pc, Control.success]
    obtain ⟨desc, north⟩ := holds.popperIter.owned owned
    rw [position] at desc north
    have ready := holds.midway.head_ready (returned.trans popped.symm) (by rw [popped, north])
    rw [after]
    exact holds.popperAt _ holds.popperIter ⟨popped, returned, desc, by omega⟩
      (fun clearing _ => absurd clearing outside)
  · have after : afterPop s .testSown = { s with popper := s.popper, popPc := none } := by
      simp [afterPop, popStep, owned, Control.pc, Control.success]
    rw [after]
    exact holds.popperAt _ holds.popperIter ⟨popped, returned⟩
      (fun clearing _ => absurd clearing outside)

theorem pop_loadHead (holds : Invariant size base s c) (running : s.popPc = some .loadHead) :
    Invariant size base (afterPop s .loadHead) c := by
  have facts := holds.popper
  have outside : ¬ Clearing s.popPc := by rw [running]; exact id
  rw [running] at facts
  obtain ⟨popped, returned, desc, ready⟩ := facts
  refine holds.popperAt _ holds.popperIter ⟨popped, returned, desc, ready, ?_⟩
    (fun clearing _ => absurd clearing outside)
  rw [holds.popperIter.idx, holds.popperIter.ioq, holds.midway.headAt, moduloInc_mod, popped]

theorem pop_setHead (new : Nat) (holds : Invariant size base s c)
    (running : s.popPc = some (.setHead new)) :
    Invariant size base (afterPop s (.setHead new)) { c with popped := c.popped + 1 } := by
  have facts := holds.popper
  have bound := holds.midway.bound
  have returned_le := holds.midway.returned_le
  rw [running] at facts
  obtain ⟨popped, returned, desc, ready, place⟩ := facts
  have after : afterPop s (.setHead new) =
      { s with
        head := s.head.setIdx .inuse { s.head.idx .inuse with head := (c.popped + 1) % size.count }
        popPc := some .testFull } := by
    simp [afterPop, popStep, holds.popperIter.idx, Control.pc, Control.success, place, popped]
  rw [after]
  refine ⟨holds.midway.setHead (by omega), holds.pusherIter, holds.popperIter, ?_,
    ⟨congrArg (· + 1) popped, returned, desc⟩, ?_, fun _ => Or.inr (Or.inr trivial)⟩
  · refine holds.pusher.after_pop _ rfl rfl (Nat.le_refl _) ?_
    intro room last
    dsimp only at last
    omega
  · intro last
    dsimp only at last
    omega

theorem pop_testFull (holds : Invariant size base s c) (running : s.popPc = some .testFull) :
    Invariant size base (afterPop s .testFull) c := by
  have facts := holds.popper
  rw [running] at facts
  cases full : (s.head.idx .inuse).full with
  | true =>
    have after : afterPop s .testFull = { s with popper := s.popper, popPc := some .clearFull } := by
      simp [afterPop, popStep, holds.popperIter.idx, full, Control.pc, Control.success]
    rw [after]
    exact holds.popperAt _ holds.popperIter facts (fun _ _ => trivial)
  | false =>
    have after : afterPop s .testFull = { s with popper := s.popper, popPc := some .flip } := by
      simp [afterPop, popStep, holds.popperIter.idx, full, Control.pc, Control.success]
    rw [after]
    exact holds.popperAt _ holds.popperIter facts
      (fun _ set => absurd (full.symm.trans set) Bool.false_ne_true)

/-- While the popper still holds its descriptor the pusher cannot fill the ring, so nothing that
    `full` stands for is cleared. -/
theorem pop_clearFull (holds : Invariant size base s c) (running : s.popPc = some .clearFull) :
    Invariant size base (afterPop s .clearFull) c := by
  have facts := holds.popper
  have bound := holds.midway.bound
  rw [running] at facts
  obtain ⟨popped, returned, desc⟩ := facts
  have after : afterPop s .clearFull =
      { s with
        head := s.head.setIdx .inuse { s.head.idx .inuse with full := false }
        popPc := some .flip } := by
    simp [afterPop, popStep, holds.popperIter.idx, Control.pc, Control.success]
  rw [after]
  refine ⟨holds.midway.setFull false, holds.pusherIter, holds.popperIter, ?_,
    ⟨popped, returned, desc⟩, ?_, ?_⟩
  · refine holds.pusher.after_pop _ rfl rfl (Nat.le_refl _) ?_
    intro room last
    omega
  · intro last
    omega
  · intro set
    simp at set

theorem pop_flip (holds : Invariant size base s c) (running : s.popPc = some .flip) :
    Invariant size base (afterPop s .flip) { c with returned := c.returned + 1 } := by
  have facts := holds.popper
  have outside : ¬ Clearing s.popPc := by rw [running]; exact id
  rw [running] at facts
  obtain ⟨popped, returned, desc⟩ := facts
  rw [← returned] at desc
  have midway := holds.midway.giveBack (by omega)
  have pusher := holds.pusher.after_pop { c with returned := c.returned + 1 } rfl rfl
    (Nat.le_succ _) (fun _ _ => ⟨rfl, id⟩)
  have moved := holds.popperIter.setpos (moduloInc s.popper.pos s.popper.ioq.size.count)
  obtain ⟨control, either, access⟩ := holds.popperIter.flipAccess desc s.head PopPc.signal
  have stale (next : Option PopPc) (full : (s.head.idx .inuse).full = true) :
      c.popped < c.handed ∨ Setting s.pushPc ∨ Clearing next := by
    rcases holds.stale full with pending | setting | clearing
    · exact Or.inl pending
    · exact Or.inr (Or.inl setting)
    · exact absurd clearing outside
  rcases either with rfl | rfl
  · have after : afterPop s .flip =
        { s with
          head := s.head.setSown (c.returned % size.count) .south
          popper := ioqIterSetpos s.popper (moduloInc s.popper.pos s.popper.ioq.size.count)
          popPc := some (.signal 0) } := by
      simp [afterPop, popStep, access, Control.pc, Control.success, Locality.other]
    rw [after]
    exact ⟨midway, holds.pusherIter, moved, pusher, ⟨popped, congrArg (· + 1) returned, rfl⟩,
      holds.full, stale _⟩
  · have after : afterPop s .flip =
        { s with
          head := s.head.setSown (c.returned % size.count) .south
          popper := ioqIterSetpos s.popper (moduloInc s.popper.pos s.popper.ioq.size.count)
          popPc := none
          pops := s.pops + 1 } := by
      simp [afterPop, popStep, access, Control.pc, Control.success, Locality.other]
    rw [after]
    exact ⟨midway, holds.pusherIter, moved, pusher, ⟨popped, congrArg (· + 1) returned⟩,
      holds.full, stale _⟩

theorem pop_signal (ret : Int) (holds : Invariant size base s c)
    (running : s.popPc = some (.signal ret)) :
    Invariant size base (afterPop s (.signal ret)) c := by
  have facts := holds.popper
  have outside : ¬ Clearing s.popPc := by rw [running]; exact id
  rw [running] at facts
  obtain ⟨popped, returned, success⟩ := facts
  have after : afterPop s (.signal ret) =
      { s with
        head := (ioqSignal s.head s.popper.ioq.locale).1
        popPc := none
        pops := s.pops + 1 } := by
    simp [afterPop, popStep, Control.pc, Control.success, success]
  rw [after]
  refine ⟨holds.midway.signal _, holds.pusherIter, holds.popperIter, holds.pusher,
    ⟨popped, returned⟩, holds.full, ?_⟩
  intro full
  rcases holds.stale full with pending | setting | clearing
  · exact Or.inl pending
  · exact Or.inr (Or.inl setting)
  · exact absurd clearing outside

theorem pop_access (holds : Invariant size base s c) (running : s.popPc = some pc) :
    ∃ next, Invariant size base (afterPop s pc) next := by
  cases pc with
  | testHead => exact ⟨_, pop_testHead holds running⟩
  | testSown => exact ⟨_, pop_testSown holds running⟩
  | loadHead => exact ⟨_, pop_loadHead holds running⟩
  | setHead new => exact ⟨_, pop_setHead new holds running⟩
  | testFull => exact ⟨_, pop_testFull holds running⟩
  | clearFull => exact ⟨_, pop_clearFull holds running⟩
  | flip => exact ⟨_, pop_flip holds running⟩
  | signal ret => exact ⟨_, pop_signal ret holds running⟩

end Popper

section Run

variable {size : RingSize} {ring : EmptyRing size} {pusherUpdate popperUpdate : Bool}

theorem invariant_initial (ring : EmptyRing size) (pusherUpdate popperUpdate : Bool) :
    Invariant size ring.base (machine ring pusherUpdate popperUpdate).start
      ⟨ring.base, ring.base, ring.base, ring.base⟩ := by
  have inside := ring.inside
  have place : ring.base = ring.base % size.count := (Nat.mod_eq_of_lt inside).symm
  refine ⟨⟨?_, ?_, Nat.le_refl _, Nat.le_refl _, Nat.le_refl _, Nat.le_add_right _ _, ?_⟩,
    inuseIter_init _ _ _, inuseIter_init _ _ _, ⟨rfl, rfl⟩, ⟨rfl, rfl⟩, ?_, ?_⟩
  · change (ring.head.idx .inuse).tail = _
    rw [ring.idx]
    exact place
  · change (ring.head.idx .inuse).head = _
    rw [ring.idx]
    exact place
  · intro i bound
    change (ring.head.ring i).sown = .north ↔ _
    rw [ring.south i bound]
    constructor
    · intro impossible
      cases impossible
    · intro impossible
      exact absurd impossible window_empty
  · intro impossible
    dsimp only at impossible
    omega
  · intro full
    change (ring.head.idx .inuse).full = true at full
    rw [ring.idx] at full
    exact absurd full Bool.false_ne_true

theorem invariant_step (base : Nat) (s : State) (action : Action) (next : State)
    (holds : ∃ c, Invariant size base s c) (stepped : step s action = some next) :
    ∃ c, Invariant size base next c := by
  obtain ⟨c, holds⟩ := holds
  have pusher := holds.pusher
  have popper := holds.popper
  cases action with
  | callPush =>
    simp only [step, Option.ite_none_right_eq_some, Option.some.injEq] at stepped
    rw [stepped.1] at pusher
    rw [← stepped.2]
    exact ⟨c, holds.pusherAt (some .testTail) holds.pusherIter pusher (by rw [stepped.1]; exact id)⟩
  | pushAccess =>
    simp only [step, Option.map_eq_some_iff] at stepped
    obtain ⟨pc, running, stepped⟩ := stepped
    rw [← stepped]
    exact push_access holds running
  | seekPusher type offset =>
    simp only [step, Option.ite_none_right_eq_some, Option.some.injEq] at stepped
    rw [stepped.1] at pusher
    rw [← stepped.2]
    refine ⟨c, ⟨holds.midway, holds.pusherIter.seek type offset, holds.popperIter, ?_, popper,
      holds.full, holds.stale⟩⟩
    rw [stepped.1]
    exact pusher
  | callPop =>
    simp only [step, Option.ite_none_right_eq_some, Option.some.injEq] at stepped
    rw [stepped.1] at popper
    rw [← stepped.2]
    exact ⟨c, holds.popperAt (some .testHead) holds.popperIter popper
      (fun clearing _ => by rw [stepped.1] at clearing; exact clearing.elim)⟩
  | popAccess =>
    simp only [step, Option.map_eq_some_iff] at stepped
    obtain ⟨pc, running, stepped⟩ := stepped
    rw [← stepped]
    exact pop_access holds running
  | seekPopper type offset =>
    simp only [step, Option.ite_none_right_eq_some, Option.some.injEq] at stepped
    rw [stepped.1] at popper
    rw [← stepped.2]
    refine ⟨c, ⟨holds.midway, holds.pusherIter, holds.popperIter.seek type offset, pusher, ?_,
      holds.full, holds.stale⟩⟩
    rw [stepped.1]
    exact popper

theorem reachable_invariant {s : State}
    (reached : (machine ring pusherUpdate popperUpdate).Reachable s) :
    ∃ c, Invariant size ring.base s c :=
  reached.invariant ⟨_, invariant_initial ring pusherUpdate popperUpdate⟩
    (invariant_step ring.base)

theorem Invariant.tracks {base : Nat} {s : State} {c : Progress} (holds : Invariant size base s c)
    (noPush : s.pushPc = none) (noPop : s.popPc = none) :
    (s.head.idx .inuse).Tracks size (base + s.pops) (base + s.pushes) := by
  have midway := holds.midway
  have pusher := holds.pusher
  have popper := holds.popper
  rw [noPush] at pusher
  rw [noPop] at popper
  have popped_le := midway.popped_le
  have bound := midway.bound
  rw [← popper.1, ← pusher.1]
  refine ⟨midway.headAt, midway.tailAt, popped_le.trans midway.handed_le, ?_, holds.full, ?_⟩
  · have returned_le := midway.returned_le
    omega
  · intro empty
    by_contra set
    rcases holds.stale (Bool.eq_true_of_not_eq_false set) with pending | setting | clearing
    · have handed := pusher.2
      have pushed := pusher.1
      omega
    · rw [noPush] at setting
      exact setting
    · rw [noPop] at clearing
      exact clearing

end Run

/-- Whatever the interleaving, and whether or not `full` was set from a stale head, the index tells
    the true occupancy when neither side is inside a call. -/
theorem idle_occupancy (size : RingSize) (ring : EmptyRing size) (pusherUpdate popperUpdate : Bool)
    (s : State) (reached : (machine ring pusherUpdate popperUpdate).Reachable s)
    (noPush : s.pushPc = none) (noPop : s.popPc = none) :
    s.pops ≤ s.pushes ∧ s.pushes - s.pops ≤ size.count ∧
      ioqCount s.head size .inuse = s.pushes - s.pops ∧
      (ioqFull s.head .inuse = true ↔ s.pushes - s.pops = size.count) ∧
      ioqRemain s.head size .inuse = size.count - (s.pushes - s.pops) := by
  obtain ⟨c, holds⟩ := reachable_invariant reached
  have tracks := holds.tracks noPush noPop
  have le := tracks.le
  have bound := tracks.bound
  have count : ioqCount s.head size .inuse = s.pushes - s.pops :=
    tracks.count.trans (Nat.add_sub_add_left _ _ _)
  have full : ioqFull s.head .inuse = true ↔ _ := tracks.isFull
  refine ⟨by omega, by omega, count, ?_, ?_⟩
  · rw [full]
    omega
  · rw [ioqRemain, count]

def eventqRing (size : RingSize) : EmptyRing size where
  head := eventqStart size
  base := 0
  inside := size.positive
  idx := (eventqStart_ready size).inuse.tracks.zero
  south := by
    intro i inside
    have window := (eventqStart_ready size).valid
    exact (window.owner i inside).mpr ⟨i, Nat.zero_le _, inside, Nat.mod_eq_of_lt inside⟩

def staleHead : List Action :=
  [.seekPusher .tail 0, .seekPopper .head 0, .callPush] ++ List.replicate 6 .pushAccess ++
    [.callPush] ++ List.replicate 4 .pushAccess ++ [.callPop] ++ List.replicate 6 .popAccess ++
    List.replicate 3 .pushAccess

theorem idle_occupancy_stale :
    let s := ((machine (eventqRing ⟨2, by decide, by decide⟩) false false).run
      (machine (eventqRing ⟨2, by decide, by decide⟩) false false).start staleHead).get (by decide)
    (s.head.idx .inuse).full = true ∧ ioqCount s.head ⟨2, by decide, by decide⟩ .inuse = 1 := by
  have occupancy := idle_occupancy ⟨2, by decide, by decide⟩ (eventqRing ⟨2, by decide, by decide⟩)
    false false _ (Machine.reachable_get staleHead (by decide)) (by decide) (by decide)
  exact ⟨by decide, occupancy.2.2.1.trans (by decide)⟩

end Vbus.FullRace
