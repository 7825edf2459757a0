import AlacrityDrivers.Vbus.RingWindow

namespace Vbus

inductive NtStatus where
  | success
  | noMemory
  | noMoreEntries
deriving DecidableEq, Repr

/-- `sizeof(struct vbus_pci_event)`: an `eventid` padded to eight bytes, then an id and 128 bytes
    of type name. -/
def sizeofVbusPciEvent : Nat := 144

/-- What `eventq_init` writes into the descriptor of event buffer `i`. The cookie and the physical
    address of a buffer are represented by the number of the buffer. -/
def primeDesc (desc : RingDesc) (i : Nat) : RingDesc :=
  { desc with cookie := i, ptr := i, len := sizeofVbusPciEvent, valid := true }

def RingHead.setDesc (head : RingHead) (slot : Nat) (desc : RingDesc) : RingHead :=
  { head with ring := Function.update head.ring slot desc }

def primeIter (head : RingHead) (iter : IoqIterator) (i : Nat) : RingHead :=
  match iter.desc with
  | some slot => head.setDesc slot (primeDesc (head.ring slot) i)
  | none => head

/-- The loop of `eventq_init` from buffer `i` on, with `n` buffers to go. -/
def eventqInitLoop : Nat → Nat → RingHead → IoqIterator → NtStatus × RingHead
  | 0, _, head, _ => (.success, head)
  | n + 1, i, head, iter =>
    let pushed := ioqIterPush (primeIter head iter i) iter
    if pushed.ret < 0 then (.noMoreEntries, pushed.head)
    else eventqInitLoop n (i + 1) pushed.head pushed.iter

def ioqNotifyEnable (head : RingHead) (locale : Locality) : RingHead :=
  { head with signal := head.signal.set locale (shmSignalEnable (head.signal.irq locale)).1 }

/-- `eventq_init` on the ring that `eventq_ioq_init` allocated, every allocation succeeding. -/
def eventqInit (size : RingSize) (head : RingHead) : NtStatus × RingHead :=
  match ioqIterInit ⟨.north, size⟩ .valid .zero with
  | none => (.noMoreEntries, head)
  | some iter =>
    let primed := eventqInitLoop size.count 0 head (ioqIterSeek head iter .tail 0).2
    if primed.1 = .success then (.success, ioqNotifyEnable primed.2 .north) else primed

def eventqStart (size : RingSize) : RingHead := (eventqInit size .zeroed).2

/-- A south `ioq` pushes the tail of the in-use index it has just sought. -/
def hostPush (size : RingSize) (head : RingHead) : Option IterResult :=
  (ioqIterInit ⟨.south, size⟩ .inuse .zero).map fun iter =>
    ioqIterPush head (ioqIterSeek head iter .tail 0).2

theorem hostPush_eq (size : RingSize) (head : RingHead) :
    hostPush size head =
      some (ioqIterPush head (iterAt ⟨.south, size⟩ .inuse .zero (head.idx .inuse).tail)) := rfl

structure RingDesc.Carries (desc : RingDesc) (i : Nat) : Prop where
  cookie : desc.cookie = i
  ptr : desc.ptr = i
  len : desc.len = sizeofVbusPciEvent
  valid : desc.valid = true

structure Primed (head : RingHead) (size : RingSize) (i : Nat) : Prop where
  window : OwnedWindow head size .valid .south 0 i
  inuse : head.idx .inuse = ⟨0, 0, false⟩
  signal : head.signal = .zeroed
  desc : ∀ j, j < i → (head.ring j).Carries j

theorem primed_zero (size : RingSize) : Primed .zeroed size 0 := by
  refine ⟨⟨tracks_zero size, ?_⟩, rfl, rfl, ?_⟩
  · intro i _
    constructor
    · intro impossible
      cases impossible
    · intro inside
      exact absurd inside Circular.window_empty
  · intro j impossible
    omega

theorem setDesc_desc (head : RingHead) (place : Nat) (desc : RingDesc) (i : Nat) :
    (head.setDesc place desc).ring i = if i = place then desc else head.ring i := by
  by_cases same : i = place
  · simp [RingHead.setDesc, same]
  · simp [RingHead.setDesc, same]

theorem setDesc_window {head : RingHead} {size : RingSize} {slot : IdxSlot} {consumer : Locality}
    {popped pushed : Nat} (place : Nat) (desc : RingDesc)
    (window : OwnedWindow head size slot consumer popped pushed)
    (owner : desc.sown = (head.ring place).sown) :
    OwnedWindow (head.setDesc place desc) size slot consumer popped pushed := by
  refine ⟨window.tracks, ?_⟩
  intro i inside
  have same : ((head.setDesc place desc).ring i).sown = (head.ring i).sown := by
    rw [setDesc_desc]
    split
    · subst i
      exact owner
    · rfl
  rw [same]
  exact window.owner i inside

theorem primed_step {head : RingHead} {size : RingSize} {i : Nat} (primed : Primed head size i)
    (inside : i < size.count) :
    ∃ after, ioqIterPush (primeIter head (iterAt ⟨.north, size⟩ .valid .zero i) i)
        (iterAt ⟨.north, size⟩ .valid .zero i) =
        ⟨0, after, iterAt ⟨.north, size⟩ .valid .zero ((i + 1) % size.count), false⟩ ∧
      Primed after size (i + 1) := by
  have written := setDesc_window i (primeDesc (head.ring i) i) primed.window rfl
  have position : (head.idx .valid).tail = i := by
    rw [primed.window.tracks.tail, Nat.mod_eq_of_lt inside]
  have pushed := written.push (by omega)
  have grown := written.after_push (by omega)
  change ioqIterPush _ (iterAt _ .valid .zero (head.idx .valid).tail) = _ at pushed
  rw [position] at pushed
  refine ⟨_, pushed, grown, ?_, primed.signal, ?_⟩
  · rw [handOver_idx_ne _ _ (by decide)]
    exact primed.inuse
  · intro j before
    have carries : ((head.setDesc i (primeDesc (head.ring i) i)).ring j).Carries j := by
      rw [setDesc_desc]
      split
      · subst j
        exact ⟨rfl, rfl, rfl, rfl⟩
      · exact primed.desc j (by omega)
    rw [handOver_desc]
    exact ⟨carries.cookie, carries.ptr, carries.len, carries.valid⟩

theorem primed_loop (size : RingSize) (n i : Nat) (head : RingHead) (total : i + n = size.count)
    (primed : Primed head size i) :
    ∃ after, eventqInitLoop n i head (iterAt ⟨.north, size⟩ .valid .zero (i % size.count)) =
      (.success, after) ∧ Primed after size size.count := by
  induction n generalizing i head with
  | zero =>
    have done : i = size.count := by omega
    subst done
    exact ⟨head, rfl, primed⟩
  | succ n ih =>
    have inside : i < size.count := by omega
    obtain ⟨after, pushed, next⟩ := primed_step primed inside
    obtain ⟨final, looped, ready⟩ := ih (i + 1) after (by omega) next
    refine ⟨final, ?_, ready⟩
    rw [Nat.mod_eq_of_lt inside]
    simp only [eventqInitLoop, pushed]
    exact looped

/-- What `eventq_init` leaves: every descriptor primed and owned by the south, the valid index full,
    the in-use index empty, and north notifications enabled with nothing pending. -/
structure EventqReady (head : RingHead) (size : RingSize) : Prop where
  valid : OwnedWindow head size .valid .south 0 size.count
  inuse : OwnedWindow head size .inuse .north 0 0
  desc : ∀ i, i < size.count → (head.ring i).Carries i
  north : head.signal.irq .north = ⟨true, false, false⟩
  south : head.signal.irq .south = ⟨false, false, false⟩

theorem Primed.ready {head : RingHead} {size : RingSize} (primed : Primed head size size.count) :
    EventqReady (ioqNotifyEnable head .north) size := by
  refine ⟨⟨primed.window.tracks, primed.window.owner⟩, ⟨?_, ?_⟩, primed.desc, ?_, ?_⟩
  · change (head.idx .inuse).Tracks size 0 0
    rw [primed.inuse]
    exact tracks_zero size
  · intro i inside
    have covered : Circular.Window size.count 0 size.count i :=
      ⟨i, Nat.zero_le _, inside, Nat.mod_eq_of_lt inside⟩
    have south : (head.ring i).sown = .south := (primed.window.owner i inside).mpr covered
    constructor
    · intro north
      exact absurd (south.symm.trans north) (by decide)
    · intro impossible
      exact absurd impossible Circular.window_empty
  · simp [ioqNotifyEnable, primed.signal, ShmSignalDesc.zeroed, shmSignalEnable, shmSignalWakeup]
  · have other := ShmSignalDesc.set_other head.signal .north
      (shmSignalEnable (head.signal.irq .north)).1
    exact other.trans (by rw [primed.signal]; rfl)

theorem eventqInit_ready (size : RingSize) :
    ∃ head, eventqInit size .zeroed = (.success, head) ∧ EventqReady head size := by
  obtain ⟨after, looped, primed⟩ := primed_loop size size.count 0 .zeroed (by omega) (primed_zero size)
  refine ⟨ioqNotifyEnable after .north, ?_, primed.ready⟩
  rw [Nat.zero_mod] at looped
  have sought : eventqInit size .zeroed =
      let primed := eventqInitLoop size.count 0 .zeroed (iterAt ⟨.north, size⟩ .valid .zero 0)
      if primed.1 = .success then (.success, ioqNotifyEnable primed.2 .north) else primed := rfl
  rw [sought, looped]
  rfl

theorem eventqStart_ready (size : RingSize) : EventqReady (eventqStart size) size := by
  obtain ⟨head, ran, ready⟩ := eventqInit_ready size
  have same : eventqStart size = head := by rw [eventqStart, ran]
  rw [same]
  exact ready

end Vbus
