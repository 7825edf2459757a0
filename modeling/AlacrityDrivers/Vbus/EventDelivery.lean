import AlacrityDrivers.Vbus.EventQueue

namespace Vbus.EventQueue

open Transition Circular

def GuestPc.Placed (size : RingSize) (dispatched : List Nat) : GuestPc → Prop
  | .test pos _ => pos < size.count
  | .dispatch pos _ => pos < size.count
  | .clear pos mark _ => pos < size.count ∧ ∀ k, k < mark → k % size.count = pos → k ∈ dispatched
  | .pop pos mark _ => pos < size.count ∧ ∀ k, k < mark → k % size.count = pos → k ∈ dispatched
  | _ => True

structure Delivered (size : RingSize) (s : State) : Prop where
  window : OwnedWindow s.head size .inuse .north s.pops s.posted
  cookie : ∀ i, i < size.count → (s.head.ring i).cookie = i
  retired : ∀ k, k < s.pops → k ∈ s.dispatched
  buffer : ∀ k, s.pops ≤ k → k < s.posted → s.events (k % size.count) = some k ∨ k ∈ s.dispatched
  placed : ∀ thread pc, s.guest thread = some pc → pc.Placed size s.dispatched

section Delivered

variable {size : RingSize} {s : State} {thread : Nat}

theorem delivered_initial (size : RingSize) : Delivered size (machine size).start := by
  have ready := eventqStart_ready size
  refine ⟨ready.inuse, fun i inside => (ready.desc i inside).cookie, ?_, ?_, ?_⟩
  · intro k impossible
    cases impossible
  · intro k _ impossible
    cases impossible
  · intro thread pc impossible
    cases impossible

theorem Delivered.goto (delivered : Delivered size s) (thread : Nat) (next : Option GuestPc)
    (placed : ∀ pc, next = some pc → pc.Placed size s.dispatched) :
    Delivered size (s.goto thread next) := by
  refine ⟨delivered.window, delivered.cookie, delivered.retired, delivered.buffer, ?_⟩
  intro other pc running
  by_cases same : other = thread
  · subst same
    rw [goto_guest_self] at running
    exact placed pc running
  · rw [goto_guest_other s thread next same] at running
    exact delivered.placed other pc running

theorem Delivered.flags (delivered : Delivered size s) (signal : ShmSignalDesc) (dpcQueued : Bool) :
    Delivered size { s with
      head := { s.head with signal := signal }
      dpcQueued := dpcQueued } :=
  ⟨⟨delivered.window.tracks, delivered.window.owner⟩, delivered.cookie, delivered.retired,
    delivered.buffer, delivered.placed⟩

theorem Delivered.setIrq (delivered : Delivered size s) (locale : Locality) (irq : ShmSignalIrq) :
    Delivered size (s.setIrq locale irq) := delivered.flags _ _

theorem GuestPc.Unplaced.placed {pc : GuestPc} (unplaced : pc.Unplaced) (size : RingSize)
    (dispatched : List Nat) : pc.Placed size dispatched := by
  cases pc with
  | test | dispatch | clear | pop => exact unplaced.elim
  | _ => exact True.intro

theorem GuestPc.Placed.mono {pc : GuestPc} {dispatched more : List Nat}
    (placed : pc.Placed size dispatched) (grows : ∀ k, k ∈ dispatched → k ∈ more) :
    pc.Placed size more := by
  cases pc with
  | clear pos mark after => exact ⟨placed.1, fun k before place => grows k (placed.2 k before place)⟩
  | pop pos mark after => exact ⟨placed.1, fun k before place => grows k (placed.2 k before place)⟩
  | test pos after => exact placed
  | dispatch pos after => exact placed
  | _ => exact True.intro

theorem post_cases (window : OwnedWindow s.head size .inuse .north s.pops s.posted)
    (cookies : ∀ i, i < size.count → (s.head.ring i).cookie = i) :
    post size s = some s ∨
      (s.posted < s.pops + size.count ∧ post size s = some { s with
        head := s.head.handOver .inuse (idxTailPush (s.head.idx .inuse) size.count)
          (s.head.idx .inuse).tail .north
        events := Function.update s.events (s.posted % size.count) (some s.posted)
        host := some .markDirty
        posted := s.posted + 1 }) := by
  have tail := window.tracks.tail
  have bound := window.tracks.bound
  by_cases room : s.posted < s.pops + size.count
  · have admitted := window.push room
    change ioqIterPush s.head (iterAt ⟨.south, size⟩ .inuse .zero _) = _ at admitted
    have cookie := cookies (s.head.idx .inuse).tail
      (by rw [tail]; exact Nat.mod_lt _ size.positive)
    exact Or.inr ⟨room, by simp [post, hostPush_eq, admitted, cookie, ← tail]⟩
  · have refused := window.push_full (by omega)
    change ioqIterPush s.head (iterAt ⟨.south, size⟩ .inuse .zero _) = _ at refused
    exact Or.inl (by simp [post, hostPush_eq, refused])

theorem post_delivered (delivered : Delivered size s) (room : s.posted < s.pops + size.count) :
    Delivered size { s with
      head := s.head.handOver .inuse (idxTailPush (s.head.idx .inuse) size.count)
        (s.head.idx .inuse).tail .north
      events := Function.update s.events (s.posted % size.count) (some s.posted)
      host := some .markDirty
      posted := s.posted + 1 } := by
  refine ⟨delivered.window.after_push room, ?_, delivered.retired, ?_, delivered.placed⟩
  · intro i inside
    rw [handOver_desc]
    exact delivered.cookie i inside
  · intro k low high
    dsimp only at low high ⊢
    by_cases last : k = s.posted
    · subst last
      exact Or.inl (Function.update_self _ _ _)
    · have other : k % size.count ≠ s.posted % size.count := by
        intro same
        exact last (mod_injective size.positive (by omega) (by omega) same)
      rw [Function.update_of_ne other]
      exact delivered.buffer k low (by omega)

theorem GuestPc.placed_some {dispatched : List Nat} {new : GuestPc}
    (placed : new.Placed size dispatched) :
    ∀ pc, some new = some pc → pc.Placed size dispatched := by
  intro pc next
  rw [← Option.some.inj next]
  exact placed

theorem dispatch_delivered (delivered : Delivered size s) {pos : Nat} {after : After}
    (running : s.guest thread = some (.dispatch pos after)) :
    Delivered size (guestStep size s thread (.dispatch pos after)) := by
  have inside : pos < size.count := delivered.placed thread _ running
  have grows : ∀ k, k ∈ s.dispatched →
      k ∈ s.dispatched ++ (s.events (s.head.ring pos).cookie).toList :=
    fun k seen => List.mem_append_left _ seen
  have kept : Delivered size
      { s with dispatched := s.dispatched ++ (s.events (s.head.ring pos).cookie).toList } := by
    refine ⟨delivered.window, delivered.cookie, ?_, ?_, ?_⟩
    · intro k before
      exact grows k (delivered.retired k before)
    · intro k low high
      rcases delivered.buffer k low high with held | seen
      · exact Or.inl held
      · exact Or.inr (grows k seen)
    · intro other pc present
      exact (delivered.placed other pc present).mono grows
  apply kept.goto
  apply GuestPc.placed_some
  refine ⟨inside, ?_⟩
  intro k before place
  by_cases old : k < s.pops
  · exact grows k (delivered.retired k old)
  · rcases delivered.buffer k (by omega) before with held | seen
    · apply List.mem_append_right
      rw [delivered.cookie pos inside, ← place, held]
      exact List.mem_singleton_self k
    · exact grows k seen

theorem clear_delivered (delivered : Delivered size s) {pos mark : Nat} {after : After}
    (running : s.guest thread = some (.clear pos mark after))
    (heeded : ¬ Window size.count mark s.posted pos) :
    Delivered size (guestStep size s thread (.clear pos mark after)) := by
  obtain ⟨inside, seen⟩ := delivered.placed thread _ running
  have kept : Delivered size
      { s with events := Function.update s.events (s.head.ring pos).cookie none } := by
    refine ⟨delivered.window, delivered.cookie, delivered.retired, ?_, delivered.placed⟩
    intro k low high
    by_cases place : k % size.count = pos
    · have before : k < mark := by
        by_contra late
        exact heeded ⟨k, by omega, high, place⟩
      exact Or.inr (seen k before place)
    · rw [delivered.cookie pos inside]
      change Function.update s.events pos none (k % size.count) = some k ∨ _
      rw [Function.update_of_ne place]
      exact delivered.buffer k low high
  apply kept.goto
  intro pc next
  rw [← Option.some.inj next]
  exact ⟨inside, seen⟩

theorem pop_drain (window : OwnedWindow s.head size .inuse .north s.pops s.posted) (pos : Nat) :
    (pos = (s.head.idx .inuse).head ∧ s.pops < s.posted ∧
        ioqIterPop s.head (drainIter size pos) =
          ⟨0, s.head.handOver .inuse (idxHeadPop (s.head.idx .inuse) size.count)
            (s.head.idx .inuse).head .south, drainIter size ((s.pops + 1) % size.count), false⟩) ∨
      ((pos = (s.head.idx .inuse).head → s.pops = s.posted) ∧
        ioqIterPop s.head (drainIter size pos) = ⟨-1, s.head, drainIter size pos, false⟩) := by
  have le := window.tracks.le
  by_cases position : pos = (s.head.idx .inuse).head
  · by_cases nonempty : s.pops < s.posted
    · have popped := window.pop nonempty
      refine Or.inl ⟨position, nonempty, ?_⟩
      rw [position]
      exact popped
    · refine Or.inr ⟨fun _ => by omega, ?_⟩
      apply pop_refused
      right
      intro owned
      have north : (s.head.ring pos).sown = .north := Option.some.inj owned
      rw [position] at north
      exact nonempty (window.head_owner.mp north)
  · exact Or.inr ⟨fun same => absurd same position, pop_refused _ _ (Or.inl position)⟩

theorem pop_delivered (delivered : Delivered size s) {pos mark : Nat} {after : After}
    (running : s.guest thread = some (.pop pos mark after))
    (heeded : ¬ Window size.count mark s.posted pos) :
    Delivered size (guestStep size s thread (.pop pos mark after)) := by
  obtain ⟨inside, seen⟩ := delivered.placed thread _ running
  have head := delivered.window.tracks.head
  rcases pop_drain delivered.window pos with ⟨position, nonempty, popped⟩ | ⟨_, refused⟩
  · have kept : Delivered size { s with
        head := s.head.handOver .inuse (idxHeadPop (s.head.idx .inuse) size.count)
          (s.head.idx .inuse).head .south
        pops := s.pops + 1 } := by
      refine ⟨delivered.window.after_pop nonempty, ?_, ?_, ?_, delivered.placed⟩
      · intro i bound
        rw [handOver_desc]
        exact delivered.cookie i bound
      · intro k before
        by_cases last : k = s.pops
        · subst last
          have place : s.pops % size.count = pos := by rw [position, head]
          apply seen s.pops ?_ place
          by_contra late
          exact heeded ⟨s.pops, by omega, nonempty, place⟩
        · exact delivered.retired k (by dsimp only at before; omega)
      · intro k low high
        exact delivered.buffer k (by dsimp only at low; omega) high
    simp only [guestStep, popped]
    exact kept.goto _ _ (GuestPc.placed_some (Nat.mod_lt _ size.positive))
  · simp only [guestStep, refused]
    exact delivered.goto _ _ (GuestPc.placed_some inside)

theorem guest_delivered (delivered : Delivered size s) {pc : GuestPc}
    (running : s.guest thread = some pc)
    (heeded : Heeded size s (.guestStep thread)) : Delivered size (guestStep size s thread pc) := by
  have outside := guestStep_outside size s thread pc
  cases pc with
  | seek after =>
    apply delivered.goto
    apply GuestPc.placed_some
    change (s.head.idx .inuse).head < size.count
    rw [delivered.window.tracks.head]
    exact Nat.mod_lt _ size.positive
  | test pos after =>
    have inside : pos < size.count := delivered.placed thread _ running
    apply delivered.goto
    apply GuestPc.placed_some
    split
    · exact inside
    · exact True.intro
  | dispatch pos after => exact dispatch_delivered delivered running
  | clear pos mark after =>
    exact clear_delivered delivered running (heeded pos mark after (Or.inl running))
  | pop pos mark after =>
    exact pop_delivered delivered running (heeded pos mark after (Or.inr running))
  | _ =>
    rcases outside (fun inLoop => inLoop True.intro) with ⟨signal, dpcQueued, next, moved, unplaced⟩
    rw [moved]
    apply (delivered.flags signal dpcQueued).goto
    intro new arrived
    exact (unplaced new arrived).placed size s.dispatched

end Delivered

end Vbus.EventQueue
