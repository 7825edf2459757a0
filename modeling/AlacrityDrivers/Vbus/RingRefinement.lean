import AlacrityDrivers.Vbus.RingQueue

namespace Vbus.RingTransfer

open Transition Circular FullRace AtomicQueue

section Step

variable {size : RingSize} {base : Nat} {s next : State} {t : AtomicQueue.State Payload}

theorem seekPusher_related (related : Related size base s t)
    (stepped : step s .seekPusher = some next) : Related size base next t := by
  obtain ⟨c, holds⟩ := related.known
  simp only [step, Option.map_eq_some_iff] at stepped
  obtain ⟨ring, stepped, rfl⟩ := stepped
  have known := FullRace.invariant_step base _ _ _ ⟨c, holds⟩ stepped
  simp only [FullRace.step, Option.ite_none_right_eq_some, Option.some.injEq] at stepped
  obtain ⟨idle, rfl⟩ := stepped
  have facts := holds.pusher
  rw [idle] at facts
  refine ⟨known, related.queue, ?_, related.popperPlaced, related.producer, related.consumer⟩
  have tail : (s.ring.head.idx s.ring.pusher.idx).tail =
      (base + handed s.ring) % size.count := by
    rw [holds.pusherIter.idx, holds.midway.tailAt, facts.1, handed, idle]
    rfl
  exact ⟨tail, congrArg some tail⟩

theorem seekPopper_related (related : Related size base s t)
    (stepped : step s .seekPopper = some next) : Related size base next t := by
  obtain ⟨c, holds⟩ := related.known
  simp only [step, Option.ite_none_right_eq_some, Option.map_eq_some_iff] at stepped
  obtain ⟨_, ring, stepped, rfl⟩ := stepped
  have known := FullRace.invariant_step base _ _ _ ⟨c, holds⟩ stepped
  simp only [FullRace.step, Option.ite_none_right_eq_some, Option.some.injEq] at stepped
  obtain ⟨idle, rfl⟩ := stepped
  have facts := holds.popper
  rw [idle] at facts
  refine ⟨known, related.queue, related.pusherPlaced, ?_, related.producer, related.consumer⟩
  have head : (s.ring.head.idx s.ring.popper.idx).head =
      (base + returned s.ring) % size.count := by
    rw [holds.popperIter.idx, holds.midway.headAt, facts.1, returned, idle]
    rfl
  exact ⟨head, congrArg some head⟩

theorem fill_related (write : DescWrite) (related : Related size base s t)
    (stepped : step s (.fill write) = some next) : Related size base next t := by
  obtain ⟨c, holds⟩ := related.known
  simp only [step, Option.ite_none_right_eq_some, Option.map_eq_some_iff] at stepped
  obtain ⟨⟨idle, owned⟩, slot, desc, rfl⟩ := stepped
  have south : (s.ring.head.ring slot).sown = .south := by
    simpa [IoqIterator.descSown, desc] using owned
  have owners (i : Nat) :
      ((RingTransfer.fill s.ring.head slot write).ring i).sown = (s.ring.head.ring i).sown := by
    by_cases same : i = slot
    · rw [same]
      simp [RingTransfer.fill]
    · simp [RingTransfer.fill, Function.update_of_ne same]
  have kept (i : Nat) (inside : Window size.count (base + returned s.ring) (base + handed s.ring) i) :
      payload ((RingTransfer.fill s.ring.head slot write).ring i) =
        payload (s.ring.head.ring i) := by
    obtain ⟨_, _, _, place⟩ := id inside
    have bound : i < size.count := by
      rw [← place]
      exact Nat.mod_lt _ size.positive
    have north := (owner_window holds bound).mpr inside
    have other : i ≠ slot := by
      intro same
      rw [same, south] at north
      cases north
    simp [RingTransfer.fill, Function.update_of_ne other]
  have midway : Midway size (RingTransfer.fill s.ring.head slot write) c := by
    refine ⟨holds.midway.tailAt, holds.midway.headAt, holds.midway.returned_le, holds.midway.popped_le,
      holds.midway.handed_le, holds.midway.bound, ?_⟩
    intro i inside
    rw [owners]
    exact holds.midway.owner i inside
  refine ⟨⟨c, midway, holds.pusherIter, holds.popperIter, holds.pusher, holds.popper, holds.full,
    holds.stale⟩, ?_, related.pusherPlaced, related.popperPlaced, ?_, ?_⟩
  · rw [related.queue]
    exact (listing_congr kept).symm
  · have producer := related.producer
    rw [idle] at producer
    dsimp only
    rw [idle]
    exact producer
  · exact consumerAt_south related.consumer rfl rfl (Nat.le_refl _)
      fun ready => kept _ (window_head.mpr (Nat.add_lt_add_left ready base))

theorem callPush_answered (related : Related size base s t)
    (stepped : step s .callPush = some next) :
    Answered size base t next (event s .callPush).toList := by
  obtain ⟨c, holds⟩ := related.known
  simp only [step, Option.map_eq_some_iff] at stepped
  obtain ⟨ring, stepped, rfl⟩ := stepped
  have known := FullRace.invariant_step base _ _ _ ⟨c, holds⟩ stepped
  simp only [FullRace.step, Option.ite_none_right_eq_some, Option.some.injEq] at stepped
  obtain ⟨idle, rfl⟩ := stepped
  have producer := related.producer
  have pushes : handed s.ring = s.ring.pushes := by
    rw [handed, idle]
    rfl
  have same : handed { s.ring with pushPc := some .testTail } = handed s.ring := by
    rw [handed, handed, idle]
  have contents := @contents_same size base s.ring { s.ring with pushPc := some .testTail }
    (fun _ => rfl) same rfl
  have shown : event s .callPush =
      some (.offered (payload (s.ring.head.ring ((base + s.ring.pushes) % size.count)))) := by
    simp [event, related.pusherPlaced.2, pushes]
  rw [idle] at producer
  obtain ⟨queue, _, consumer⟩ := t
  dsimp only [ProducerAt] at producer
  subst producer
  rw [shown]
  refine ⟨[.offer _], ⟨queue, .offering _, consumer⟩, rfl, rfl, known, ?_, ?_, related.popperPlaced, rfl,
    ?_⟩
  · exact related.queue.trans contents.symm
  · rw [same]
    exact related.pusherPlaced
  · exact consumerAt_south related.consumer rfl rfl (Nat.le_of_eq same.symm) fun _ => rfl

theorem take_idle (related : Related size base s t) (north : s.north = some .look ∨ s.north = some .read) :
    s.ring.popPc = none ∧ t.consumer = .asking := by
  have consumer := related.consumer
  rcases running : s.ring.popPc with _ | pc
  · rcases north with look | read
    · rw [look, running] at consumer
      exact ⟨rfl, consumer⟩
    · rw [read, running] at consumer
      exact ⟨rfl, consumer.1⟩
  · rcases north with look | read
    · rw [look, running] at consumer
      exact consumer.elim
    · rw [read, running] at consumer
      exact consumer.elim

theorem look_answered (related : Related size base s t) (north : s.north = some .look)
    (stepped : takeStep s .look = some next) :
    Answered size base t next (event s .takeAccess).toList := by
  obtain ⟨idle, asking⟩ := take_idle related (Or.inl north)
  have pops : returned s.ring = s.ring.pops := by
    rw [returned, idle]
    rfl
  by_cases owned : s.ring.popper.descSown s.ring.head = some .north
  · have silent : event s .takeAccess = none := by
      simp [event, north, owned]
    rw [takeStep, if_pos owned, Option.some.injEq] at stepped
    rw [silent, ← stepped]
    have ready := take_ready related owned
    rw [pops] at ready
    have consumer : ConsumerAt size base s.ring (some .read) s.ring.popPc t.consumer := by
      rw [idle]
      exact ⟨asking, ready⟩
    have read : Related size base { s with north := some .read } t :=
      ⟨related.known, related.queue, related.pusherPlaced, related.popperPlaced, related.producer,
        consumer⟩
    exact read.answered
  · have shown : event s .takeAccess = some (.answered none) := by
      simp [event, north, owned]
    rw [takeStep, if_neg owned, Option.some.injEq] at stepped
    rw [shown, ← stepped]
    have empty := take_empty related owned
    obtain ⟨queue, producer, _⟩ := t
    dsimp only at empty asking
    subst empty asking
    refine ⟨[.consume, .answer], ⟨[], producer, .idle⟩, rfl, rfl, related.known, related.queue,
      related.pusherPlaced, related.popperPlaced, related.producer, ?_⟩
    dsimp only
    rw [idle]
    rfl

theorem read_answered (related : Related size base s t) (north : s.north = some .read)
    (stepped : takeStep s .read = some next) :
    Answered size base t next (event s .takeAccess).toList := by
  obtain ⟨c, holds⟩ := related.known
  obtain ⟨idle, asking⟩ := take_idle related (Or.inr north)
  have pops : returned s.ring = s.ring.pops := by
    rw [returned, idle]
    rfl
  have silent : event s .takeAccess = none := by
    simp [event, north]
  have consumer := related.consumer
  have facts := holds.popper
  rw [north, idle] at consumer
  rw [idle] at facts
  simp only [takeStep, related.popperPlaced.2, Option.map_some, Option.some.injEq] at stepped
  rw [silent, ← stepped]
  have known := holds.popperAt (some .testHead) holds.popperIter facts
    (fun clearing _ => by rw [idle] at clearing; exact clearing.elim)
  have same : returned { s.ring with popPc := some .testHead } = returned s.ring := by
    rw [returned, returned, idle]
  have contents := @contents_same size base s.ring { s.ring with popPc := some .testHead }
    (fun _ => rfl) rfl same
  have calls : Related size base
      { ring := { s.ring with popPc := some .testHead }
        north := some (.pop (payload
          (s.ring.head.ring ((base + returned s.ring) % size.count)))) } t := by
    refine ⟨⟨c, known⟩, ?_, related.pusherPlaced, ?_, related.producer, ?_⟩
    · exact related.queue.trans contents.symm
    · rw [same]
      exact related.popperPlaced
    · rw [pops]
      exact ⟨asking, consumer.2, rfl⟩
  exact calls.answered

theorem step_answered (related : Related size base s t) (action : Action)
    (stepped : step s action = some next) :
    Answered size base t next (event s action).toList := by
  cases action with
  | seekPusher => exact (seekPusher_related related stepped).answered
  | fill write => exact (fill_related write related stepped).answered
  | callPush => exact callPush_answered related stepped
  | pushAccess =>
    simp only [step, FullRace.step, Option.map_eq_some_iff] at stepped
    obtain ⟨ring, ⟨pc, running, rfl⟩, rfl⟩ := stepped
    exact push_answered related running
  | seekPopper => exact (seekPopper_related related stepped).answered
  | callTake =>
    simp only [step, Option.isNone_iff_eq_none, Option.ite_none_right_eq_some,
      Option.some.injEq] at stepped
    obtain ⟨idle, rfl⟩ := stepped
    have consumer := related.consumer
    rw [idle] at consumer
    rcases running : s.ring.popPc with _ | pc
    · rw [running] at consumer
      obtain ⟨queue, producer, _⟩ := t
      dsimp only [ConsumerAt] at consumer
      subst consumer
      refine ⟨[.ask], ⟨queue, producer, .asking⟩, rfl, rfl, related.known, related.queue,
        related.pusherPlaced, related.popperPlaced, related.producer, ?_⟩
      dsimp only
      rw [running]
      rfl
    · rw [running] at consumer
      exact consumer.elim
  | takeAccess =>
    simp only [step, Option.bind_eq_some_iff] at stepped
    obtain ⟨north, standing, stepped⟩ := stepped
    cases north with
    | look => exact look_answered related standing stepped
    | read => exact read_answered related standing stepped
    | pop value =>
      simp only [takeStep, Option.map_eq_some_iff] at stepped
      obtain ⟨pc, running, rfl⟩ := stepped
      exact pop_answered related standing running

end Step

section Run

variable {size : RingSize}

theorem start_related (ring : EmptyRing size) (pusherUpdate popperUpdate : Bool) :
    Related size ring.base (observed ring pusherUpdate popperUpdate).machine.start
      (AtomicQueue.observed Payload size.count).machine.start := by
  have initial := invariant_initial ring pusherUpdate popperUpdate
  have place : ring.base = ring.base % size.count := (Nat.mod_eq_of_lt ring.inside).symm
  refine ⟨⟨_, initial.midway, initial.pusherIter.seek .tail 0, initial.popperIter.seek .head 0,
    initial.pusher, initial.popper, initial.full, initial.stale⟩, ?_, ?_, ?_, rfl, rfl⟩
  · exact (listing_empty (Nat.le_refl _)).symm
  · have tail : (ring.head.idx .inuse).tail = (ring.base + 0) % size.count := by
      rw [ring.idx, Nat.add_zero, ← place]
    exact ⟨tail, congrArg some tail⟩
  · have head : (ring.head.idx .inuse).head = (ring.base + 0) % size.count := by
      rw [ring.idx, Nat.add_zero, ← place]
    exact ⟨head, congrArg some head⟩

def simulation (ring : EmptyRing size) (pusherUpdate popperUpdate : Bool) :
    Simulation (observed ring pusherUpdate popperUpdate)
      (AtomicQueue.observed Payload size.count) where
  relates := Related size ring.base
  start := start_related ring pusherUpdate popperUpdate
  answers := fun _ _ action _ related stepped => step_answered related action stepped

def waiting (size : RingSize) (head : RingHead) : List Payload :=
  (List.range (ioqCount head size .inuse)).map fun k =>
    payload (head.ring (((head.idx .inuse).head + k) % size.count))

theorem waiting_contents {base : Nat} {s : FullRace.State} {c : Progress}
    (holds : Invariant size base s c) (noPush : s.pushPc = none) (noPop : s.popPc = none) :
    contents size base s = waiting size s.head := by
  have facts := holds.popper
  rw [noPop] at facts
  have count : ioqCount s.head size .inuse = handed s - returned s := by
    rw [handed, returned, noPush, noPop]
    exact (holds.tracks noPush noPop).count.trans (Nat.add_sub_add_left _ _ _)
  have head : (s.head.idx .inuse).head = (base + returned s) % size.count := by
    rw [holds.midway.headAt, facts.1, returned, noPop]
    rfl
  rw [contents, listing, waiting, count, head, Nat.add_sub_add_left]
  simp only [Nat.mod_add_mod]

end Run

/-- Whatever way the accesses of the two sides interleave, their calls return what the calls on a
    bounded queue return that take effect at one instant. -/
theorem ring_is_atomic_queue (size : RingSize) (ring : EmptyRing size)
    (pusherUpdate popperUpdate : Bool) (actions : List Action) (final : State)
    (ran : (observed ring pusherUpdate popperUpdate).machine.run
      (observed ring pusherUpdate popperUpdate).machine.start actions = some final) :
    ∃ answers after,
      (AtomicQueue.observed Payload size.count).machine.run
        (AtomicQueue.observed Payload size.count).machine.start answers = some after ∧
      (AtomicQueue.observed Payload size.count).trace
        (AtomicQueue.observed Payload size.count).machine.start answers =
        (observed ring pusherUpdate popperUpdate).trace
          (observed ring pusherUpdate popperUpdate).machine.start actions := by
  obtain ⟨answers, after, answered, shown, _⟩ :=
    (simulation ring pusherUpdate popperUpdate).traces ran
  exact ⟨answers, after, answered, shown⟩

def exchange : List Action :=
  [.fill (.cookie 7), .callPush] ++ List.replicate 6 .pushAccess ++
    [.callTake, .takeAccess, .takeAccess, .pushAccess, .fill (.cookie 8), .callPush] ++
    List.replicate 5 .pushAccess ++ List.replicate 3 .takeAccess ++ List.replicate 3 .pushAccess ++
    List.replicate 4 .takeAccess

theorem two_fits : 2 < 2 ^ 31 := by
  decide

def exchangeSize : RingSize := ⟨2, Nat.two_pos, two_fits⟩

def exchangeRing : EmptyRing exchangeSize := eventqRing exchangeSize

theorem exchange_allowed : ((observed exchangeRing true false).machine.run
    (observed exchangeRing true false).machine.start exchange).isSome := by
  decide

theorem ring_is_atomic_queue_exchange :
    ∃ answers after,
      (AtomicQueue.observed Payload 2).machine.run
        (AtomicQueue.observed Payload 2).machine.start answers = some after ∧
      (AtomicQueue.observed Payload 2).trace
        (AtomicQueue.observed Payload 2).machine.start answers =
        [.offered ⟨7, 0, 144, true⟩, .asked, .returned true, .offered ⟨8, 1, 144, true⟩,
          .returned true, .answered (some ⟨7, 0, 144, true⟩)] := by
  obtain ⟨answers, after, answered, shown⟩ := ring_is_atomic_queue exchangeSize
    exchangeRing true false exchange _ (Option.some_get exchange_allowed).symm
  exact ⟨answers, after, answered, shown.trans (by decide)⟩

/-- The north takes out what the south pushed, in order and once each, and between the calls the ring
    holds the rest. -/
theorem ring_keeps_order (size : RingSize) (ring : EmptyRing size) (pusherUpdate popperUpdate : Bool)
    (actions : List Action) (final : State)
    (ran : (observed ring pusherUpdate popperUpdate).machine.run
      (observed ring pusherUpdate popperUpdate).machine.start actions = some final) :
    let a := account ((observed ring pusherUpdate popperUpdate).trace
      (observed ring pusherUpdate popperUpdate).machine.start actions)
    a.delivered <+: a.accepted ++ a.offer.toList ∧
      a.accepted.length ≤ a.delivered.length + 1 + size.count ∧
      (final.north = none → final.ring.pushPc = none →
        a.accepted = a.delivered ++ waiting size final.ring.head) := by
  obtain ⟨answers, after, answered, shown, related⟩ :=
    (simulation ring pusherUpdate popperUpdate).traces ran
  have accounts := accounts_run answered
  rw [shown] at accounts
  refine ⟨accounts.delivered_prefix, accounts.accepted_le, ?_⟩
  intro noTake noPush
  obtain ⟨c, holds⟩ := related.known
  have order := accounts.order
  have producer := related.producer
  have consumer := related.consumer
  rw [noPush] at producer
  rw [noTake] at consumer
  have noPop : final.ring.popPc = none := by
    rcases running : final.ring.popPc with _ | pc
    · rfl
    · rw [running] at consumer
      exact consumer.elim
  rw [noPop] at consumer
  have idle : after.consumer = .idle := consumer
  rw [producer, idle, related.queue, waiting_contents holds noPush noPop] at order
  simpa [Producer.settled, Consumer.settled] using order

theorem ring_keeps_order_exchange :
    (account ((observed exchangeRing true false).trace
      (observed exchangeRing true false).machine.start exchange)).accepted =
      [⟨7, 0, 144, true⟩] ++ waiting exchangeSize
        (((observed exchangeRing true false).machine.run
          (observed exchangeRing true false).machine.start exchange).get exchange_allowed).ring.head := by
  exact (ring_keeps_order exchangeSize exchangeRing true false exchange _
    (Option.some_get exchange_allowed).symm).2.2 (by decide) (by decide)

end Vbus.RingTransfer
