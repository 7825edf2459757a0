import AlacrityDrivers.Vbus.RingTransfer

namespace Vbus.RingTransfer

open Transition Circular FullRace AtomicQueue

def Placed (size : RingSize) (iter : IoqIterator) (position : Nat) : Prop :=
  iter.pos = position % size.count ∧ iter.desc = some (position % size.count)

def Offering : PushPc → Prop
  | .signal _ => False
  | _ => True

def Taking : PopPc → Prop
  | .signal _ => False
  | _ => True

def ProducerAt (size : RingSize) (base : Nat) (s : FullRace.State) :
    Option PushPc → Producer Payload → Prop
  | none, producer => producer = .idle
  | some (.signal _), producer => ∃ value, producer = .done value true
  | some _, producer =>
    producer = .offering (payload (s.head.ring ((base + s.pushes) % size.count)))

def ConsumerAt (size : RingSize) (base : Nat) (s : FullRace.State) :
    Option NorthPc → Option PopPc → Consumer Payload → Prop
  | none, none, consumer => consumer = .idle
  | some .look, none, consumer => consumer = .asking
  | some .read, none, consumer => consumer = .asking ∧ s.pops < handed s
  | some (.pop value), some (.signal _), consumer => consumer = .done (some value)
  | some (.pop value), some _, consumer =>
    consumer = .asking ∧ s.pops < handed s ∧
      value = payload (s.head.ring ((base + s.pops) % size.count))
  | _, _, _ => False

structure Related (size : RingSize) (base : Nat) (s : State) (t : AtomicQueue.State Payload) :
    Prop where
  known : ∃ c, Invariant size base s.ring c
  queue : t.queue = contents size base s.ring
  pusherPlaced : Placed size s.ring.pusher (base + handed s.ring)
  popperPlaced : Placed size s.ring.popper (base + returned s.ring)
  producer : ProducerAt size base s.ring s.ring.pushPc t.producer
  consumer : ConsumerAt size base s.ring s.north s.ring.popPc t.consumer

def Answered (size : RingSize) (base : Nat) (t : AtomicQueue.State Payload) (next : State)
    (events : List (Event Payload)) : Prop :=
  ∃ actions after, (AtomicQueue.observed Payload size.count).machine.run t actions = some after ∧
    (AtomicQueue.observed Payload size.count).trace t actions = events ∧
    Related size base next after

section Relation

variable {size : RingSize} {base : Nat} {s : State} {t : AtomicQueue.State Payload}
  {ring next : FullRace.State} {north : Option NorthPc} {popPc : Option PopPc}
  {consumer : Consumer Payload}

theorem Related.answered (related : Related size base s t) : Answered size base t s [] :=
  ⟨[], t, rfl, rfl, related⟩

theorem handed_offering {pc : PushPc} (running : ring.pushPc = some pc) (offering : Offering pc) :
    handed ring = ring.pushes := by
  rw [handed, running]
  cases pc <;> first | rfl | exact offering.elim

theorem returned_taking {pc : PopPc} (running : ring.popPc = some pc) (taking : Taking pc) :
    returned ring = ring.pops := by
  rw [returned, running]
  cases pc <;> first | rfl | exact taking.elim

theorem producerAt_offering {pc : PushPc} {producer : Producer Payload} (offering : Offering pc) :
    ProducerAt size base ring (some pc) producer ↔
      producer = .offering (payload (ring.head.ring ((base + ring.pushes) % size.count))) := by
  cases pc <;> first | exact Iff.rfl | exact offering.elim

theorem consumerAt_taking {pc : PopPc} {value : Payload} (taking : Taking pc) :
    ConsumerAt size base ring (some (.pop value)) (some pc) consumer ↔
      consumer = .asking ∧ ring.pops < handed ring ∧
        value = payload (ring.head.ring ((base + ring.pops) % size.count)) := by
  cases pc <;> first | exact Iff.rfl | exact taking.elim

theorem consumerAt_south (holds : ConsumerAt size base ring north ring.popPc consumer)
    (running : next.popPc = ring.popPc) (pops : next.pops = ring.pops)
    (more : handed ring ≤ handed next)
    (kept : returned ring < handed ring →
      payload (next.head.ring ((base + returned ring) % size.count)) =
        payload (ring.head.ring ((base + returned ring) % size.count))) :
    ConsumerAt size base next north next.popPc consumer := by
  rw [running]
  rcases north with _ | _ | _ | value
  · rcases found : ring.popPc with _ | pc <;> rw [found] at holds
    · exact holds
    · exact holds.elim
  · rcases found : ring.popPc with _ | pc <;> rw [found] at holds
    · exact holds
    · exact holds.elim
  · rcases found : ring.popPc with _ | pc <;> rw [found] at holds
    · exact ⟨holds.1, by rw [pops]; exact Nat.lt_of_lt_of_le holds.2 more⟩
    · exact holds.elim
  · rcases found : ring.popPc with _ | pc <;> rw [found] at holds
    · exact holds.elim
    · by_cases taking : Taking pc
      · rw [consumerAt_taking taking, ← returned_taking found taking] at holds
        rw [consumerAt_taking taking, pops, ← returned_taking found taking]
        obtain ⟨asking, ready, read⟩ := holds
        exact ⟨asking, Nat.lt_of_lt_of_le ready more, read.trans (kept ready).symm⟩
      · cases pc <;> first | exact holds | exact absurd True.intro taking

theorem producerAt_north {pc : Option PushPc} {producer : Producer Payload}
    (holds : ProducerAt size base ring pc producer) (pushes : next.pushes = ring.pushes)
    (kept : ∀ slot, payload (next.head.ring slot) = payload (ring.head.ring slot)) :
    ProducerAt size base next pc producer := by
  rcases pc with _ | pc
  · exact holds
  · by_cases offering : Offering pc
    · rw [producerAt_offering offering] at holds ⊢
      rw [holds, pushes, kept]
    · cases pc <;> first | exact holds | exact absurd True.intro offering

end Relation

section Push

variable {size : RingSize} {base : Nat} {s : State} {t : AtomicQueue.State Payload}
  {pc next : PushPc}

theorem push_stays (related : Related size base s t) (running : s.ring.pushPc = some pc)
    (here : Offering pc) (there : Offering next)
    (goes : (pushStep s.ring.head s.ring.pusher pc).control = .goto next)
    (stands : (pushStep s.ring.head s.ring.pusher pc).iter = s.ring.pusher) :
    Related size base { s with ring := afterPush s.ring pc } t := by
  obtain ⟨c, holds⟩ := related.known
  have after : (afterPush s.ring pc).pushPc = some next := by
    simp only [afterPush, goes, Control.pc]
  have pushes : (afterPush s.ring pc).pushes = s.ring.pushes := by
    simp only [afterPush, goes, Control.success, Nat.add_zero]
  have same : handed (afterPush s.ring pc) = handed s.ring := by
    rw [handed_offering after there, handed_offering running here, pushes]
  have producer := related.producer
  rw [running, producerAt_offering here] at producer
  refine ⟨push_access holds running, ?_, ?_, related.popperPlaced, ?_, ?_⟩
  · rw [related.queue]
    exact (contents_same (fun slot => push_payload pc slot) same rfl).symm
  · change Placed size (afterPush s.ring pc).pusher _
    rw [same]
    simp only [afterPush, stands]
    exact related.pusherPlaced
  · change ProducerAt size base (afterPush s.ring pc) (afterPush s.ring pc).pushPc _
    rw [after, producerAt_offering there, producer, pushes]
    congr 1
    exact (push_payload pc _).symm
  · exact consumerAt_south related.consumer rfl rfl (Nat.le_of_eq same.symm)
      fun _ => push_payload pc _

theorem push_testTail (related : Related size base s t) (running : s.ring.pushPc = some .testTail) :
    (pushStep s.ring.head s.ring.pusher .testTail).control = .goto .testSown := by
  obtain ⟨c, holds⟩ := related.known
  have facts := holds.pusher
  have place := related.pusherPlaced.1
  rw [running] at facts
  rw [handed_offering running True.intro] at place
  have tail : s.ring.pusher.pos = (s.ring.head.idx s.ring.pusher.idx).tail := by
    rw [holds.pusherIter.idx, holds.midway.tailAt, facts.1, place]
  rw [pushStep, if_neg (not_not.mpr tail)]

theorem push_refused (related : Related size base s t)
    (foreign : s.ring.pusher.descSown s.ring.head ≠ some s.ring.pusher.ioq.locale) :
    t.queue.length = size.count := by
  obtain ⟨c, holds⟩ := related.known
  have inside := Nat.mod_lt (base + handed s.ring) size.positive
  simp only [IoqIterator.descSown, related.pusherPlaced.2, Option.map_some, holds.pusherIter.ioq, ne_eq,
    Option.some.injEq] at foreign
  have north : (s.ring.head.ring ((base + handed s.ring) % size.count)).sown = .north :=
    (Locality.eq_other _ _ foreign).trans rfl
  rw [owner_window holds inside, window_tail size.positive (handed_le holds)] at north
  rw [related.queue, contents_length]
  omega

theorem push_testSown (related : Related size base s t) (running : s.ring.pushPc = some .testSown) :
    Answered size base t { s with ring := afterPush s.ring .testSown }
      (event s .pushAccess).toList := by
  obtain ⟨c, holds⟩ := related.known
  have here : Offering .testSown := True.intro
  by_cases owned : s.ring.pusher.descSown s.ring.head = some s.ring.pusher.ioq.locale
  · have goes : (pushStep s.ring.head s.ring.pusher .testSown).control = .goto .loadTail := by
      rw [pushStep, if_neg (not_not.mpr owned)]
    have silent : event s .pushAccess = none := by
      simp [event, running, goes, returns]
    rw [silent]
    have there : Offering .loadTail := True.intro
    exact (push_stays related running here there goes rfl).answered
  · have full := push_refused related owned
    have exits : (pushStep s.ring.head s.ring.pusher .testSown).control = .exit (-1) := by
      rw [pushStep, if_pos owned]
    have shown : event s .pushAccess = some (.returned false) := by
      simp [event, running, exits, returns]
    have producer := related.producer
    rw [running, producerAt_offering here] at producer
    have after : (afterPush s.ring .testSown).pushPc = none := by
      simp only [afterPush, exits, Control.pc]
    have same : handed (afterPush s.ring .testSown) = handed s.ring := by
      simp [handed, running, afterPush, exits, Control.pc, Control.success]
    obtain ⟨queue, _, consumer⟩ := t
    dsimp only at producer full
    subst producer
    refine ⟨[.produce, .conclude], ⟨queue, .idle, consumer⟩, ?_, ?_, ?_⟩
    · simp [AtomicQueue.observed, Machine.run, AtomicQueue.step, full]
    · simp [AtomicQueue.observed, Observed.trace, AtomicQueue.step, AtomicQueue.event, full, shown]
    · refine ⟨push_access holds running, ?_, ?_, related.popperPlaced, ?_, ?_⟩
      · exact related.queue.trans (contents_same (fun slot => push_payload _ slot) same rfl).symm
      · rw [same]
        exact related.pusherPlaced
      · rw [after]
        rfl
      · exact consumerAt_south related.consumer rfl rfl (Nat.le_of_eq same.symm)
          fun _ => push_payload _ _

theorem push_flip (related : Related size base s t) (running : s.ring.pushPc = some .flip) :
    Answered size base t { s with ring := afterPush s.ring .flip }
      (event s .pushAccess).toList := by
  obtain ⟨c, holds⟩ := related.known
  have le := returned_le holds
  have known := push_access holds running
  have facts := holds.pusher
  have popped_le := holds.midway.popped_le
  have returned_le := holds.midway.returned_le
  have bound := holds.midway.bound
  have handed_is := handed_eq holds
  have returned_is := returned_eq holds
  have producer := related.producer
  have here : Offering .flip := True.intro
  have offering := handed_offering running here
  rw [running, producerAt_offering here, ← offering] at producer
  rw [running] at facts
  have room : handed s.ring - returned s.ring < size.count := by
    have pushed := facts.1
    rw [← offering] at pushed
    omega
  have place := related.pusherPlaced
  have desc := place.2
  obtain ⟨control, either, access⟩ := holds.pusherIter.flipAccess desc s.ring.head PushPc.signal
  have moved : (afterPush s.ring .flip).pusher =
      ioqIterSetpos s.ring.pusher (moduloInc s.ring.pusher.pos s.ring.pusher.ioq.size.count) := by
    simp only [afterPush, pushStep, access]
  have count : handed (afterPush s.ring .flip) = handed s.ring + 1 := by
    rcases either with rfl | rfl <;>
      simp [handed, afterPush, pushStep, access, Control.pc, Control.success, running]
  have longer := @contents_handed size base s.ring (afterPush s.ring .flip)
    (fun slot => push_payload _ slot) le count rfl
  have related_next (producer : Producer Payload)
      (at_next : ProducerAt size base (afterPush s.ring .flip) (afterPush s.ring .flip).pushPc
        producer) :
      Related size base { s with ring := afterPush s.ring .flip }
        ⟨t.queue ++ [payload (s.ring.head.ring ((base + handed s.ring) % size.count))], producer,
          t.consumer⟩ := by
    refine ⟨known, ?_, ?_, related.popperPlaced, at_next, ?_⟩
    · rw [related.queue]
      exact longer.symm
    · rw [moved, count, place.1, holds.pusherIter.ioq, moduloInc_mod, Nat.add_assoc]
      exact ⟨rfl, rfl⟩
    · exact consumerAt_south related.consumer rfl rfl (by rw [count]; exact Nat.le_succ _)
        fun _ => push_payload _ _
  have short : t.queue.length < size.count := by
    rw [related.queue, contents_length]
    exact room
  obtain ⟨queue, _, consumer⟩ := t
  dsimp only at producer related_next short
  subst producer
  rcases either with rfl | rfl
  · have silent : event s .pushAccess = none := by
      simp [event, running, pushStep, access, returns]
    rw [silent]
    refine ⟨[.produce], _, ?_, ?_,
      related_next (.done (payload (s.ring.head.ring ((base + handed s.ring) % size.count))) true) ?_⟩
    · simp [AtomicQueue.observed, Machine.run, AtomicQueue.step, short]
    · simp [AtomicQueue.observed, Observed.trace, AtomicQueue.step, AtomicQueue.event, short]
    · simp [afterPush, pushStep, access, Control.pc, ProducerAt]
  · have shown : event s .pushAccess = some (.returned true) := by
      simp [event, running, pushStep, access, returns]
    rw [shown]
    refine ⟨[.produce, .conclude], _, ?_, ?_, related_next .idle ?_⟩
    · simp [AtomicQueue.observed, Machine.run, AtomicQueue.step, short]
    · simp [AtomicQueue.observed, Observed.trace, AtomicQueue.step, AtomicQueue.event, short]
    · simp [afterPush, pushStep, access, Control.pc, ProducerAt]

theorem push_signal (related : Related size base s t) {ret : Int}
    (running : s.ring.pushPc = some (.signal ret)) :
    Answered size base t { s with ring := afterPush s.ring (.signal ret) }
      (event s .pushAccess).toList := by
  obtain ⟨c, holds⟩ := related.known
  have known := push_access holds running
  have facts := holds.pusher
  have producer := related.producer
  rw [running] at facts producer
  obtain ⟨_, _, zero⟩ := facts
  obtain ⟨value, producer⟩ := producer
  subst zero
  have shown : event s .pushAccess = some (.returned true) := by
    simp [event, running, pushStep, returns]
  have same : handed (afterPush s.ring (.signal 0)) = handed s.ring := by
    simp [handed, running, afterPush, pushStep, Control.pc, Control.success]
  have queue := @contents_same size base s.ring (afterPush s.ring (.signal 0))
    (fun slot => push_payload _ slot) same rfl
  obtain ⟨values, _, consumer⟩ := t
  dsimp only at producer
  subst producer
  rw [shown]
  refine ⟨[.conclude], ⟨values, .idle, consumer⟩, rfl, rfl, known, ?_, ?_, related.popperPlaced, ?_, ?_⟩
  · exact related.queue.trans queue.symm
  · rw [same]
    exact related.pusherPlaced
  · simp [afterPush, pushStep, Control.pc, ProducerAt]
  · exact consumerAt_south related.consumer rfl rfl (Nat.le_of_eq same.symm)
      fun _ => push_payload (.signal 0) _

theorem push_answered (related : Related size base s t) (running : s.ring.pushPc = some pc) :
    Answered size base t { s with ring := afterPush s.ring pc } (event s .pushAccess).toList := by
  have stays (next : PushPc) (here : Offering pc) (there : Offering next)
      (goes : (pushStep s.ring.head s.ring.pusher pc).control = .goto next)
      (stands : (pushStep s.ring.head s.ring.pusher pc).iter = s.ring.pusher) :
      Answered size base t { s with ring := afterPush s.ring pc }
        (event s .pushAccess).toList := by
    have silent : event s .pushAccess = none := by
      simp [event, running, goes, returns]
    rw [silent]
    exact (push_stays related running here there goes stands).answered
  cases pc with
  | testTail => exact stays .testSown True.intro True.intro (push_testTail related running) rfl
  | testSown => exact push_testSown related running
  | loadTail => exact stays (.loadHead _) True.intro True.intro rfl rfl
  | loadHead tail =>
    by_cases meets : (s.ring.head.idx s.ring.pusher.idx).head = tail
    · exact stays (.setFull tail) True.intro True.intro (by rw [pushStep, if_pos meets]) rfl
    · exact stays (.setTail tail) True.intro True.intro (by rw [pushStep, if_neg meets]) rfl
  | setFull tail => exact stays (.setTail tail) True.intro True.intro rfl rfl
  | setTail tail => exact stays .flip True.intro True.intro rfl rfl
  | flip => exact push_flip related running
  | signal ret => exact push_signal related running

end Push

section Take

variable {size : RingSize} {base : Nat} {s : State} {t : AtomicQueue.State Payload} {pc next : PopPc}
  {value : Payload}

theorem pop_stays (related : Related size base s t) (taking : s.north = some (.pop value))
    (running : s.ring.popPc = some pc) (here : Taking pc) (there : Taking next)
    (goes : (popStep s.ring.head s.ring.popper pc).control = .goto next)
    (stands : (popStep s.ring.head s.ring.popper pc).iter = s.ring.popper) :
    Related size base { ring := afterPop s.ring pc, north := some (.pop value) } t := by
  obtain ⟨c, holds⟩ := related.known
  have after : (afterPop s.ring pc).popPc = some next := by
    simp only [afterPop, goes, Control.pc]
  have pops : (afterPop s.ring pc).pops = s.ring.pops := by
    simp only [afterPop, goes, Control.success, Nat.add_zero]
  have same : returned (afterPop s.ring pc) = returned s.ring := by
    rw [returned_taking after there, returned_taking running here, pops]
  have consumer := related.consumer
  rw [taking, running, consumerAt_taking here] at consumer
  obtain ⟨asking, ready, read⟩ := consumer
  refine ⟨pop_access holds running, ?_, related.pusherPlaced, ?_, ?_, ?_⟩
  · rw [related.queue]
    exact (@contents_same size base s.ring (afterPop s.ring pc) (fun slot => pop_payload pc slot)
      rfl same).symm
  · change Placed size (afterPop s.ring pc).popper _
    rw [same]
    simp only [afterPop, stands]
    exact related.popperPlaced
  · have producer := related.producer
    exact producerAt_north producer rfl (fun slot => pop_payload pc slot)
  · change ConsumerAt size base (afterPop s.ring pc) _ (afterPop s.ring pc).popPc _
    rw [after, consumerAt_taking there, pops]
    exact ⟨asking, ready, read.trans (pop_payload pc _).symm⟩

theorem take_owned (related : Related size base s t) (ready : returned s.ring < handed s.ring) :
    s.ring.popper.descSown s.ring.head = some .north := by
  obtain ⟨c, holds⟩ := related.known
  have inside := Nat.mod_lt (base + returned s.ring) size.positive
  have north := (owner_window holds inside).mpr (window_head.mpr (Nat.add_lt_add_left ready base))
  rw [IoqIterator.descSown, related.popperPlaced.2, Option.map_some, north]

theorem take_empty (related : Related size base s t)
    (foreign : s.ring.popper.descSown s.ring.head ≠ some .north) : t.queue = [] := by
  rw [related.queue, contents]
  apply listing_empty
  by_contra ready
  exact foreign (take_owned related (by omega))

theorem take_ready (related : Related size base s t)
    (owned : s.ring.popper.descSown s.ring.head = some .north) :
    returned s.ring < handed s.ring := by
  obtain ⟨c, holds⟩ := related.known
  have inside := Nat.mod_lt (base + returned s.ring) size.positive
  rw [IoqIterator.descSown, related.popperPlaced.2, Option.map_some, Option.some.injEq,
    owner_window holds inside, window_head] at owned
  omega

theorem pop_testHead (related : Related size base s t) (running : s.ring.popPc = some .testHead) :
    (popStep s.ring.head s.ring.popper .testHead).control = .goto .testSown := by
  obtain ⟨c, holds⟩ := related.known
  have facts := holds.popper
  have place := related.popperPlaced.1
  have here : Taking .testHead := True.intro
  rw [running] at facts
  rw [returned_taking running here] at place
  have head : s.ring.popper.pos = (s.ring.head.idx s.ring.popper.idx).head := by
    rw [holds.popperIter.idx, holds.midway.headAt, facts.1, place]
  rw [popStep, if_neg (not_not.mpr head)]

theorem pop_flip (related : Related size base s t) (taking : s.north = some (.pop value))
    (running : s.ring.popPc = some .flip) :
    Answered size base t
      { ring := afterPop s.ring .flip, north := (afterPop s.ring .flip).popPc.map fun _ => .pop value }
      (event s .takeAccess).toList := by
  obtain ⟨c, holds⟩ := related.known
  have known := pop_access holds running
  have here : Taking .flip := True.intro
  have stays := returned_taking running here
  have consumer := related.consumer
  rw [taking, running, consumerAt_taking here, ← stays] at consumer
  obtain ⟨asking, ready, read⟩ := consumer
  have place := related.popperPlaced
  obtain ⟨control, either, access⟩ :=
    holds.popperIter.flipAccess place.2 s.ring.head PopPc.signal
  have moved : (afterPop s.ring .flip).popper =
      ioqIterSetpos s.ring.popper (moduloInc s.ring.popper.pos s.ring.popper.ioq.size.count) := by
    simp only [afterPop, popStep, access]
  have count : returned (afterPop s.ring .flip) = returned s.ring + 1 := by
    rcases either with rfl | rfl <;>
      simp [returned, afterPop, popStep, access, Control.pc, Control.success, running]
  have shorter := @contents_returned size base s.ring (afterPop s.ring .flip)
    (fun slot => pop_payload _ slot) ready count rfl
  rw [← related.queue, ← read] at shorter
  have related_next (north : Option NorthPc) (consumer : Consumer Payload)
      (at_next : ConsumerAt size base (afterPop s.ring .flip) north (afterPop s.ring .flip).popPc
        consumer) :
      Related size base { ring := afterPop s.ring .flip, north := north }
        ⟨contents size base (afterPop s.ring .flip), t.producer, consumer⟩ := by
    refine ⟨known, rfl, related.pusherPlaced, ?_, ?_, at_next⟩
    · rw [moved, count, place.1, holds.popperIter.ioq, moduloInc_mod, Nat.add_assoc]
      exact ⟨rfl, rfl⟩
    · have producer := related.producer
      exact producerAt_north producer rfl (fun slot => pop_payload _ slot)
  obtain ⟨queue, producer, _⟩ := t
  dsimp only at asking shorter related_next
  subst asking shorter
  rcases either with rfl | rfl
  · have silent : event s .takeAccess = none := by
      simp [event, taking, running, popStep, access, returns]
    have after : (afterPop s.ring .flip).popPc = some (.signal 0) := by
      simp [afterPop, popStep, access, Control.pc]
    rw [silent, after]
    refine ⟨[.consume], _, ?_, ?_, related_next (some (.pop value)) (.done (some value)) ?_⟩
    · simp [AtomicQueue.observed, Machine.run, AtomicQueue.step]
    · simp [AtomicQueue.observed, Observed.trace, AtomicQueue.step, AtomicQueue.event]
    · rw [after]
      rfl
  · have shown : event s .takeAccess = some (.answered (some value)) := by
      simp [event, taking, running, popStep, access, returns]
    have after : (afterPop s.ring .flip).popPc = none := by
      simp [afterPop, popStep, access, Control.pc]
    rw [shown, after]
    refine ⟨[.consume, .answer], _, ?_, ?_, related_next none .idle ?_⟩
    · simp [AtomicQueue.observed, Machine.run, AtomicQueue.step]
    · simp [AtomicQueue.observed, Observed.trace, AtomicQueue.step, AtomicQueue.event]
    · rw [after]
      rfl

theorem pop_signal (related : Related size base s t) (taking : s.north = some (.pop value)) {ret : Int}
    (running : s.ring.popPc = some (.signal ret)) :
    Answered size base t
      { ring := afterPop s.ring (.signal ret)
        north := (afterPop s.ring (.signal ret)).popPc.map fun _ => .pop value }
      (event s .takeAccess).toList := by
  obtain ⟨c, holds⟩ := related.known
  have known := pop_access holds running
  have facts := holds.popper
  have consumer := related.consumer
  rw [running] at facts
  rw [taking, running] at consumer
  obtain ⟨_, _, zero⟩ := facts
  subst zero
  have shown : event s .takeAccess = some (.answered (some value)) := by
    simp [event, taking, running, popStep, returns]
  have after : (afterPop s.ring (.signal 0)).popPc = none := by
    simp [afterPop, popStep, Control.pc]
  have same : returned (afterPop s.ring (.signal 0)) = returned s.ring := by
    simp [returned, running, afterPop, popStep, Control.pc, Control.success]
  have queue := @contents_same size base s.ring (afterPop s.ring (.signal 0))
    (fun slot => pop_payload _ slot) rfl same
  obtain ⟨values, producer, _⟩ := t
  dsimp only [ConsumerAt] at consumer
  subst consumer
  rw [shown, after]
  refine ⟨[.answer], ⟨values, producer, .idle⟩, rfl, rfl, known, ?_, related.pusherPlaced, ?_, ?_, ?_⟩
  · exact related.queue.trans queue.symm
  · rw [same]
    exact related.popperPlaced
  · have held := related.producer
    exact producerAt_north held rfl (fun slot => pop_payload _ slot)
  · rw [after]
    rfl

theorem pop_answered (related : Related size base s t) (taking : s.north = some (.pop value))
    (running : s.ring.popPc = some pc) :
    Answered size base t
      { ring := afterPop s.ring pc, north := (afterPop s.ring pc).popPc.map fun _ => .pop value }
      (event s .takeAccess).toList := by
  have stays (next : PopPc) (here : Taking pc) (there : Taking next)
      (goes : (popStep s.ring.head s.ring.popper pc).control = .goto next)
      (stands : (popStep s.ring.head s.ring.popper pc).iter = s.ring.popper) :
      Answered size base t
        { ring := afterPop s.ring pc, north := (afterPop s.ring pc).popPc.map fun _ => .pop value }
        (event s .takeAccess).toList := by
    have silent : event s .takeAccess = none := by
      simp [event, taking, running, goes, returns]
    have after : (afterPop s.ring pc).popPc = some next := by
      simp only [afterPop, goes, Control.pc]
    rw [silent, after]
    exact (pop_stays related taking running here there goes stands).answered
  obtain ⟨c, holds⟩ := related.known
  cases pc with
  | testHead => exact stays .testSown True.intro True.intro (pop_testHead related running) rfl
  | testSown =>
    have here : Taking .testSown := True.intro
    have consumer := related.consumer
    rw [taking, running, consumerAt_taking here, ← returned_taking running here] at consumer
    have owned := take_owned related consumer.2.1
    have locale : s.ring.popper.ioq.locale = .north := by
      rw [holds.popperIter.ioq]
    apply stays .loadHead here True.intro _ rfl
    rw [popStep, if_neg (not_not.mpr (by rw [owned, locale]))]
  | loadHead => exact stays (.setHead _) True.intro True.intro rfl rfl
  | setHead new => exact stays .testFull True.intro True.intro rfl rfl
  | testFull =>
    cases full : (s.ring.head.idx s.ring.popper.idx).full with
    | true => exact stays .clearFull True.intro True.intro (by rw [popStep, full, if_pos rfl]) rfl
    | false =>
      exact stays .flip True.intro True.intro
        (by rw [popStep, full, if_neg Bool.false_ne_true]) rfl
  | clearFull => exact stays .flip True.intro True.intro rfl rfl
  | flip => exact pop_flip related taking running
  | signal ret => exact pop_signal related taking running

end Take

end Vbus.RingTransfer
