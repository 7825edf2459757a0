import AlacrityDrivers.Venet.Capacity
import AlacrityDrivers.Venet.TcbLifetime

namespace Venet

open Transition

/-- What the NBLs carry: their `NET_BUFFER`s, and the 802.1Q value of each. -/
structure Frames (p : Params) where
  buffers : Nat → List NetBuffer
  priority : Nat → BitVec 32
  counted : ∀ nbl, (buffers nbl).length = (p.nbls nbl).netBuffers
  valid : ∀ nbl, ∀ buffer ∈ buffers nbl, buffer.Valid

/-- `SrCopyFrame` returns what it returns for the `NET_BUFFER` that it is called for. -/
def Frames.copies {p : Params} (frames : Frames p) (s : State) : Action → Bool
  | .run thread bytes =>
    match s.threads thread, s.sends.sendingNBL with
    | some (.processNbl (.copy nb _)), some nbl =>
      (frames.buffers nbl)[nb]?.all fun buffer =>
        bytes == (srCopyFrame buffer (frames.priority nbl)).count
    | _, _ => true
  | _ => true

/-- A `NET_BUFFER` that `SrCopyFrame` cannot map. -/
def Frames.Unmapped {p : Params} (frames : Frames p) (nbl nb : Nat) : Prop :=
  ∃ buffer, (frames.buffers nbl)[nb]? = some buffer ∧
    mappedUpTo (buffer.dataOffset + buffer.dataLength) buffer.mdls = false

/-- The `NET_BUFFER`s that `SrSubmitTCB` is called for, each with its NBL. -/
def framesSent (p : Params) : Observed State Action (Nat × Nat) where
  machine := machine p
  event := fun s action =>
    match action with
    | .run thread _ =>
      match s.threads thread, s.sends.sendingNBL with
      | some (.processNbl (.submit nb _)), some nbl => some (nbl, nb)
      | _, _ => none
    | _ => none

def NblPc.passed (nbl : Nbl) : NblPc → Nat
  | .submit nb _ => nb + 1
  | pc => pc.sent nbl

structure Uncopied {p : Params} (frames : Frames p) (s : State) : Prop where
  honest : ∀ thread pc, s.threads thread = some (.processNbl pc) → pc.Honest
  passed : ∀ thread pc nbl, s.threads thread = some (.processNbl pc) →
    s.sends.sendingNBL = some nbl → ∀ nb < pc.passed (p.nbls nbl), frames.Unmapped nbl nb
  sent : ∀ nbl ∈ s.sends.succeeded, ∀ nb < (p.nbls nbl).netBuffers, frames.Unmapped nbl nb

structure Outside (s next : State) : Prop where
  places : ∀ thread pc, next.threads thread = some (.processNbl pc) → pc = .check ∨
    (s.threads thread = some (.processNbl pc) ∧ next.sends.sendingNBL = s.sends.sendingNBL)
  succeeded : next.sends.succeeded = s.sends.succeeded ∨
    ∃ thread nbl, s.threads thread = some (.processNbl (.finish .success)) ∧
      s.sends.sendingNBL = some nbl ∧ next.sends.succeeded = s.sends.succeeded ++ [nbl]

section Inside

variable {p : Params} {s next : State} {thread bytes : Nat} {action : Action}

theorem Outside.same (threads : next.threads = s.threads)
    (sending : next.sends.sendingNBL = s.sends.sendingNBL)
    (succeeded : next.sends.succeeded = s.sends.succeeded) : Outside s next := by
  refine ⟨?_, Or.inl succeeded⟩
  intro thread pc place
  rw [threads] at place
  exact Or.inr ⟨place, sending⟩

theorem Outside.update {new : Option Pc}
    (threads : next.threads = Function.update s.threads thread new)
    (own : ∀ pc, new ≠ some (.processNbl pc))
    (sending : next.sends.sendingNBL = s.sends.sendingNBL)
    (succeeded : next.sends.succeeded = s.sends.succeeded) : Outside s next := by
  refine ⟨?_, Or.inl succeeded⟩
  intro other pc place
  rw [threads, Function.update_apply] at place
  split at place
  · exact absurd place (own pc)
  · exact Or.inr ⟨place, sending⟩

theorem outside_processQueue (exclusive : Exclusive s) :
    Outside s (processQueue s thread) := by
  unfold processQueue
  dsimp only
  split
  · exact .update rfl (by simp) rfl rfl
  · rename_i free
    simp only [Bool.or_eq_true, not_or, Bool.not_eq_true, Option.isSome_eq_false_iff,
      Option.isNone_iff_eq_none] at free
    refine ⟨?_, Or.inl rfl⟩
    intro other pc place
    change Function.update s.threads thread (some (.processNbl .check)) other = _ at place
    rw [Function.update_apply] at place
    split at place
    · rw [Option.some.injEq, Pc.processNbl.injEq] at place
      exact Or.inl place.symm
    · exact absurd place (exclusive.nobody free.1.1 other pc)

theorem outside_finishNbl {nbl : Nat} {rc : NdisStatus} (exclusive : Exclusive s)
    (running : s.threads thread = some (.processNbl (.finish rc)))
    (sending : s.sends.sendingNBL = some nbl) : Outside s (finishNbl s thread nbl rc) := by
  refine ⟨?_, ?_⟩
  · intro other pc place
    exact absurd place (exclusive.left running other pc)
  · unfold finishNbl
    split
    · rename_i success
      rw [success] at running
      exact Or.inr ⟨thread, nbl, running, sending, rfl⟩
    · exact Or.inl rfl

theorem outside_halt (stepped : haltStep p s = some next) : Outside s next := by
  unfold haltStep at stepped
  split at stepped
  · simp only [Option.ite_none_right_eq_some, Option.some.injEq] at stepped
    rw [← stepped.2]
    exact .same rfl rfl rfl
  · simp only [Option.ite_none_right_eq_some, Option.some.injEq] at stepped
    rw [← stepped.2]
    exact .same rfl rfl rfl
  · rw [← Option.some.inj stepped]
    exact .same rfl rfl rfl
  · cases stepped

theorem threadStep_inside {pc : Pc} (exclusive : Exclusive s)
    (running : s.threads thread = some pc) (stepped : threadStep p s thread bytes pc = some next) :
    (∃ nbl inner, pc = .processNbl inner ∧ s.sends.sendingNBL = some nbl ∧
      processNblStep p s thread bytes nbl inner = some next) ∨ Outside s next := by
  cases pc with
  | processQueue =>
    simp only [threadStep, Option.ite_none_right_eq_some, Option.some.injEq] at stepped
    rw [← stepped.2]
    exact Or.inr (outside_processQueue exclusive)
  | processNbl inner =>
    obtain ⟨nbl, sending, inside | ⟨rc, rfl, after⟩⟩ := processNbl_cases stepped
    · exact Or.inl ⟨nbl, inner, rfl, sending, inside⟩
    · rw [after]
      exact Or.inr (outside_finishNbl exclusive running sending)
  | resetTest =>
    rw [← Option.some.inj stepped]
    refine Or.inr (.update rfl ?_ rfl rfl)
    intro pc
    split <;> simp
  | resetFlag | resetQueued | pauseFlag | pauseWait =>
    simp only [threadStep, Option.ite_none_right_eq_some, Option.some.injEq] at stepped
    rw [← stepped.2]
    exact Or.inr (.update rfl (by simp) rfl rfl)
  | _ =>
    rw [← Option.some.inj stepped]
    exact Or.inr (.update rfl (by simp) rfl rfl)

theorem step_inside (holds : Invariant p s) (stepped : step p s action = some next) :
    (∃ thread bytes nbl pc, action = .run thread bytes ∧
      s.threads thread = some (.processNbl pc) ∧ s.sends.sendingNBL = some nbl ∧
      processNblStep p s thread bytes nbl pc = some next) ∨ Outside s next := by
  simp only [step, Option.ite_none_left_eq_some] at stepped
  have stepped := stepped.2
  cases action with
  | sendNetBufs thread chain =>
    simp only [Option.ite_none_right_eq_some, Option.some.injEq] at stepped
    rw [← stepped.2, venetSendNetBufs]
    split
    · exact Or.inr (.same rfl rfl rfl)
    · rw [enqueue_chain]
      exact Or.inr (.update rfl (by simp) rfl rfl)
  | run thread bytes =>
    simp only [Option.bind_eq_some_iff] at stepped
    obtain ⟨pc, running, stepped⟩ := stepped
    rcases threadStep_inside holds.exclusive running stepped with
      ⟨nbl, inner, rfl, sending, inside⟩ | outside
    · exact Or.inl ⟨thread, bytes, nbl, inner, rfl, running, sending, inside⟩
    · exact Or.inr outside
  | cancelSend cancelId =>
    simp only [Option.ite_none_right_eq_some, Option.some.injEq] at stepped
    rw [← stepped.2]
    exact Or.inr (.same rfl rfl rfl)
  | txCompletion tcb =>
    simp only [Option.ite_none_right_eq_some, Option.some.injEq] at stepped
    have sends := completion_sends holds.accounting stepped.1
    rw [← stepped.2]
    refine Or.inr (.same (txCompletion_frame s tcb).1 ?_ ?_)
    · rw [sends]
    · rw [sends]
  | halt => exact Or.inr (outside_halt stepped)
  | _ =>
    simp only [Option.ite_none_right_eq_some, Option.some.injEq] at stepped
    rw [← stepped.2]
    exact Or.inr (.update rfl (by simp) rfl rfl)

end Inside

section Uncopied

variable {p : Params} {frames : Frames p} {s next : State} {thread bytes nbl nb tcb : Nat}
  {pc after : NblPc} {action : Action}

theorem loopPc_passed {nbl : Nbl} {nb : Nat} (reached : nb ≤ nbl.netBuffers) :
    (loopPc nbl nb).passed nbl = nb := by
  have same : (loopPc nbl nb).passed nbl = (loopPc nbl nb).sent nbl := by
    unfold loopPc
    split <;> rfl
  rw [same, loopPc_sent reached]

theorem Uncopied.outside (uncopied : Uncopied frames s) (outside : Outside s next) :
    Uncopied frames next := by
  refine ⟨?_, ?_, ?_⟩
  · intro thread pc place
    rcases outside.places thread pc place with rfl | ⟨before, _⟩
    · exact True.intro
    · exact uncopied.honest thread pc before
  · intro thread pc nbl place sending nb fewer
    rcases outside.places thread pc place with rfl | ⟨before, same⟩
    · exact absurd fewer (Nat.not_lt_zero nb)
    · rw [same] at sending
      exact uncopied.passed thread pc nbl before sending nb fewer
  · rcases outside.succeeded with same | ⟨thread, nbl, finishing, sending, grown⟩
    · rw [same]
      exact uncopied.sent
    · rw [grown]
      intro other among
      rcases List.mem_append.mp among with earlier | now
      · exact uncopied.sent other earlier
      · rw [List.mem_singleton.mp now]
        exact uncopied.passed thread _ nbl finishing sending

theorem Uncopied.inside (uncopied : Uncopied frames s) (exclusive : Exclusive s)
    (running : s.threads thread = some (.processNbl pc))
    (threads : next.threads = Function.update s.threads thread (some (.processNbl after)))
    (sends : next.sends = s.sends) (sending : s.sends.sendingNBL = some nbl) (honest : after.Honest)
    (passed : ∀ nb < after.passed (p.nbls nbl), frames.Unmapped nbl nb) : Uncopied frames next := by
  have arrived : next.threads thread = some (.processNbl after) := by
    rw [threads, Function.update_self]
  have alone := (exclusive.inside running sends threads).alone arrived
  refine ⟨?_, ?_, ?_⟩
  · intro other pc' place
    rw [alone other pc' place]
    exact honest
  · intro other pc' current place is
    rw [alone other pc' place]
    rw [sends, sending, Option.some.injEq] at is
    rw [← is]
    exact passed
  · rw [sends]
    exact uncopied.sent

theorem Frames.unmapped_of_copied (holds : Invariant p s)
    (copies : frames.copies s (.run thread bytes) = true)
    (running : s.threads thread = some (.processNbl (.copy nb tcb)))
    (sending : s.sends.sendingNBL = some nbl) (copied : copyStatus bytes = .success) :
    frames.Unmapped nbl nb := by
  have more : nb < (p.nbls nbl).netBuffers :=
    (holds.accounting.running thread _ nbl running sending).more
  rw [← frames.counted nbl] at more
  have found : (frames.buffers nbl)[nb]? = some (frames.buffers nbl)[nb] :=
    List.getElem?_eq_getElem more
  have valid := frames.valid nbl _ (List.getElem_mem more)
  simp only [Frames.copies, running, sending, found, Option.all_some, beq_iff_eq] at copies
  have nothing : bytes = 0 := by
    by_contra some
    rw [copyStatus, if_neg some] at copied
    cases copied
  refine ⟨_, found, ?_⟩
  rw [← srCopyFrame_fails_iff (frames.priority nbl) valid.some valid.enough, ← copies]
  exact nothing

theorem uncopied_inside (uncopied : Uncopied frames s) (holds : Invariant p s)
    (copies : frames.copies s (.run thread bytes) = true)
    (running : s.threads thread = some (.processNbl pc)) (sending : s.sends.sendingNBL = some nbl)
    (stepped : processNblStep p s thread bytes nbl pc = some next) : Uncopied frames next := by
  have standing := holds.accounting.running thread pc nbl running sending
  have honest := uncopied.honest thread pc running
  have passed := uncopied.passed thread pc nbl running sending
  have nothing {n : Nat} (zero : n = 0) : ∀ nb < n, frames.Unmapped nbl nb := by
    intro nb fewer
    omega
  cases pc with
  | check =>
    rw [← Option.some.inj stepped]
    refine uncopied.inside holds.exclusive running rfl rfl sending ?_ (nothing ?_)
    · split
      · exact True.intro
      · exact loopPc_honest _ _
    · split
      · rfl
      · exact loopPc_passed (Nat.zero_le _)
  | alloc nb =>
    simp only [processNblStep] at stepped
    split at stepped
    · rw [← Option.some.inj stepped]
      exact uncopied.inside holds.exclusive running rfl rfl sending True.intro (nothing rfl)
    · rw [← Option.some.inj stepped]
      exact uncopied.inside holds.exclusive running rfl rfl sending True.intro passed
  | allocEvent nb tcb =>
    rw [← Option.some.inj stepped]
    exact uncopied.inside holds.exclusive running rfl rfl sending True.intro passed
  | copy nb tcb =>
    rw [← Option.some.inj stepped]
    by_cases copied : copyStatus bytes = .success
    · rw [if_pos copied]
      refine uncopied.inside holds.exclusive running rfl rfl sending True.intro ?_
      intro other within
      rcases Nat.lt_succ_iff_lt_or_eq.mp within with earlier | rfl
      · exact passed other earlier
      · exact frames.unmapped_of_copied holds copies running sending copied
    · rw [if_neg copied]
      exact uncopied.inside holds.exclusive running rfl rfl sending copied (nothing rfl)
  | submit nb tcb =>
    rw [← Option.some.inj stepped]
    refine uncopied.inside holds.exclusive running rfl rfl sending (loopPc_honest _ _) ?_
    rw [loopPc_passed standing.more]
    exact passed
  | release tcb rc =>
    rw [← Option.some.inj stepped]
    exact uncopied.inside holds.exclusive running rfl rfl sending honest (nothing rfl)
  | releaseEvent rc =>
    rw [← Option.some.inj stepped]
    exact uncopied.inside holds.exclusive running rfl rfl sending True.intro (nothing (if_neg honest))
  | finish rc => cases stepped
  | fault => cases stepped

theorem uncopied_step (uncopied : Uncopied frames s) (holds : Invariant p s)
    (copies : frames.copies s action = true) (stepped : step p s action = some next) :
    Uncopied frames next := by
  rcases step_inside holds stepped with ⟨thread, bytes, nbl, pc, rfl, running, sending, inside⟩ | outside
  · exact uncopied_inside uncopied holds copies running sending inside
  · exact uncopied.outside outside

theorem framesSent_event {sent : Nat × Nat} (seen : (framesSent p).event s action = some sent) :
    ∃ thread tcb, s.threads thread = some (.processNbl (.submit sent.2 tcb)) ∧
      s.sends.sendingNBL = some sent.1 := by
  simp only [framesSent] at seen
  split at seen
  · split at seen
    · rename_i running sending
      rw [← Option.some.inj seen]
      exact ⟨_, _, running, sending⟩
    · cases seen
  · cases seen

theorem Uncopied.seen {sent : Nat × Nat} (uncopied : Uncopied frames s)
    (seen : (framesSent p).event s action = some sent) : frames.Unmapped sent.1 sent.2 := by
  obtain ⟨thread, tcb, running, sending⟩ := framesSent_event seen
  exact uncopied.passed thread _ sent.1 running sending sent.2 (Nat.lt_succ_self _)

theorem uncopied_start (frames : Frames p) : Uncopied frames (machine p).start where
  honest := by
    intro thread pc impossible
    cases impossible
  passed := by
    intro thread pc nbl impossible
    cases impossible
  sent := by
    intro nbl impossible
    cases impossible

theorem Uncopied.unsent {buffer : NetBuffer} (uncopied : Uncopied frames s)
    (among : buffer ∈ frames.buffers nbl)
    (mapped : mappedUpTo (buffer.dataOffset + buffer.dataLength) buffer.mdls = true) :
    nbl ∉ s.sends.succeeded := by
  intro sent
  obtain ⟨nb, within, rfl⟩ := List.getElem_of_mem among
  have fewer : nb < (p.nbls nbl).netBuffers := by
    rw [← frames.counted nbl]
    exact within
  obtain ⟨other, found, unmapped⟩ := uncopied.sent nbl sent nb fewer
  rw [List.getElem?_eq_getElem within, Option.some.injEq] at found
  rw [← found, mapped] at unmapped
  cases unmapped

theorem uncopied_run {actions : List Action} {final : State}
    (met : (machine p).Meets (fun s action => frames.copies s action = true) (machine p).start actions)
    (ran : (machine p).run (machine p).start actions = some final) :
    Invariant p final ∧ Uncopied frames final ∧
      ∀ sent ∈ (framesSent p).trace (machine p).start actions, frames.Unmapped sent.1 sent.2 := by
  apply @Observed.trace_guarded _ _ _ (framesSent p) _ _ _
    (fun s action => frames.copies s action = true)
    (fun s seen => Invariant p s ∧ Uncopied frames s ∧ ∀ sent ∈ seen, frames.Unmapped sent.1 sent.2) []
    ⟨invariant_initial p, uncopied_start frames, by simp⟩ _ met ran
  intro s action next seen known copies stepped
  refine ⟨invariant_step known.1 (step_outcome stepped),
    uncopied_step known.2.1 known.1 copies stepped, ?_⟩
  intro sent among
  rcases List.mem_append.mp among with before | now
  · exact known.2.2 sent before
  · exact known.2.1.seen (Option.mem_toList.mp now)

end Uncopied

/-- Only frames that could not be copied are ever handed to the bus: an NBL with a `NET_BUFFER` that is
    mapped is never sent, and until it is cancelled nothing that was accepted behind it is. -/
theorem only_unmapped_sent (p : Params) (frames : Frames p) (actions : List Action) (final : State)
    (met : (machine p).Meets (fun s action => frames.copies s action = true) (machine p).start actions)
    (ran : (machine p).run (machine p).start actions = some final) :
    (∀ sent ∈ (framesSent p).trace (machine p).start actions, frames.Unmapped sent.1 sent.2) ∧
      ∀ nbl, (∃ buffer ∈ frames.buffers nbl,
          mappedUpTo (buffer.dataOffset + buffer.dataLength) buffer.mdls = true) →
        nbl ∉ final.sends.succeeded ∧ ∀ front back, final.sends.accepted = front ++ nbl :: back →
          nbl ∉ final.sends.cancelled → ∀ other ∈ back, other ∉ final.sends.succeeded := by
  obtain ⟨holds, uncopied, seen⟩ := uncopied_run met ran
  refine ⟨seen, ?_⟩
  rintro nbl ⟨buffer, among, mapped⟩
  have unsent := uncopied.unsent among mapped
  refine ⟨unsent, ?_⟩
  intro front back accepted kept
  exact holds.unsent_blocks accepted kept unsent

def paddedByte : NetBuffer := ⟨[⟨[1], true⟩], 0, 1⟩

theorem paddedByte_valid : paddedByte.Valid := ⟨by decide, by decide, by decide⟩

def paddedBytes : Frames solo where
  buffers := fun _ => [paddedByte]
  priority := fun _ => 0#32
  counted := fun _ => rfl
  valid := fun _ _ among => List.mem_singleton.mp among ▸ paddedByte_valid

def paddedTwice : List Action :=
  [.sendNetBufs 0 [0, 1]] ++ List.replicate 8 (.run 0 60) ++ [.sendNetBufs 1 [2]] ++
    List.replicate 8 (.run 1 60)

theorem only_unmapped_sent_padded :
    let final := ((machine solo).run (machine solo).start paddedTwice).get (by decide)
    final.sends.accepted = [0, 1, 2] ∧ final.sends.memory.queue.head = some 0 ∧
      0 ∉ final.sends.succeeded ∧ 2 ∉ final.sends.succeeded := by
  have met := @Machine.meets_of_checks _ _ (machine solo) _ paddedBytes.copies
    (fun _ _ checked => checked) (machine solo).start paddedTwice (by decide)
  have blocked := (only_unmapped_sent solo paddedBytes paddedTwice _ met
    (Option.some_get (by decide)).symm).2 0 ⟨paddedByte, List.mem_singleton_self _, by decide⟩
  refine ⟨by decide, by decide, blocked.1, ?_⟩
  exact blocked.2 [] [1, 2] (by decide) (by decide) 2 (by simp)

end Venet
