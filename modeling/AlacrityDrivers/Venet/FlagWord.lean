import AlacrityDrivers.Library.Transition
import AlacrityDrivers.Venet.Adapter

namespace Venet.FlagWord

open Transition

/-- `VENET_SET_FLAG` or `VENET_CLEAR_FLAG` on `state`. -/
inductive Update where
  | set (flag : BitVec 32)
  | clear (flag : BitVec 32)
deriving DecidableEq, Repr

def Update.apply (state : BitVec 32) : Update → BitVec 32
  | .set flag => venetSetFlag state flag
  | .clear flag => venetClearFlag state flag

/-- What a thread is about to do next: in `VenetSetSyncFlag`, in a `VENET_CLEAR_FLAG`, or in code of the
    send path that runs under `sendLock`. A write knows the word read before. `retakeSend` is the head
    of the loop of `SrProcessQueue` behind a successful `SrProcessNBL`: `sendLock` is still held. -/
inductive Place where
  | idle
  | recvLock (flag : BitVec 32)
  | sendLock (flag : BitVec 32)
  | read (update : Update)
  | write (update : Update) (seen : BitVec 32)
  | dropSend
  | dropRecv
  | takeSend
  | sending
  | retakeSend
deriving DecidableEq, Repr

structure State (n : Nat) where
  word : BitVec 32
  recvLock : Option (Fin n)
  sendLock : Option (Fin n)
  threads : Fin n → Place
  written : List Update

inductive Action (n : Nat) where
  | setSync (thread : Fin n) (flag : BitVec 32)
  | clear (thread : Fin n) (flag : BitVec 32)
  | send (thread : Fin n)
  | again (thread : Fin n)
  | advance (thread : Fin n)

variable {n : Nat}

def State.goto (s : State n) (thread : Fin n) (place : Place) : State n :=
  { s with threads := Function.update s.threads thread place }

def afterWrite : Update → Place
  | .set _ => .dropSend
  | .clear _ => .idle

def advance (s : State n) (thread : Fin n) : Option (State n) :=
  match s.threads thread with
  | .idle => none
  | .recvLock flag =>
    if s.recvLock = none then some { s.goto thread (.sendLock flag) with recvLock := some thread }
    else none
  | .sendLock flag =>
    if s.sendLock = none then some { s.goto thread (.read (.set flag)) with sendLock := some thread }
    else none
  | .read update => some (s.goto thread (.write update s.word))
  | .write update seen =>
    some { s.goto thread (afterWrite update) with
      word := update.apply seen
      written := s.written ++ [update] }
  | .dropSend => some { s.goto thread .dropRecv with sendLock := none }
  | .dropRecv => some { s.goto thread .idle with recvLock := none }
  | .takeSend =>
    if s.sendLock = none then some { s.goto thread .sending with sendLock := some thread } else none
  | .sending => some { s.goto thread .idle with sendLock := none }
  | .retakeSend =>
    if s.sendLock = none then some { s.goto thread .sending with sendLock := some thread } else none

def step (s : State n) : Action n → Option (State n)
  | .setSync thread flag =>
    if s.threads thread = .idle then some (s.goto thread (.recvLock flag)) else none
  | .clear thread flag =>
    if s.threads thread = .idle then some (s.goto thread (.read (.clear flag))) else none
  | .send thread => if s.threads thread = .idle then some (s.goto thread .takeSend) else none
  | .again thread => if s.threads thread = .sending then some (s.goto thread .retakeSend) else none
  | .advance thread => advance s thread

def machine (n : Nat) (word : BitVec 32) : Machine (State n) (Action n) where
  start := ⟨word, none, none, fun _ => .idle, []⟩
  step := step

def Sequential (word : BitVec 32) (s : State n) : Prop :=
  s.word = s.written.foldl Update.apply word

def fresh (s : State n) : Action n → Bool
  | .advance thread =>
    match s.threads thread with
    | .write update seen => update.apply seen == update.apply s.word
    | _ => true
  | _ => true

inductive Advances (s : State n) (thread : Fin n) : State n → Prop
  | recvLock {flag : BitVec 32} : s.threads thread = .recvLock flag → s.recvLock = none →
      Advances s thread { s.goto thread (.sendLock flag) with recvLock := some thread }
  | sendLock {flag : BitVec 32} : s.threads thread = .sendLock flag → s.sendLock = none →
      Advances s thread { s.goto thread (.read (.set flag)) with sendLock := some thread }
  | read {update : Update} : s.threads thread = .read update →
      Advances s thread (s.goto thread (.write update s.word))
  | write {update : Update} {seen : BitVec 32} : s.threads thread = .write update seen →
      Advances s thread { s.goto thread (afterWrite update) with
        word := update.apply seen
        written := s.written ++ [update] }
  | dropSend : s.threads thread = .dropSend →
      Advances s thread { s.goto thread .dropRecv with sendLock := none }
  | dropRecv : s.threads thread = .dropRecv →
      Advances s thread { s.goto thread .idle with recvLock := none }
  | takeSend : s.threads thread = .takeSend → s.sendLock = none →
      Advances s thread { s.goto thread .sending with sendLock := some thread }
  | sending : s.threads thread = .sending →
      Advances s thread { s.goto thread .idle with sendLock := none }
  | retakeSend : s.threads thread = .retakeSend → s.sendLock = none →
      Advances s thread { s.goto thread .sending with sendLock := some thread }

theorem advances_of_step {s next : State n} {thread : Fin n}
    (stepped : step s (.advance thread) = some next) : Advances s thread next := by
  simp only [step, advance] at stepped
  split at stepped
  · cases stepped
  · rename_i standing
    rw [Option.ite_none_right_eq_some, Option.some.injEq] at stepped
    exact stepped.2 ▸ .recvLock standing stepped.1
  · rename_i standing
    rw [Option.ite_none_right_eq_some, Option.some.injEq] at stepped
    exact stepped.2 ▸ .sendLock standing stepped.1
  · rename_i standing
    rw [Option.some.injEq] at stepped
    exact stepped ▸ .read standing
  · rename_i standing
    rw [Option.some.injEq] at stepped
    exact stepped ▸ .write standing
  · rename_i standing
    rw [Option.some.injEq] at stepped
    exact stepped ▸ .dropSend standing
  · rename_i standing
    rw [Option.some.injEq] at stepped
    exact stepped ▸ .dropRecv standing
  · rename_i standing
    rw [Option.ite_none_right_eq_some, Option.some.injEq] at stepped
    exact stepped.2 ▸ .takeSend standing stepped.1
  · rename_i standing
    rw [Option.some.injEq] at stepped
    exact stepped ▸ .sending standing
  · rename_i standing
    rw [Option.ite_none_right_eq_some, Option.some.injEq] at stepped
    exact stepped.2 ▸ .retakeSend standing stepped.1

def Action.turns : Action n → Option (Fin n × Place × Place)
  | .setSync thread flag => some (thread, .idle, .recvLock flag)
  | .clear thread flag => some (thread, .idle, .read (.clear flag))
  | .send thread => some (thread, .idle, .takeSend)
  | .again thread => some (thread, .sending, .retakeSend)
  | .advance _ => none

theorem turns_of_step {s next : State n} {action : Action n} {thread : Fin n} {old new : Place}
    (turns : action.turns = some (thread, old, new)) (stepped : step s action = some next) :
    s.threads thread = old ∧ next = s.goto thread new := by
  cases action with
  | advance thread => cases turns
  | _ =>
    cases turns
    simp only [step, Option.ite_none_right_eq_some, Option.some.injEq] at stepped
    exact ⟨stepped.1, stepped.2.symm⟩

section Sequential

variable {s next : State n} {action : Action n} {thread : Fin n} {word : BitVec 32}

theorem sequential_step (sequential : Sequential word s) (written : fresh s action = true)
    (stepped : step s action = some next) : Sequential word next := by
  cases action with
  | advance thread =>
    cases advances_of_step stepped with
    | write standing =>
      simp only [fresh, standing, beq_iff_eq] at written
      rw [Sequential, List.foldl_append, ← sequential]
      exact written
    | _ => exact sequential
  | _ =>
    obtain ⟨_, rfl⟩ := turns_of_step rfl stepped
    exact sequential

end Sequential

def Place.holdsRecv : Place → Bool
  | .sendLock _ => true
  | .read (.set _) => true
  | .write (.set _) _ => true
  | .dropSend => true
  | .dropRecv => true
  | _ => false

def Place.holdsSend : Place → Bool
  | .read (.set _) => true
  | .write (.set _) _ => true
  | .dropSend => true
  | .sending => true
  | .retakeSend => true
  | _ => false

def Owned (holds : Place → Bool) (owner : Option (Fin n)) (threads : Fin n → Place) : Prop :=
  ∀ thread, holds (threads thread) = true ↔ owner = some thread

section Locks

variable {holds : Place → Bool} {owner : Option (Fin n)} {threads : Fin n → Place} {thread : Fin n}
  {place : Place}

theorem Owned.keep (owned : Owned holds owner threads)
    (same : holds place = holds (threads thread)) :
    Owned holds owner (Function.update threads thread place) := by
  intro other
  by_cases moved : other = thread
  · rw [moved, Function.update_self, same]
    exact owned thread
  · rw [Function.update_of_ne moved]
    exact owned other

theorem Owned.take (owned : Owned holds none threads) (there : holds place = true) :
    Owned holds (some thread) (Function.update threads thread place) := by
  intro other
  by_cases moved : other = thread
  · rw [moved, Function.update_self]
    exact iff_of_true there rfl
  · rw [Function.update_of_ne moved]
    refine iff_of_false ?_ fun same => moved (Option.some.inj same).symm
    intro claimed
    cases (owned other).mp claimed

theorem Owned.drop (owned : Owned holds owner threads) (here : holds (threads thread) = true)
    (there : holds place = false) : Owned holds none (Function.update threads thread place) := by
  intro other
  by_cases moved : other = thread
  · rw [moved, Function.update_self, there]
    exact iff_of_false Bool.false_ne_true (fun impossible => nomatch impossible)
  · rw [Function.update_of_ne moved]
    refine iff_of_false ?_ fun impossible => nomatch impossible
    intro claimed
    have both := ((owned other).mp claimed).symm.trans ((owned thread).mp here)
    exact moved (Option.some.inj both)

end Locks

structure Locked (s : State n) : Prop where
  recv : Owned Place.holdsRecv s.recvLock s.threads
  send : Owned Place.holdsSend s.sendLock s.threads

section Step

variable {s next : State n} {action : Action n} {thread : Fin n} {word : BitVec 32}

theorem locked_start : Locked (machine n word).start := by
  refine ⟨?_, ?_⟩
  · intro thread
    exact iff_of_false Bool.false_ne_true (fun impossible => nomatch impossible)
  · intro thread
    exact iff_of_false Bool.false_ne_true (fun impossible => nomatch impossible)

theorem locked_advance (locked : Locked s) (advances : Advances s thread next) : Locked next := by
  cases advances with
  | recvLock standing free =>
    have recv := locked.recv
    rw [free] at recv
    exact ⟨recv.take rfl, locked.send.keep (by rw [standing]; rfl)⟩
  | sendLock standing free =>
    have send := locked.send
    rw [free] at send
    exact ⟨locked.recv.keep (by rw [standing]; rfl), send.take rfl⟩
  | read standing =>
    rename_i update
    refine ⟨locked.recv.keep ?_, locked.send.keep ?_⟩
    · rw [standing]
      cases update <;> rfl
    · rw [standing]
      cases update <;> rfl
  | write standing =>
    rename_i update seen
    refine ⟨locked.recv.keep ?_, locked.send.keep ?_⟩
    · rw [standing]
      cases update <;> rfl
    · rw [standing]
      cases update <;> rfl
  | dropSend standing =>
    exact ⟨locked.recv.keep (by rw [standing]; rfl), locked.send.drop (by rw [standing]; rfl) rfl⟩
  | dropRecv standing =>
    exact ⟨locked.recv.drop (by rw [standing]; rfl) rfl, locked.send.keep (by rw [standing]; rfl)⟩
  | takeSend standing free =>
    have send := locked.send
    rw [free] at send
    exact ⟨locked.recv.keep (by rw [standing]; rfl), send.take rfl⟩
  | sending standing =>
    exact ⟨locked.recv.keep (by rw [standing]; rfl), locked.send.drop (by rw [standing]; rfl) rfl⟩
  | retakeSend standing free =>
    have own := (locked.send thread).mp (by rw [standing]; rfl)
    rw [free] at own
    cases own

theorem locked_step (locked : Locked s) (stepped : step s action = some next) : Locked next := by
  cases action with
  | advance thread => exact locked_advance locked (advances_of_step stepped)
  | _ =>
    obtain ⟨standing, rfl⟩ := turns_of_step rfl stepped
    exact ⟨locked.recv.keep (by rw [standing]; rfl), locked.send.keep (by rw [standing]; rfl)⟩

theorem locked_reachable (reached : (machine n word).Reachable s) : Locked s :=
  reached.invariant locked_start fun _ _ _ locked stepped => locked_step locked stepped

end Step

def Place.ready (recvFree sendFree : Bool) : Place → Bool
  | .idle => false
  | .recvLock _ => recvFree
  | .sendLock _ => sendFree
  | .takeSend => sendFree
  | .retakeSend => sendFree
  | _ => true

theorem advance_ready (s : State n) (thread : Fin n) :
    (advance s thread).isSome =
      (s.threads thread).ready s.recvLock.isNone s.sendLock.isNone := by
  unfold advance
  split
  case h_2 standing =>
    rw [standing]
    cases s.recvLock <;> rfl
  case h_3 standing =>
    rw [standing]
    cases s.sendLock <;> rfl
  case h_8 standing =>
    rw [standing]
    cases s.sendLock <;> rfl
  case h_10 standing =>
    rw [standing]
    cases s.sendLock <;> rfl
  all_goals
    rename_i standing
    rw [standing]
    rfl

section Progress

variable {place : Place}

theorem ready_of_holdsSend (recvFree sendFree : Bool) (holds : place.holdsSend = true)
    (other : place ≠ .retakeSend) : place.ready recvFree sendFree = true ∧ place ≠ .idle := by
  cases place <;> first | exact ⟨rfl, nofun⟩ | exact absurd rfl other | cases holds

theorem ready_of_holdsRecv (recvFree : Bool) (holds : place.holdsRecv = true) :
    place.ready recvFree true = true ∧ place ≠ .idle := by
  cases place <;> first | exact ⟨rfl, nofun⟩ | cases holds

theorem ready_of_free (busy : place ≠ .idle) : place.ready true true = true := by
  cases place <;> first | exact absurd rfl busy | rfl

end Progress

section Deadlock

variable {s next : State n} {action : Action n} {thread sender : Fin n} {word : BitVec 32}

/-- `recvLock` is taken before `sendLock`, and never behind it. -/
theorem somebody_ready (locked : Locked s) (apart : ∀ other, s.threads other ≠ .retakeSend)
    (busy : s.threads thread ≠ .idle) :
    ∃ other, s.threads other ≠ .idle ∧ (advance s other).isSome := by
  simp only [advance_ready]
  rcases send : s.sendLock with _ | sender
  · rcases recv : s.recvLock with _ | receiver
    · exact ⟨thread, busy, ready_of_free busy⟩
    · have ready := ready_of_holdsRecv false ((locked.recv receiver).mpr recv)
      exact ⟨receiver, ready.2, ready.1⟩
  · have ready := ready_of_holdsSend s.recvLock.isNone false ((locked.send sender).mpr send)
      (apart sender)
    exact ⟨sender, ready.2, ready.1⟩

theorem retaking_step (locked : Locked s) (retaking : s.threads sender = .retakeSend)
    (stepped : step s action = some next) : next.threads sender = .retakeSend := by
  have kept (thread : Fin n) (place : Place) (other : s.threads thread ≠ .retakeSend) :
      Function.update s.threads thread place sender = .retakeSend := by
    rw [Function.update_of_ne]
    · exact retaking
    · rintro rfl
      exact other retaking
  cases action with
  | advance thread =>
    cases advances_of_step stepped with
    | retakeSend standing free =>
      have own := (locked.send thread).mp (by rw [standing]; rfl)
      rw [free] at own
      cases own
    | recvLock standing _ => exact kept thread _ (by rw [standing]; exact nofun)
    | sendLock standing _ => exact kept thread _ (by rw [standing]; exact nofun)
    | takeSend standing _ => exact kept thread _ (by rw [standing]; exact nofun)
    | read standing => exact kept thread _ (by rw [standing]; exact nofun)
    | write standing => exact kept thread _ (by rw [standing]; exact nofun)
    | dropSend standing => exact kept thread _ (by rw [standing]; exact nofun)
    | dropRecv standing => exact kept thread _ (by rw [standing]; exact nofun)
    | sending standing => exact kept thread _ (by rw [standing]; exact nofun)
  | _ =>
    obtain ⟨standing, rfl⟩ := turns_of_step rfl stepped
    exact kept _ _ (by rw [standing]; exact nofun)

theorem retaking_run {actions : List (Action n)} {final : State n} (locked : Locked s)
    (retaking : s.threads sender = .retakeSend)
    (ran : (machine n word).run s actions = some final) :
    Locked final ∧ final.threads sender = .retakeSend := by
  induction actions generalizing s with
  | nil =>
    simp only [Machine.run, Option.some.injEq] at ran
    rw [← ran]
    exact ⟨locked, retaking⟩
  | cons action rest ih =>
    simp only [Machine.run, Option.bind_eq_some_iff] at ran
    obtain ⟨next, stepped, ran⟩ := ran
    exact ih (locked_step locked stepped) (retaking_step locked retaking stepped) ran

end Deadlock

/-- No threads wait for each other, only one for itself: where no thread takes the `sendLock` it holds
    some thread can go on, and one that does keeps the lock for ever. -/
theorem only_own_lock_deadlocks (word : BitVec 32) (s : State n)
    (reached : (machine n word).Reachable s) :
    ((∀ thread, s.threads thread ≠ .retakeSend) → ∀ thread, s.threads thread ≠ .idle →
        ∃ other, s.threads other ≠ .idle ∧ ((machine n word).step s (.advance other)).isSome) ∧
      ∀ sender, s.threads sender = .retakeSend → ∀ actions final,
        (machine n word).run s actions = some final →
          final.threads sender = .retakeSend ∧ final.sendLock = some sender := by
  have locked := locked_reachable reached
  refine ⟨fun apart thread busy => somebody_ready locked apart busy, ?_⟩
  intro sender retaking actions final ran
  obtain ⟨still, standing⟩ := retaking_run locked retaking ran
  refine ⟨standing, (still.send sender).mp ?_⟩
  rw [standing]
  rfl

/-- A pause waits for the sender, which then comes back to its lock. -/
theorem only_own_lock_deadlocks_sender :
    (∃ other : Fin 2, ∃ s : State 2, s.threads other ≠ .idle ∧
      ((machine 2 0#32).step s (.advance other)).isSome) ∧
    (∃ s : State 2, s.threads 1 = .sendLock vnetAdapterPaused ∧ s.sendLock = some 0) := by
  have waiting := Machine.reachable_get (m := machine 2 0#32)
    [.send 0, .advance 0, .setSync 1 vnetAdapterPaused, .advance 1] (by decide)
  have stuck := Machine.reachable_get (m := machine 2 0#32)
    [.send 0, .advance 0, .again 0] (by decide)
  obtain ⟨other, busy, ready⟩ :=
    (only_own_lock_deadlocks 0#32 _ waiting).1 (by decide) 1 (by decide)
  have held := (only_own_lock_deadlocks 0#32 _ stuck).2 0 (by decide)
    [.setSync 1 vnetAdapterPaused, .advance 1] _ (Option.some_get (by decide)).symm
  exact ⟨⟨other, _, busy, ready⟩, _, by decide, held.2⟩

def Place.midway : Place → Bool
  | .write _ _ => true
  | _ => false

def Place.clearing : Place → Bool
  | .write (.clear _) _ => true
  | _ => false

/-- No clear begins between the accesses of another update, and no update begins between those of
    a clear. -/
def alone (s : State n) : Action n → Bool
  | .advance thread =>
    match s.threads thread with
    | .read (.set _) => decide (∀ other, (s.threads other).clearing = false)
    | .read (.clear _) => decide (∀ other, (s.threads other).midway = false)
    | _ => true
  | _ => true

structure Exclusive (word : BitVec 32) (s : State n) : Prop where
  locked : Locked s
  sequential : Sequential word s
  single : ∀ first second, (s.threads first).midway = true → (s.threads second).midway = true →
    first = second
  seen : ∀ thread update seen, s.threads thread = .write update seen → seen = s.word

section Alone

variable {s next : State n} {action : Action n} {thread : Fin n} {word : BitVec 32} {place : Place}

theorem exclusive_fresh (exclusive : Exclusive word s) (action : Action n) :
    fresh s action = true := by
  cases action with
  | advance thread =>
    simp only [fresh]
    split
    · rename_i update seen standing
      rw [exclusive.seen thread update seen standing, beq_iff_eq]
    · rfl
  | _ => rfl

theorem single_elsewhere
    (single : ∀ first second, (s.threads first).midway = true → (s.threads second).midway = true →
      first = second) (there : place.midway = false) :
    ∀ first second, (Function.update s.threads thread place first).midway = true →
      (Function.update s.threads thread place second).midway = true → first = second := by
  have among (other : Fin n) (between : (Function.update s.threads thread place other).midway = true) :
      (s.threads other).midway = true := by
    by_cases moved : other = thread
    · rw [moved, Function.update_self, there] at between
      cases between
    · rw [Function.update_of_ne moved] at between
      exact between
  intro first second between also
  exact single first second (among first between) (among second also)

theorem seen_elsewhere
    (seen : ∀ thread update seen, s.threads thread = .write update seen → seen = s.word)
    (there : place.midway = false) :
    ∀ other update value, Function.update s.threads thread place other = .write update value →
      value = s.word := by
  intro other update value between
  by_cases moved : other = thread
  · rw [moved, Function.update_self] at between
    rw [between] at there
    cases there
  · rw [Function.update_of_ne moved] at between
    exact seen other update value between

/-- Two sets are never midway together, since both would hold `sendLock`. -/
theorem alone_single (exclusive : Exclusive word s) {update : Update}
    (standing : s.threads thread = .read update) (guarded : alone s (.advance thread) = true)
    (other : Fin n) : (s.threads other).midway = false := by
  cases update with
  | clear flag =>
    simp only [alone, standing, decide_eq_true_eq] at guarded
    exact guarded other
  | set flag =>
    simp only [alone, standing, decide_eq_true_eq] at guarded
    have mine := (exclusive.locked.send thread).mp (by rw [standing]; rfl)
    cases at_place : s.threads other with
    | write update seen =>
      cases update with
      | clear flag =>
        have clear := guarded other
        rw [at_place] at clear
        cases clear
      | set flag =>
        have theirs := (exclusive.locked.send other).mp (by rw [at_place]; rfl)
        rw [Option.some.inj (theirs.symm.trans mine), standing] at at_place
        cases at_place
    | _ => rfl

theorem exclusive_step (exclusive : Exclusive word s) (guarded : alone s action = true)
    (stepped : step s action = some next) : Exclusive word next := by
  have locked := locked_step exclusive.locked stepped
  have sequential := sequential_step exclusive.sequential (exclusive_fresh exclusive action) stepped
  cases action with
  | advance thread =>
    cases advances_of_step stepped with
    | read standing =>
      rename_i update
      have nobody := alone_single exclusive standing guarded
      refine ⟨locked, sequential, ?_, ?_⟩
      · have mover (other : Fin n)
            (between : (Function.update s.threads thread (.write update s.word) other).midway = true) :
            other = thread := by
          by_contra moved
          rw [Function.update_of_ne moved, nobody other] at between
          cases between
        intro first second between also
        exact (mover first between).trans (mover second also).symm
      · intro other update' value between
        by_cases moved : other = thread
        · simp only [State.goto, moved, Function.update_self, Place.write.injEq] at between
          exact between.2.symm
        · simp only [State.goto, Function.update_of_ne moved] at between
          exact exclusive.seen other update' value between
    | write standing =>
      rename_i update seen
      have there : (afterWrite update).midway = false := by
        cases update <;> rfl
      refine ⟨locked, sequential, single_elsewhere exclusive.single there, ?_⟩
      intro other update' value between
      by_cases moved : other = thread
      · simp only [State.goto, moved, Function.update_self] at between
        rw [between] at there
        cases there
      · simp only [State.goto, Function.update_of_ne moved] at between
        have same := exclusive.single other thread (by rw [between]; rfl) (by rw [standing]; rfl)
        exact absurd same moved
    | _ =>
      exact ⟨locked, sequential, single_elsewhere exclusive.single rfl,
        seen_elsewhere exclusive.seen rfl⟩
  | _ =>
    obtain ⟨_, rfl⟩ := turns_of_step rfl stepped
    exact ⟨locked, sequential, single_elsewhere exclusive.single rfl,
      seen_elsewhere exclusive.seen rfl⟩

end Alone

/-- The locks keep the calls of `VenetSetSyncFlag` apart, so a flag is lost only to a
    `VENET_CLEAR_FLAG` that meets another update. -/
theorem flags_kept_alone (word : BitVec 32) (actions : List (Action n))
    (met : (machine n word).Meets ((machine n word).OnSteps fun s action => alone s action = true)
      (machine n word).start actions) :
    (machine n word).Throughout (Sequential word) (machine n word).start actions := by
  have initial : Exclusive word (machine n word).start :=
    ⟨locked_start, rfl, nofun, nofun⟩
  exact @Machine.throughout_of_meets _ _ _ _ _ (Exclusive word)
    (fun _ exclusive => exclusive.sequential)
    (fun _ _ _ exclusive guarded stepped => exclusive_step exclusive guarded stepped) _ initial _ met

def removalInReset : List (Action 2) :=
  [.clear 0 vnetAdapterReset, .advance 0] ++ .setSync 1 vnetAdapterSurpriseRemoved ::
    List.replicate 6 (.advance 1) ++ [.advance 0]

example : ((machine 2 vnetAdapterReset).run (machine 2 vnetAdapterReset).start removalInReset).map
    (fun s => (s.word, s.written)) =
      some (0#32, [.set vnetAdapterSurpriseRemoved, .clear vnetAdapterReset]) := by
  decide

def removalAfterReset : List (Action 2) :=
  [.setSync 0 vnetAdapterPaused, .setSync 1 vnetAdapterSurpriseRemoved] ++
    List.replicate 6 (.advance 0) ++ [.clear 0 vnetAdapterReset, .advance 0, .advance 0] ++
    List.replicate 6 (.advance 1)

theorem flags_kept_alone_removal :
    (machine 2 vnetAdapterReset).Throughout (Sequential vnetAdapterReset)
      (machine 2 vnetAdapterReset).start removalAfterReset :=
  flags_kept_alone vnetAdapterReset removalAfterReset
    (@Machine.meets_of_checks _ _ _ _ alone (fun _ _ checked _ _ => checked) _ _ (by decide))

end Venet.FlagWord
