import AlacrityDrivers.Venet.ControlStep
import AlacrityDrivers.Venet.FlagWord

namespace Venet.Availability

open Transition
open FlagWord (Update)

/-- A call of `VenetSendNetBufs` up to `SrProcessQueue`, and whether the adapter was unavailable. -/
structure SendCall where
  unavailable : Bool
  thread : Nat
  chain : List Nat
  before : State
  after : State

/-- The call returned at once, with every NBL completed as failed and nothing else changed. -/
structure SendCall.Refused (call : SendCall) : Prop where
  completed : ∃ status, status ≠ .success ∧
    call.after.sends.completed =
      call.before.sends.completed ++ call.chain.map fun nbl => (nbl, status)
  sendQueue : call.after.sends.memory = call.before.sends.memory
  tcbs : call.after.tx = call.before.tx
  returned : call.after.threads call.thread = none

/-- Whether `VenetPause` has set its flag since the last call of `VenetRestart`, and whether a
    `VenetRestart` called before that has cleared the flag again. -/
inductive PauseRecord where
  | restarted
  | paused
  | overtaken
deriving DecidableEq, Repr

/-- Who updates the flags: a thread in `VenetReset`, `VenetPause` or `VenetRestart`, or a call that the
    machine of the send path has no thread for. -/
inductive Updater where
  | thread (thread : Nat)
  | halt
  | shutdown
  | surpriseRemoval
deriving DecidableEq, Repr

/-- An adapter whose flags are read and written by separate accesses: `seen` is what an updater has
    read and not yet written, and `setting` is the one inside `VenetSetSyncFlag` with its locks. `lost`
    has the flags that a write took out although it was to leave them alone. The rest is the record of
    the shutdown, the surprise removal, the pauses and the sends. -/
structure Lifecycle where
  adapter : State
  seen : Updater → Option (BitVec 32)
  setting : Option Updater
  lost : BitVec 32
  shutdown : Bool
  removed : Bool
  pause : PauseRecord
  calls : List SendCall

/-- `read` is the read of `state` in an update that is due, behind the locks in `VenetSetSyncFlag`; the
    step of the update itself is its write. -/
inductive LifecycleAction where
  | read (updater : Updater)
  | adapter (action : Action)
  | shutdown
  | devicePnPEvent (surpriseRemoved : Bool)

def updateAt : Pc → Option Update
  | .resetFlag => some (.set vnetAdapterReset)
  | .resetDone => some (.clear vnetAdapterReset)
  | .pauseFlag => some (.set vnetAdapterPaused)
  | .restartFlag => some (.clear vnetAdapterPaused)
  | _ => none

def due (s : State) : Updater → Option Update
  | .thread thread => (s.threads thread).bind updateAt
  | .halt => if s.halt = .notCalled then some (.set vnetAdapterHaltInProgress) else none
  | .shutdown => some (.set vnetAdapterShutdown)
  | .surpriseRemoval => some (.set vnetAdapterSurpriseRemoved)

def updater : Action → Option Updater
  | .run thread _ => some (.thread thread)
  | .halt => some .halt
  | _ => none

def writes (s : State) (action : Action) : Option (Updater × Update) :=
  (updater action).bind fun updater => (due s updater).map fun update => (updater, update)

def takesSendLock (s : State) : Action → Bool
  | .sendNetBufs _ _ => true
  | .cancelSend _ => true
  | .run thread _ =>
    match s.threads thread with
    | some .processQueue => true
    | some (.processNbl (.finish _)) => true
    | some .resetQueued => true
    | _ => false
  | .halt => decide (s.halt = .flagged)
  | _ => false

def Lifecycle.unavailable (l : Lifecycle) : Bool :=
  l.adapter.halt != .notCalled || l.shutdown || l.removed || l.pause != .restarted

def pauseAfter (l : Lifecycle) : Action → PauseRecord
  | .restart _ => .restarted
  | .run thread _ =>
    match l.adapter.threads thread with
    | some .pauseFlag => .paused
    | some .restartFlag => if l.pause = .restarted then .restarted else .overtaken
    | _ => l.pause
  | _ => l.pause

def callsAfter (l : Lifecycle) (next : State) : Action → List SendCall
  | .sendNetBufs thread chain => l.calls ++ [⟨l.unavailable, thread, chain, l.adapter, next⟩]
  | _ => l.calls

def readState (l : Lifecycle) (updater : Updater) : Option Lifecycle :=
  if l.seen updater ≠ none then none
  else
    let seen := Function.update l.seen updater (some l.adapter.flags)
    match due l.adapter updater with
    | none => none
    | some (.clear _) => some { l with seen := seen }
    | some (.set _) =>
      if l.adapter.sendLock = none ∧ l.setting = none then
        some { l with seen := seen, setting := some updater }
      else none

def cleared : Update → BitVec 32
  | .set _ => 0#32
  | .clear flag => flag

/-- The write of an update to the flags of an adapter, with the word that was read for it. -/
def Lifecycle.writeState (l : Lifecycle) (updater : Updater) (update : Update) (word : BitVec 32)
    (next : State) : Lifecycle :=
  { l with
    adapter := { next with flags := update.apply word }
    seen := Function.update l.seen updater none
    setting := if l.setting = some updater then none else l.setting
    lost := (l.lost ||| l.adapter.flags) &&& ~~~update.apply word &&& ~~~cleared update }

def adapterStep (p : Params) (l : Lifecycle) (action : Action) : Option Lifecycle :=
  match writes l.adapter action with
  | some (updater, update) =>
    (l.seen updater).bind fun word =>
      (step p l.adapter action).map (l.writeState updater update word)
  | none =>
    if takesSendLock l.adapter action ∧ l.setting ≠ none then none
    else (step p l.adapter action).map fun next => { l with adapter := next }

/-- `VenetShutdown` up to its wait, which changes nothing. -/
def venetShutdown (l : Lifecycle) : Option Lifecycle :=
  (l.seen .shutdown).map fun word =>
    { l.writeState .shutdown (.set vnetAdapterShutdown) word l.adapter with shutdown := true }

def venetDevicePnPEvent (l : Lifecycle) (surpriseRemoved : Bool) : Option Lifecycle :=
  if surpriseRemoved then
    (l.seen .surpriseRemoval).map fun word =>
      { l.writeState .surpriseRemoval (.set vnetAdapterSurpriseRemoved) word l.adapter with
        removed := true }
  else some l

def lifecycleStep (p : Params) (l : Lifecycle) (action : LifecycleAction) : Option Lifecycle :=
  if l.adapter.halt = .returned then none
  else match action with
    | .read updater => readState l updater
    | .adapter action =>
      (adapterStep p l action).map fun next =>
        { next with
          pause := pauseAfter l action
          calls := callsAfter l next.adapter action }
    | .shutdown => venetShutdown l
    | .devicePnPEvent surpriseRemoved => venetDevicePnPEvent l surpriseRemoved

def lifecycle (p : Params) : Machine Lifecycle LifecycleAction where
  start := ⟨(machine p).start, fun _ => none, none, 0#32, false, false, .restarted, []⟩
  step := lifecycleStep p

def RefusesWhileUnavailable (l : Lifecycle) : Prop :=
  ∀ call ∈ l.calls, call.unavailable = true → call.Refused

/-- A halt, a shutdown or a pause whose flag no write has lost since. -/
def Lifecycle.covered (l : Lifecycle) : Bool :=
  l.adapter.halt != .notCalled && !venetTestFlag l.lost vnetAdapterHaltInProgress ||
    l.shutdown && !venetTestFlag l.lost vnetAdapterShutdown ||
    l.pause == .paused && !venetTestFlag l.lost vnetAdapterPaused

/-- A call of `VenetSendNetBufs` while the adapter is unavailable finds a halt, a shutdown or a pause
    whose flag was not lost, or else the flag of a reset or of a pause. -/
def marked (l : Lifecycle) : LifecycleAction → Bool
  | .adapter (.sendNetBufs _ _) =>
    !l.unavailable || l.covered || venetTestFlag l.adapter.flags vnetAdapterReset ||
      venetTestFlag l.adapter.flags vnetAdapterPaused
  | _ => true

section Flags

variable {state flag other : BitVec 32}

theorem testFlag_or (state flag other : BitVec 32) :
    venetTestFlag state (flag ||| other) = (venetTestFlag state flag || venetTestFlag state other) := by
  rw [Bool.eq_iff_iff, Bool.or_eq_true, testFlag_iff, testFlag_iff, testFlag_iff,
    BitVec.and_or_distrib_left, Ne, BitVec.or_eq_zero_iff, not_and_or]

theorem testFlag_setApart (apart : other &&& flag = 0#32) :
    venetTestFlag (venetSetFlag state other) flag = venetTestFlag state flag := by
  rw [venetTestFlag, venetTestFlag, venetSetFlag, BitVec.and_or_distrib_right, apart, BitVec.or_zero]

theorem testFlag_clearApart (apart : other &&& flag = 0#32) :
    venetTestFlag (venetClearFlag state other) flag = venetTestFlag state flag := by
  apply testFlag_clear
  ext i bound
  have bit := congrArg (fun flags : BitVec 32 => flags[i]) apart
  simp only [BitVec.getElem_and, BitVec.getElem_zero, Bool.and_eq_false_iff] at bit
  rw [BitVec.getElem_and, BitVec.getElem_not]
  rcases bit with clear | clear
  · rw [clear, Bool.not_false, Bool.true_and]
  · rw [clear, Bool.and_false]

def idleFlags : BitVec 32 := vnetDisconnected ||| vnetAdapterNoLink ||| vnetAdapterSuspending

theorem notReady_iff (state : BitVec 32) :
    venetIsNotReady state = (venetTestFlag state idleFlags ||
      venetTestFlag state vnetAdapterHaltInProgress || venetTestFlag state vnetAdapterShutdown ||
      venetTestFlag state vnetAdapterReset || venetTestFlag state vnetAdapterPaused) := by
  have mask : vnetIsNotReadyMask = idleFlags ||| vnetAdapterHaltInProgress ||| vnetAdapterShutdown |||
      vnetAdapterReset ||| vnetAdapterPaused := by decide
  rw [venetIsNotReady, mask, testFlag_or, testFlag_or, testFlag_or, testFlag_or]

theorem testFlag_union (state other flag : BitVec 32) :
    venetTestFlag (state ||| other) flag = (venetTestFlag state flag || venetTestFlag other flag) := by
  rw [Bool.eq_iff_iff, Bool.or_eq_true, testFlag_iff, testFlag_iff, testFlag_iff,
    BitVec.and_or_distrib_right, Ne, BitVec.or_eq_zero_iff, not_and_or]

theorem testFlag_apart (single : other &&& flag = 0#32 ∨ other &&& flag = flag)
    (apart : other &&& state = 0#32) :
    venetTestFlag state flag = (venetTestFlag (other ||| state) flag && !venetTestFlag other flag) := by
  rw [testFlag_union]
  rcases single with none | all
  · have clear : venetTestFlag other flag = false := by
      rw [venetTestFlag, none]
      rfl
    rw [clear, Bool.false_or, Bool.not_false, Bool.and_true]
  · have clear : venetTestFlag state flag = false := by
      rw [venetTestFlag, ← all, ← BitVec.and_assoc, BitVec.and_comm state, apart, BitVec.zero_and]
      rfl
    rw [clear, Bool.or_false, Bool.and_not_self]

theorem and_twoPow_cases (state : BitVec 32) (bit : Nat) :
    state &&& BitVec.twoPow 32 bit = 0#32 ∨ state &&& BitVec.twoPow 32 bit = BitVec.twoPow 32 bit := by
  rw [BitVec.and_twoPow]
  split
  · exact Or.inr rfl
  · exact Or.inl rfl

theorem srGetAdapterStatus_failure (state : BitVec 32) : srGetAdapterStatus state ≠ .success := by
  unfold srGetAdapterStatus
  repeat' split
  all_goals simp

end Flags

section Step

variable {p : Params} {s next : State} {thread bytes nbl : Nat}

def flagsAfter (flags : BitVec 32) (pc : Pc) : BitVec 32 :=
  (updateAt pc).elim flags fun update => update.apply flags

theorem processNblStep_flags {pc : NblPc} (stepped : processNblStep p s thread bytes nbl pc = some next) :
    next.flags = s.flags ∧ next.halt = s.halt := by
  cases pc with
  | alloc nb =>
    simp only [processNblStep] at stepped
    split at stepped
    · rw [← Option.some.inj stepped]
      exact ⟨rfl, rfl⟩
    · rw [← Option.some.inj stepped]
      exact ⟨rfl, rfl⟩
  | finish rc => cases stepped
  | fault => cases stepped
  | _ =>
    rw [← Option.some.inj stepped]
    exact ⟨rfl, rfl⟩

theorem threadStep_flags {pc : Pc} (stepped : threadStep p s thread bytes pc = some next) :
    next.flags = flagsAfter s.flags pc ∧ next.halt = s.halt := by
  cases pc with
  | processQueue =>
    simp only [threadStep, Option.ite_none_right_eq_some, Option.some.injEq] at stepped
    rw [← stepped.2]
    unfold processQueue
    dsimp only
    split
    · exact ⟨rfl, rfl⟩
    · exact ⟨rfl, rfl⟩
  | processNbl pc =>
    rcases processNbl_cases stepped with ⟨nbl, _, inside | ⟨rc, _, after⟩⟩
    · exact processNblStep_flags inside
    · rw [after, finishNbl]
      split
      · exact ⟨rfl, rfl⟩
      · exact ⟨rfl, rfl⟩
  | resetFlag | resetQueued | pauseFlag | pauseWait =>
    simp only [threadStep, Option.ite_none_right_eq_some, Option.some.injEq] at stepped
    rw [← stepped.2]
    exact ⟨rfl, rfl⟩
  | _ =>
    rw [← Option.some.inj stepped]
    exact ⟨rfl, rfl⟩

theorem haltStep_flags (stepped : haltStep p s = some next) :
    next.halt ≠ .notCalled ∧
      (s.halt = .notCalled ∧ next.flags = venetSetFlag s.flags vnetAdapterHaltInProgress ∨
        s.halt ≠ .notCalled ∧ next.flags = s.flags) := by
  unfold haltStep at stepped
  split at stepped
  · rename_i before
    simp only [Option.ite_none_right_eq_some, Option.some.injEq] at stepped
    rw [← stepped.2]
    exact ⟨by simp, Or.inl ⟨before, rfl⟩⟩
  · rename_i before
    simp only [Option.ite_none_right_eq_some, Option.some.injEq] at stepped
    rw [← stepped.2]
    exact ⟨by simp, Or.inr ⟨by simp [before], rfl⟩⟩
  · rename_i before
    rw [← Option.some.inj stepped]
    exact ⟨by simp, Or.inr ⟨by simp [before], rfl⟩⟩
  · cases stepped

theorem step_flags {action : Action} (stepped : step p s action = some next) :
    next.flags = (writes s action).elim s.flags (fun written => written.2.apply s.flags) ∧
      (action ≠ .halt → next.halt = s.halt) ∧ (action = .halt → next.halt ≠ .notCalled) := by
  simp only [step, Option.ite_none_left_eq_some] at stepped
  obtain ⟨_, stepped⟩ := stepped
  cases action with
  | run thread bytes =>
    simp only [Option.bind_eq_some_iff] at stepped
    obtain ⟨pc, running, stepped⟩ := stepped
    obtain ⟨flags, halt⟩ := threadStep_flags stepped
    refine ⟨?_, fun _ => halt, fun impossible => Action.noConfusion impossible⟩
    simp only [writes, updater, Option.bind_some, due, running]
    rw [flags, flagsAfter]
    cases updateAt pc <;> rfl
  | halt =>
    obtain ⟨called, first⟩ := haltStep_flags stepped
    refine ⟨?_, fun other => absurd rfl other, fun _ => called⟩
    rcases first with ⟨before, flags⟩ | ⟨later, flags⟩
    · rw [flags, writes, updater, Option.bind_some, due, if_pos before]
      rfl
    · rw [flags, writes, updater, Option.bind_some, due, if_neg later]
      rfl
  | sendNetBufs thread chain =>
    simp only [Option.ite_none_right_eq_some, Option.some.injEq] at stepped
    rw [← stepped.2, venetSendNetBufs]
    split
    · exact ⟨rfl, fun _ => rfl, fun impossible => Action.noConfusion impossible⟩
    · exact ⟨rfl, fun _ => rfl, fun impossible => Action.noConfusion impossible⟩
  | txCompletion tcb =>
    simp only [Option.ite_none_right_eq_some, Option.some.injEq] at stepped
    rw [← stepped.2]
    refine ⟨?_, fun _ => ?_, fun impossible => Action.noConfusion impossible⟩
    · change (venetTxCompletion s tcb).flags = s.flags
      simp only [venetTxCompletion]
    · simp only [venetTxCompletion]
  | _ =>
    simp only [Option.ite_none_right_eq_some, Option.some.injEq] at stepped
    rw [← stepped.2]
    exact ⟨rfl, fun _ => rfl, fun impossible => Action.noConfusion impossible⟩

theorem adapterStep_cases {l after : Lifecycle} {action : Action}
    (stepped : adapterStep p l action = some after) :
    (∃ updater update word next, writes l.adapter action = some (updater, update) ∧
        l.seen updater = some word ∧ step p l.adapter action = some next ∧
        after = l.writeState updater update word next) ∨
      ∃ next, writes l.adapter action = none ∧ step p l.adapter action = some next ∧
        after = { l with adapter := next } := by
  unfold adapterStep at stepped
  split at stepped
  · rename_i updater update written
    simp only [Option.bind_eq_some_iff, Option.map_eq_some_iff] at stepped
    obtain ⟨word, read, next, stepped, rfl⟩ := stepped
    exact Or.inl ⟨updater, update, word, next, written, read, stepped, rfl⟩
  · rename_i written
    simp only [Option.ite_none_left_eq_some, Option.map_eq_some_iff] at stepped
    obtain ⟨_, next, stepped, rfl⟩ := stepped
    exact Or.inr ⟨next, written, stepped, rfl⟩

end Step

structure Read (l : Lifecycle) (word : BitVec 32) : Prop where
  idle : venetTestFlag word idleFlags = false
  halting : venetTestFlag word vnetAdapterHaltInProgress = true → l.adapter.halt ≠ .notCalled
  shutdown : venetTestFlag word vnetAdapterShutdown = true → l.shutdown = true

structure Marks (l : Lifecycle) : Prop where
  idle : venetTestFlag l.adapter.flags idleFlags = false
  halting : venetTestFlag (l.lost ||| l.adapter.flags) vnetAdapterHaltInProgress =
    (l.adapter.halt != .notCalled)
  shutdown : venetTestFlag (l.lost ||| l.adapter.flags) vnetAdapterShutdown = l.shutdown
  paused : l.pause = .paused →
    venetTestFlag (l.lost ||| l.adapter.flags) vnetAdapterPaused = true
  apart : l.lost &&& l.adapter.flags = 0#32
  seen : ∀ updater word, l.seen updater = some word → Read l word
  refuses : RefusesWhileUnavailable l

def touched : Update → BitVec 32
  | .set flag => flag
  | .clear flag => flag

section Written

variable {l : Lifecycle} {who : Updater} {update : Update} {word flag : BitVec 32} {next : State}

theorem testFlag_apply (apart : touched update &&& flag = 0#32) :
    venetTestFlag (update.apply word) flag = venetTestFlag word flag := by
  cases update with
  | set other => exact testFlag_setApart apart
  | clear other => exact testFlag_clearApart apart

theorem written_apart :
    (l.writeState who update word next).lost &&&
      (l.writeState who update word next).adapter.flags = 0#32 := by
  change ((l.lost ||| l.adapter.flags) &&& ~~~update.apply word &&& ~~~cleared update) &&&
    update.apply word = 0#32
  ext i bound
  simp only [BitVec.getElem_and, BitVec.getElem_or, BitVec.getElem_not, BitVec.getElem_zero]
  cases (update.apply word)[i] <;> simp

theorem written_known :
    (l.writeState who update word next).lost ||| (l.writeState who update word next).adapter.flags =
      update.apply word ||| (l.lost ||| l.adapter.flags) &&& ~~~cleared update := by
  change ((l.lost ||| l.adapter.flags) &&& ~~~update.apply word &&& ~~~cleared update) |||
    update.apply word = _
  ext i bound
  simp only [BitVec.getElem_and, BitVec.getElem_or, BitVec.getElem_not]
  cases (update.apply word)[i] <;> simp

theorem written_flag (apart : touched update &&& flag = 0#32) :
    venetTestFlag ((l.writeState who update word next).lost |||
        (l.writeState who update word next).adapter.flags) flag =
      (venetTestFlag word flag || venetTestFlag (l.lost ||| l.adapter.flags) flag) := by
  have other : cleared update &&& flag = 0#32 := by
    cases update with
    | set _ => exact BitVec.zero_and
    | clear _ => exact apart
  rw [written_known, testFlag_union, testFlag_apply apart]
  congr 1
  exact testFlag_clearApart other

theorem written_own (nonzero : flag ≠ 0#32) :
    venetTestFlag ((l.writeState who (.set flag) word next).lost |||
      (l.writeState who (.set flag) word next).adapter.flags) flag = true := by
  rw [written_known, testFlag_union]
  change (venetTestFlag (venetSetFlag word flag) flag || _) = true
  rw [testFlag_setSelf _ _ nonzero, Bool.true_or]

/-- A flag and its record go together, whether the update is about it or leaves both alone. -/
theorem written_record {before after : Bool} (nonzero : flag ≠ 0#32)
    (either : touched update &&& flag = 0#32 ∧ after = before ∨ update = .set flag ∧ after = true)
    (known : venetTestFlag (l.lost ||| l.adapter.flags) flag = before)
    (said : venetTestFlag word flag = true → before = true) :
    venetTestFlag ((l.writeState who update word next).lost |||
      (l.writeState who update word next).adapter.flags) flag = after := by
  rcases either with ⟨apart, same⟩ | ⟨rfl, now⟩
  · rw [written_flag apart, known, same]
    cases set : venetTestFlag word flag with
    | false => rfl
    | true => exact (said set).symm
  · rw [written_own nonzero, now]

end Written

section Marks

variable {p : Params} {l next : Lifecycle}

theorem marks_start (p : Params) : Marks (lifecycle p).start := by
  have initial : (lifecycle p).start.adapter.flags = 0#32 := by
    change venetClearFlag (venetSetFlag 0#32 vnetDisconnected) vnetDisconnected = 0#32
    decide
  refine ⟨?_, ?_, ?_, ?_, ?_, ?_, ?_⟩
  · rw [initial]
    decide
  · rw [initial]
    change venetTestFlag (0#32 ||| 0#32) vnetAdapterHaltInProgress = false
    decide
  · rw [initial]
    change venetTestFlag (0#32 ||| 0#32) vnetAdapterShutdown = false
    decide
  · intro impossible
    cases impossible
  · rw [initial]
    exact BitVec.and_zero
  · intro updater word impossible
    cases impossible
  · intro call impossible
    cases impossible

theorem Marks.read (marks : Marks l) : Read l l.adapter.flags := by
  refine ⟨marks.idle, ?_, ?_⟩
  · intro set
    have known := marks.halting
    rw [testFlag_union, set, Bool.or_true] at known
    exact bne_iff_ne.mp known.symm
  · intro set
    have known := marks.shutdown
    rw [testFlag_union, set, Bool.or_true] at known
    exact known.symm

theorem Marks.written (marks : Marks l) {who : Updater} {update : Update} {word : BitVec 32}
    {after : State} {shutdown removed : Bool} {pause : PauseRecord} {calls : List SendCall}
    (read : l.seen who = some word) (idle : touched update &&& idleFlags = 0#32)
    (halting : touched update &&& vnetAdapterHaltInProgress = 0#32 ∧ after.halt = l.adapter.halt ∨
      update = .set vnetAdapterHaltInProgress ∧ after.halt ≠ .notCalled)
    (shutting : touched update &&& vnetAdapterShutdown = 0#32 ∧ shutdown = l.shutdown ∨
      update = .set vnetAdapterShutdown ∧ shutdown = true)
    (pausing : pause = .paused → touched update &&& vnetAdapterPaused = 0#32 ∧ l.pause = .paused ∨
      update = .set vnetAdapterPaused)
    (refuses : RefusesWhileUnavailable
      { l.writeState who update word after with
        shutdown := shutdown, removed := removed, pause := pause, calls := calls }) :
    Marks { l.writeState who update word after with
      shutdown := shutdown, removed := removed, pause := pause, calls := calls } := by
  have said := marks.seen who word read
  have halted : l.adapter.halt ≠ .notCalled → after.halt ≠ .notCalled := by
    rcases halting with ⟨_, same⟩ | ⟨_, called⟩
    · rw [same]
      exact id
    · exact fun _ => called
  have shut : l.shutdown = true → shutdown = true := by
    rcases shutting with ⟨_, same⟩ | ⟨_, called⟩
    · rw [same]
      exact id
    · exact fun _ => called
  refine ⟨(testFlag_apply idle).trans said.idle, ?_, ?_, ?_, @written_apart l who update word after, ?_,
    refuses⟩
  · refine @written_record l who update word _ after _ _ (by decide) ?_ marks.halting
      fun set => bne_iff_ne.mpr (said.halting set)
    rcases halting with ⟨apart, same⟩ | ⟨own, called⟩
    · exact Or.inl ⟨apart, congrArg (· != HaltPc.notCalled) same⟩
    · exact Or.inr ⟨own, bne_iff_ne.mpr called⟩
  · exact @written_record l who update word _ after _ _ (by decide) shutting marks.shutdown said.shutdown
  · intro still
    change venetTestFlag ((l.writeState who update word after).lost ||| _) _ = true
    rcases pausing still with ⟨apart, before⟩ | rfl
    · rw [written_flag apart, marks.paused before, Bool.or_true]
    · exact written_own (by decide)
  · intro other value between
    change Function.update l.seen who none other = some value at between
    rw [Function.update_apply] at between
    split at between
    · cases between
    · obtain ⟨idle, halting, shutdown⟩ := marks.seen other value between
      exact ⟨idle, fun set => halted (halting set), fun set => shut (shutdown set)⟩

theorem Marks.kept (marks : Marks l) {after : State} {pause : PauseRecord} {calls : List SendCall}
    (flags : after.flags = l.adapter.flags)
    (halt : after.halt = l.adapter.halt ∨ after.halt ≠ .notCalled ∧ l.adapter.halt ≠ .notCalled)
    (pausing : pause = .paused → l.pause = .paused)
    (refuses : RefusesWhileUnavailable
      { l with adapter := after, pause := pause, calls := calls }) :
    Marks { l with adapter := after, pause := pause, calls := calls } := by
  have halted : (after.halt != .notCalled) = (l.adapter.halt != .notCalled) := by
    rcases halt with same | ⟨now, before⟩
    · rw [same]
    · rw [bne_iff_ne.mpr now, bne_iff_ne.mpr before]
  refine ⟨?_, ?_, ?_, ?_, ?_, ?_, refuses⟩
  · rw [flags]
    exact marks.idle
  · rw [flags, halted]
    exact marks.halting
  · rw [flags]
    exact marks.shutdown
  · rw [flags]
    exact fun still => marks.paused (pausing still)
  · rw [flags]
    exact marks.apart
  · intro updater word between
    obtain ⟨idle, halting, shutdown⟩ := marks.seen updater word between
    refine ⟨idle, ?_, shutdown⟩
    intro set
    have before := bne_iff_ne.mpr (halting set)
    rw [← halted] at before
    exact bne_iff_ne.mp before

theorem refused_iff {s after : State} {thread : Nat} {chain : List Nat} (unavailable : Bool)
    (stepped : step p s (.sendNetBufs thread chain) = some after) :
    SendCall.Refused ⟨unavailable, thread, chain, s, after⟩ ↔ venetIsNotReady s.flags = true := by
  simp only [step, Option.ite_none_left_eq_some, Option.ite_none_right_eq_some,
    Option.some.injEq] at stepped
  have outside := stepped.2.1.1
  have result := stepped.2.2
  constructor
  · intro refused
    by_contra ready
    have returned := refused.returned
    simp only [← result, venetSendNetBufs, if_neg ready, goto_same] at returned
    cases returned
  · intro notReady
    rw [← result, venetSendNetBufs, if_pos notReady]
    exact ⟨⟨_, srGetAdapterStatus_failure _, rfl⟩, rfl, rfl, outside⟩

theorem Marks.notReady (marks : Marks l) :
    venetIsNotReady l.adapter.flags =
      (l.adapter.halt != .notCalled && !venetTestFlag l.lost vnetAdapterHaltInProgress ||
        l.shutdown && !venetTestFlag l.lost vnetAdapterShutdown ||
        venetTestFlag l.adapter.flags vnetAdapterReset ||
        venetTestFlag l.adapter.flags vnetAdapterPaused) := by
  have halting := testFlag_apart (and_twoPow_cases l.lost 2) marks.apart
  have shutdown := testFlag_apart (and_twoPow_cases l.lost 5) marks.apart
  rw [show BitVec.twoPow 32 2 = vnetAdapterHaltInProgress from rfl, marks.halting] at halting
  rw [show BitVec.twoPow 32 5 = vnetAdapterShutdown from rfl, marks.shutdown] at shutdown
  rw [notReady_iff, marks.idle, halting, shutdown, Bool.false_or]

theorem Marks.paused_covered (marks : Marks l)
    (covered : (l.pause == .paused && !venetTestFlag l.lost vnetAdapterPaused) = true) :
    venetTestFlag l.adapter.flags vnetAdapterPaused = true := by
  rw [Bool.and_eq_true, beq_iff_eq] at covered
  have paused := testFlag_apart (and_twoPow_cases l.lost 9) marks.apart
  rw [show BitVec.twoPow 32 9 = vnetAdapterPaused from rfl, marks.paused covered.1, covered.2] at paused
  exact paused

theorem Marks.marked_notReady {thread : Nat} {chain : List Nat} (marks : Marks l)
    (unavailable : l.unavailable = true)
    (guarded : marked l (.adapter (.sendNetBufs thread chain)) = true) :
    venetIsNotReady l.adapter.flags = true := by
  rw [marks.notReady]
  simp only [marked, unavailable, Bool.not_true, Bool.false_or, Lifecycle.covered,
    Bool.or_eq_true] at guarded ⊢
  rcases guarded with (((halting | shutdown) | paused) | reset) | paused
  · exact Or.inl (Or.inl (Or.inl halting))
  · exact Or.inl (Or.inl (Or.inr shutdown))
  · exact Or.inr (marks.paused_covered paused)
  · exact Or.inl (Or.inr reset)
  · exact Or.inr paused

theorem marked_of_notReady {thread : Nat} {chain : List Nat} (marks : Marks l)
    (notReady : venetIsNotReady l.adapter.flags = true) :
    marked l (.adapter (.sendNetBufs thread chain)) = true := by
  rw [marks.notReady] at notReady
  simp only [marked, Lifecycle.covered, Bool.or_eq_true] at notReady ⊢
  rcases notReady with ((halting | shutdown) | reset) | paused
  · exact Or.inl (Or.inl (Or.inr (Or.inl (Or.inl halting))))
  · exact Or.inl (Or.inl (Or.inr (Or.inl (Or.inr shutdown))))
  · exact Or.inl (Or.inr reset)
  · exact Or.inr paused

theorem refuses_other {action : Action} {base : Lifecycle} (refuses : RefusesWhileUnavailable l)
    (after : State) (other : ∀ thread chain, action ≠ .sendNetBufs thread chain)
    (same : base.calls = callsAfter l after action) : RefusesWhileUnavailable base := by
  intro call logged
  apply refuses call
  rw [same] at logged
  cases action with
  | sendNetBufs thread chain => exact absurd rfl (other thread chain)
  | _ => exact logged

theorem marks_read {updater : Updater} (marks : Marks l)
    (stepped : readState l updater = some next) : Marks next := by
  have seen : ∀ {setting : Option Updater},
      Marks { l with
        seen := Function.update l.seen updater (some l.adapter.flags)
        setting := setting } := by
    intro setting
    refine ⟨marks.idle, marks.halting, marks.shutdown, marks.paused, marks.apart, ?_, marks.refuses⟩
    intro other word between
    change Function.update l.seen updater (some l.adapter.flags) other = some word at between
    rw [Function.update_apply] at between
    split at between
    · rw [← Option.some.inj between]
      exact ⟨marks.read.idle, marks.read.halting, marks.read.shutdown⟩
    · obtain ⟨idle, halting, shutdown⟩ := marks.seen other word between
      exact ⟨idle, halting, shutdown⟩
  simp only [readState, Option.ite_none_left_eq_some] at stepped
  obtain ⟨_, stepped⟩ := stepped
  split at stepped
  · cases stepped
  · rw [← Option.some.inj stepped]
    exact seen
  · simp only [Option.ite_none_right_eq_some, Option.some.injEq] at stepped
    rw [← stepped.2]
    exact seen

theorem marks_thread {thread bytes : Nat} {pc : Pc} {update : Update} {word : BitVec 32} {after : State}
    (marks : Marks l) (running : l.adapter.threads thread = some pc) (writes : updateAt pc = some update)
    (read : l.seen (.thread thread) = some word) (halt : after.halt = l.adapter.halt) :
    Marks { l.writeState (.thread thread) update word after with
      pause := pauseAfter l (.run thread bytes)
      calls := l.calls } := by
  cases pc with
  | pauseFlag =>
    cases writes
    exact marks.written read (by decide) (Or.inl ⟨by decide, halt⟩) (Or.inl ⟨by decide, rfl⟩)
      (fun _ => Or.inr rfl) marks.refuses
  | restartFlag =>
    cases writes
    refine marks.written read (by decide) (Or.inl ⟨by decide, halt⟩) (Or.inl ⟨by decide, rfl⟩) ?_
      marks.refuses
    intro still
    simp only [pauseAfter, running] at still
    split at still
    · cases still
    · cases still
  | resetFlag | resetDone =>
    cases writes
    refine marks.written read (by decide) (Or.inl ⟨by decide, halt⟩) (Or.inl ⟨by decide, rfl⟩) ?_
      marks.refuses
    intro still
    simp only [pauseAfter, running] at still
    exact Or.inl ⟨by decide, still⟩
  | _ => cases writes

theorem pauseAfter_quiet {action : Action} (quiet : writes l.adapter action = none)
    (still : pauseAfter l action = .paused) : l.pause = .paused := by
  cases action with
  | restart thread => cases still
  | run thread bytes =>
    simp only [writes, updater, Option.bind_some, due] at quiet
    simp only [pauseAfter] at still
    split at still
    · rename_i running
      rw [running] at quiet
      cases quiet
    · rename_i running
      rw [running] at quiet
      cases quiet
    · exact still
  | _ => exact still

theorem marks_adapter {action : Action} {base : Lifecycle} (marks : Marks l)
    (guarded : marked l (.adapter action) = true) (stepped : adapterStep p l action = some base) :
    Marks { base with
      pause := pauseAfter l action
      calls := callsAfter l base.adapter action } := by
  rcases adapterStep_cases stepped with ⟨who, update, word, after, written, read, moved, rfl⟩ |
    ⟨after, quiet, moved, rfl⟩
  · obtain ⟨_, other, called⟩ := step_flags moved
    cases action with
    | run thread bytes =>
      simp only [writes, updater, Option.bind_some, due, Option.map_eq_some_iff,
        Option.bind_eq_some_iff, Prod.mk.injEq] at written
      obtain ⟨_, ⟨pc, running, writes⟩, rfl, rfl⟩ := written
      exact marks_thread marks running writes read (other nofun)
    | halt =>
      simp only [writes, updater, Option.bind_some, due, Option.map_eq_some_iff,
        Option.ite_none_right_eq_some, Option.some.injEq, Prod.mk.injEq] at written
      obtain ⟨_, ⟨before, rfl⟩, rfl, rfl⟩ := written
      exact marks.written read (by decide) (Or.inr ⟨rfl, called rfl⟩) (Or.inl ⟨by decide, rfl⟩)
        (fun still => Or.inl ⟨by decide, still⟩) marks.refuses
    | _ => cases written
  · obtain ⟨flags, other, called⟩ := step_flags moved
    rw [quiet] at flags
    refine marks.kept flags ?_ (pauseAfter_quiet quiet) ?_
    · by_cases halts : action = .halt
      · refine Or.inr ⟨called halts, ?_⟩
        intro before
        rw [halts] at quiet
        simp [writes, updater, due, before] at quiet
      · exact Or.inl (other halts)
    · by_cases sends : ∃ thread chain, action = .sendNetBufs thread chain
      · obtain ⟨thread, chain, rfl⟩ := sends
        intro call logged unavailable
        simp only [callsAfter, List.mem_append, List.mem_singleton] at logged
        rcases logged with earlier | rfl
        · exact marks.refuses call earlier unavailable
        · exact (refused_iff _ moved).mpr (marks.marked_notReady unavailable guarded)
      · refine refuses_other marks.refuses after ?_ rfl
        intro thread chain same
        exact sends ⟨thread, chain, same⟩

theorem marks_preserved (l : Lifecycle) (action : LifecycleAction) (next : Lifecycle)
    (marks : Marks l) (guarded : marked l action = true)
    (stepped : lifecycleStep p l action = some next) : Marks next := by
  simp only [lifecycleStep, Option.ite_none_left_eq_some] at stepped
  obtain ⟨_, stepped⟩ := stepped
  cases action with
  | read updater => exact marks_read marks stepped
  | adapter action =>
    simp only [Option.map_eq_some_iff] at stepped
    obtain ⟨base, stepped, rfl⟩ := stepped
    exact marks_adapter marks guarded stepped
  | shutdown =>
    simp only [venetShutdown, Option.map_eq_some_iff] at stepped
    obtain ⟨word, read, rfl⟩ := stepped
    exact marks.written read (by decide) (Or.inl ⟨by decide, rfl⟩) (Or.inr ⟨rfl, rfl⟩)
      (fun still => Or.inl ⟨by decide, still⟩) marks.refuses
  | devicePnPEvent surpriseRemoved =>
    simp only [venetDevicePnPEvent] at stepped
    cases surpriseRemoved with
    | false =>
      rw [← Option.some.inj stepped]
      exact marks
    | true =>
      simp only [if_true, Option.map_eq_some_iff] at stepped
      obtain ⟨word, read, rfl⟩ := stepped
      exact marks.written read (by decide) (Or.inl ⟨by decide, rfl⟩) (Or.inl ⟨by decide, rfl⟩)
        (fun still => Or.inl ⟨by decide, still⟩) marks.refuses

theorem marks_forced (l : Lifecycle) (action : LifecycleAction) (next : Lifecycle) (marks : Marks l)
    (stepped : lifecycleStep p l action = some next) (refuses : RefusesWhileUnavailable next) :
    marked l action = true := by
  cases action with
  | adapter action =>
    cases action with
    | sendNetBufs thread chain =>
      simp only [lifecycleStep, Option.ite_none_left_eq_some, Option.map_eq_some_iff] at stepped
      obtain ⟨_, base, stepped, rfl⟩ := stepped
      rcases adapterStep_cases stepped with ⟨_, _, _, _, written, _⟩ | ⟨after, _, moved, rfl⟩
      · cases written
      · cases available : l.unavailable with
        | false => simp [marked, available]
        | true =>
          have logged : (⟨l.unavailable, thread, chain, l.adapter, after⟩ : SendCall) ∈
              callsAfter l after (.sendNetBufs thread chain) := by simp [callsAfter]
          have refused := refuses _ logged available
          exact marked_of_notReady marks ((refused_iff _ moved).mp refused)
    | _ => rfl
  | _ => rfl

end Marks

/-- Every call of `VenetSendNetBufs` made while the adapter is unavailable is refused in exactly the
    runs in which each such call follows a halt, a shutdown or a pause whose flag was not lost, or else
    finds the flag of a reset or of a pause. -/
theorem unavailable_sends_refused (p : Params) (actions : List LifecycleAction) :
    (lifecycle p).Throughout RefusesWhileUnavailable (lifecycle p).start actions ↔
      (lifecycle p).Meets ((lifecycle p).OnSteps fun l action => marked l action = true)
        (lifecycle p).start actions := by
  apply Machine.throughout_iff_guarded Marks _ marks_preserved marks_forced (marks_start p)
  intro l marks
  exact marks.refuses

def sendAfterRemoval : List LifecycleAction :=
  [.read .surpriseRemoval, .devicePnPEvent true, .adapter (.sendNetBufs 0 [0])]

theorem removal_accepts_send :
    ¬ RefusesWhileUnavailable
      (((lifecycle solo).run (lifecycle solo).start sendAfterRemoval).get (by decide)) := by
  intro refuses
  have refused := refuses _ List.mem_cons_self (by decide)
  have returned := refused.returned
  revert returned
  decide

def sendAfterLostShutdown : List LifecycleAction :=
  [.adapter (.reset 0), .adapter (.run 0 0), .read (.thread 0), .adapter (.run 0 0),
    .adapter (.run 0 0), .adapter (.run 0 0), .read (.thread 0), .read .shutdown, .shutdown,
    .adapter (.run 0 0), .adapter (.sendNetBufs 1 [0])]

example : ((lifecycle solo).run (lifecycle solo).start sendAfterLostShutdown).map
    (fun l => (l.lost, l.adapter.sends.accepted)) = some (vnetAdapterShutdown, [0]) := by
  decide

def adapterAction : LifecycleAction → Option Action
  | .adapter action => some action
  | _ => none

/-- No update begins between the accesses of another one, and nothing but the adapter acts. -/
def Undivided (l : Lifecycle) : LifecycleAction → Prop
  | .read _ => ∀ who, l.seen who = none
  | .adapter _ => True
  | .shutdown => False
  | .devicePnPEvent surpriseRemoved => surpriseRemoved = false

def Settled (l : Lifecycle) : Prop :=
  ∀ who word, l.seen who = some word →
    word = l.adapter.flags ∧ ∀ other, other ≠ who → l.seen other = none

section Undivided

variable {p : Params} {l next : Lifecycle}

theorem Settled.read {who : Updater} (idle : ∀ other, l.seen other = none)
    (flags : next.adapter.flags = l.adapter.flags)
    (seen : next.seen = Function.update l.seen who (some l.adapter.flags)) : Settled next := by
  intro reader word between
  rw [seen] at between
  by_cases same : reader = who
  · rw [same, Function.update_self] at between
    refine ⟨(Option.some.inj between).symm.trans flags.symm, ?_⟩
    intro other different
    rw [seen, Function.update_of_ne (same ▸ different)]
    exact idle other
  · rw [Function.update_of_ne same, idle reader] at between
    cases between

theorem Settled.written {who : Updater} {word : BitVec 32} (settled : Settled l)
    (read : l.seen who = some word) (seen : next.seen = Function.update l.seen who none) :
    Settled next := by
  intro other value between
  rw [seen] at between
  by_cases same : other = who
  · rw [same, Function.update_self] at between
    cases between
  · rw [Function.update_of_ne same, (settled who word read).2 other same] at between
    cases between

theorem settled_step {action : LifecycleAction} (settled : Settled l) (undivided : Undivided l action)
    (stepped : lifecycleStep p l action = some next) :
    Settled next ∧ (adapterAction action).elim (next.adapter = l.adapter)
      fun action => step p l.adapter action = some next.adapter := by
  simp only [lifecycleStep, Option.ite_none_left_eq_some] at stepped
  obtain ⟨_, stepped⟩ := stepped
  cases action with
  | read updater =>
    simp only [readState, Option.ite_none_left_eq_some] at stepped
    obtain ⟨_, stepped⟩ := stepped
    split at stepped
    · cases stepped
    · rw [← Option.some.inj stepped]
      exact ⟨Settled.read undivided rfl rfl, rfl⟩
    · simp only [Option.ite_none_right_eq_some, Option.some.injEq] at stepped
      rw [← stepped.2]
      exact ⟨Settled.read undivided rfl rfl, rfl⟩
  | adapter action =>
    simp only [Option.map_eq_some_iff] at stepped
    obtain ⟨base, stepped, rfl⟩ := stepped
    rcases adapterStep_cases stepped with ⟨who, update, word, after, written, read, moved, rfl⟩ |
      ⟨after, quiet, moved, rfl⟩
    · have flags := (step_flags moved).1
      rw [written, Option.elim_some, ← (settled who word read).1] at flags
      refine ⟨settled.written read rfl, ?_⟩
      change step p l.adapter action = some { after with flags := update.apply word }
      rw [← flags]
      exact moved
    · have flags := (step_flags moved).1
      rw [quiet, Option.elim_none] at flags
      refine ⟨?_, moved⟩
      intro who word read
      rw [flags]
      exact settled who word read
  | shutdown => exact undivided.elim
  | devicePnPEvent surpriseRemoved =>
    have ignored : surpriseRemoved = false := undivided
    rw [ignored] at stepped
    rw [← Option.some.inj stepped]
    exact ⟨settled, rfl⟩

/-- Where no update is divided, the adapter runs as in `Venet.machine`, which takes the read and the
    write of the flags in one step. -/
theorem undivided_run {actions : List LifecycleAction}
    (met : (lifecycle p).Meets Undivided (lifecycle p).start actions)
    (ran : (lifecycle p).run (lifecycle p).start actions = some next) :
    (machine p).run (machine p).start (actions.filterMap adapterAction) = some next.adapter := by
  have initial : Settled (lifecycle p).start := by
    intro who word impossible
    cases impossible
  change (machine p).run (lifecycle p).start.adapter _ = _
  generalize (lifecycle p).start = l at met ran initial
  induction actions generalizing l with
  | nil =>
    simp only [Machine.run, Option.some.injEq] at ran
    rw [← ran]
    rfl
  | cons action rest ih =>
    simp only [Machine.run, Option.bind_eq_some_iff] at ran
    obtain ⟨middle, stepped, ran⟩ := ran
    obtain ⟨settled, moved⟩ := settled_step initial met.1 stepped
    have later := ih middle (met.2 middle stepped) ran settled
    rw [List.filterMap_cons]
    cases of_adapter : adapterAction action with
    | none =>
      rw [of_adapter, Option.elim_none] at moved
      rw [← moved]
      exact later
    | some own =>
      rw [of_adapter, Option.elim_some] at moved
      simp only [Machine.run, Option.bind_eq_some_iff]
      exact ⟨middle.adapter, moved, later⟩

end Undivided

end Venet.Availability
