import AlacrityDrivers.Library.Transition
import AlacrityDrivers.Vbus.Proxy

namespace Vbus.SignalLifetime

open Transition

/-- How far the `VbusProxyDeviceShm` that allocated the signal has come: the host refused it, the
    interrupt is to be created, that failed, the interrupt refers to the signal, or it is returned. -/
inductive Stage where
  | refused
  | registered (pdo : Nat)
  | abandoned
  | connected (pdo : Nat)
  | returned
deriving DecidableEq, Repr

/-- A `struct _signal`, whether the host has sent its SHMCLOSE and `_signal_isr` queued a DPC for it.
    `frees` counts the calls of `VbusFree` on it. -/
structure Signal where
  stage : Stage
  refCount : Int
  frees : Nat
  closed : Bool
  dpcQueued : Bool
deriving DecidableEq, Repr

/-- The signals in the order of their allocation, and the list `shms` of each PDO, which is `none`
    while its head is zeroed. `offended` tells whether a freed signal has been read or freed. -/
structure State where
  signals : List Signal
  shms : Nat → Option (List Nat)
  crashed : Bool
  offended : Bool

inductive Use where
  | interruptCreate (created : Bool)
  | insertTail
  | shmsignal
  | shmclose
  | isr (enabled : Bool)
  | dpc
  | inject

/-- The host's cookie and the pointers to a signal are its place in the order of allocation. -/
inductive Action where
  | deviceShm (pdo : Nat) (request : ShmRequest) (cookie : Option (BitVec 64)) (accepted : Bool)
  | use (id : Nat) (use : Use)

def vbusFree (signal : Signal) : Signal := { signal with frees := signal.frees + 1 }

def signalGet (signal : Signal) : Signal := { signal with refCount := signal.refCount + 1 }

def signalPut (signal : Signal) : Signal :=
  if signal.refCount - 1 = 0 then vbusFree { signal with refCount := signal.refCount - 1 }
  else { signal with refCount := signal.refCount - 1 }

def Signal.freed (signal : Signal) : Bool := signal.frees != 0

def State.access (s : State) (id : Nat) (signal left : Signal) : State :=
  { s with
    signals := s.signals.set id left
    offended := s.offended || signal.freed }

def State.freedAt (s : State) (id : Nat) : Bool := s.signals[id]?.any Signal.freed

/-- `VbusProxyDeviceShm` up to the answer to its buscall; a refusal frees the signal. -/
def deviceShm (s : State) (pd : PdoDeviceData) (request : ShmRequest) (cookie : Option (BitVec 64))
    (pdo : Nat) (accepted : Bool) : State :=
  match vbusProxyDeviceShm pd request cookie with
  | .ok (.devShm params) =>
    if params.signal.isNone then s
    else if accepted then
      { s with signals := s.signals ++ [signalGet ⟨.registered pdo, 0, 0, false, false⟩] }
    else
      { s with signals := s.signals ++ [vbusFree (signalGet ⟨.refused, 0, 0, false, false⟩)] }
  | _ => s

def interruptCreate (s : State) (id : Nat) (signal : Signal) (pdo : Nat) (created : Bool) : State :=
  if created then { s with signals := s.signals.set id { signal with stage := .connected pdo } }
  else s.access id signal (vbusFree { signal with stage := .abandoned })

/-- `InsertTailList(&pd->shms, &_signal->list)` writes to the signal and to the last one in the list,
    which counts as reading them if `writes` is set. On a zeroed head it writes through a null
    pointer. -/
def insertTail (writes : Bool) (s : State) (id : Nat) (signal : Signal) (pdo : Nat) : State :=
  match s.shms pdo with
  | none =>
    { s with
      crashed := true
      offended := s.offended || (writes && signal.freed) }
  | some entries =>
    { s with
      signals := s.signals.set id { signal with stage := .returned }
      shms := Function.update s.shms pdo (some (entries ++ [id]))
      offended := s.offended || (writes && (signal.freed || entries.getLast?.any s.freedAt)) }

def eventShmsignal (s : State) (id : Nat) (signal : Signal) : State := s.access id signal signal

def eventShmclose (s : State) (id : Nat) (signal : Signal) : State :=
  s.access id signal (signalPut { signal with closed := true })

/-- `_signal_isr`, which finds `enabled` in the shared memory of the signal. -/
def signalIsr (s : State) (id : Nat) (signal : Signal) (enabled : Bool) : State :=
  s.access id signal { signal with dpcQueued := signal.dpcQueued || enabled }

def signalDpc (s : State) (id : Nat) (signal : Signal) : State :=
  s.access id signal { signal with dpcQueued := false }

def signalInject (s : State) (id : Nat) (signal : Signal) : State := s.access id signal signal

/-- The host may use the cookie: it has answered the DEVSHM and not sent the SHMCLOSE. -/
def Signal.hostCookie (signal : Signal) : Bool := signal.stage != .refused && !signal.closed

def Signal.interrupt (signal : Signal) : Bool :=
  match signal.stage with
  | .connected _ => true
  | .returned => true
  | _ => false

def signalStep (writes : Bool) (s : State) (id : Nat) (signal : Signal) : Use → Option State
  | .interruptCreate created =>
    match signal.stage with
    | .registered pdo => some (interruptCreate s id signal pdo created)
    | _ => none
  | .insertTail =>
    match signal.stage with
    | .connected pdo => some (insertTail writes s id signal pdo)
    | _ => none
  | .shmsignal => if signal.hostCookie then some (eventShmsignal s id signal) else none
  | .shmclose => if signal.hostCookie then some (eventShmclose s id signal) else none
  | .isr enabled => if signal.interrupt then some (signalIsr s id signal enabled) else none
  | .dpc => if signal.dpcQueued then some (signalDpc s id signal) else none
  | .inject => if signal.stage = .returned then some (signalInject s id signal) else none

def step (pdos : Nat → PdoDeviceData) (writes : Bool) (s : State) (action : Action) : Option State :=
  if s.crashed then none
  else match action with
    | .deviceShm pdo request cookie accepted =>
      some (deviceShm s (pdos pdo) request cookie pdo accepted)
    | .use id use => s.signals[id]?.bind fun signal => signalStep writes s id signal use

/-- The source leaves the list heads zeroed; `initialised` is a driver that does not. -/
def machine (pdos : Nat → PdoDeviceData) (initialised writes : Bool) : Machine State Action where
  start := ⟨[], fun _ => if initialised then some [] else none, false, false⟩
  step := step pdos writes

/-- No step has read or freed a freed signal, and none is freed twice. -/
structure Lifetime (s : State) : Prop where
  unharmed : s.offended = false
  once : ∀ signal ∈ s.signals, signal.frees ≤ 1

def State.closedAt (s : State) (id : Nat) : Bool := s.signals[id]?.any Signal.closed

def State.lastClosed (s : State) (pdo : Nat) : Bool :=
  ((s.shms pdo).bind List.getLast?).any s.closedAt

/-- The host sends nothing for a signal whose interrupt could not be created, and its SHMCLOSE comes
    after the signal was put in the list and is followed by no use of the signal in the guest. -/
def ordered (writes : Bool) (s : State) (signal : Signal) : Use → Bool
  | .interruptCreate created => created || !signal.closed
  | .insertTail =>
    match signal.stage with
    | .connected pdo => !writes || !(signal.closed || s.lastClosed pdo)
    | _ => true
  | .shmsignal => signal.stage != .abandoned
  | .shmclose => signal.stage != .abandoned
  | .isr _ => !signal.closed
  | .dpc => !signal.closed
  | .inject => !signal.closed

def orderly (writes : Bool) (s : State) : Action → Bool
  | .deviceShm _ _ _ _ => true
  | .use id use => s.signals[id]?.all fun signal => ordered writes s signal use

def Signal.gone (signal : Signal) : Bool :=
  signal.stage == .refused || signal.stage == .abandoned || signal.closed

structure Signal.Counted (signal : Signal) : Prop where
  frees : signal.frees = if signal.gone then 1 else 0
  refCount : signal.gone = false → signal.refCount = 1
  queued : signal.dpcQueued = true → signal.interrupt = true

structure Known (s : State) : Prop where
  unharmed : s.offended = false
  counted : ∀ signal ∈ s.signals, signal.Counted
  listed : ∀ pdo entries, s.shms pdo = some entries → ∀ id ∈ entries,
    ∃ signal, s.signals[id]? = some signal ∧ signal.stage = .returned

section Count

variable {s next : State} {signal left : Signal} {id : Nat}

theorem Signal.Counted.freed (counted : signal.Counted) : signal.freed = signal.gone := by
  rw [Signal.freed, counted.frees]
  cases signal.gone with
  | true => rfl
  | false => rfl

theorem Signal.gone_of_interrupt (interrupt : signal.interrupt = true) : signal.gone = signal.closed := by
  unfold Signal.interrupt at interrupt
  unfold Signal.gone
  cases stage : signal.stage with
  | connected pdo => rfl
  | returned => rfl
  | _ =>
    rw [stage] at interrupt
    cases interrupt

theorem Signal.gone_of_registered {pdo : Nat} (stage : signal.stage = .registered pdo) :
    signal.gone = signal.closed := by
  rw [Signal.gone, stage]
  rfl

theorem Signal.interrupt_of_connected {pdo : Nat} (stage : signal.stage = .connected pdo) :
    signal.interrupt = true := by rw [Signal.interrupt, stage]

theorem Signal.interrupt_of_returned (stage : signal.stage = .returned) : signal.interrupt = true := by
  rw [Signal.interrupt, stage]

theorem Signal.alive_of_interrupt (interrupt : signal.interrupt = true) :
    signal.gone = false ↔ (!signal.closed) = true := by
  rw [Signal.gone_of_interrupt interrupt, Bool.not_eq_true']

theorem Signal.alive_of_cookie (cookie : signal.hostCookie = true) :
    signal.gone = false ↔ (signal.stage != .abandoned) = true := by
  simp only [Signal.hostCookie, Bool.and_eq_true, bne_iff_ne, Bool.not_eq_true'] at cookie
  rw [Signal.gone, cookie.2, beq_false_of_ne cookie.1, Bool.false_or, Bool.or_false, bne_iff_ne,
    beq_eq_false_iff_ne]

theorem Known.lifetime (known : Known s) : Lifetime s := by
  refine ⟨known.unharmed, ?_⟩
  intro signal among
  rw [(known.counted signal among).frees]
  split
  · exact Nat.le_refl 1
  · exact Nat.zero_le 1

theorem known_start (pdos : Nat → PdoDeviceData) (initialised writes : Bool) :
    Known (machine pdos initialised writes).start := by
  refine ⟨rfl, ?_, ?_⟩
  · intro signal among
    cases among
  · intro pdo entries listed id among
    cases initialised with
    | true =>
      cases listed
      cases among
    | false => cases listed

theorem Known.replace (known : Known s) (present : s.signals[id]? = some signal)
    (counted : left.Counted) (stays : signal.stage = .returned → left.stage = .returned) :
    Known { s with signals := s.signals.set id left } := by
  refine ⟨known.unharmed, ?_, ?_⟩
  · intro other among
    rcases List.mem_or_eq_of_mem_set among with kept | rfl
    · exact known.counted other kept
    · exact counted
  · intro pdo entries listed entry among
    rcases known.listed pdo entries listed entry among with ⟨other, there, returned⟩
    by_cases same : id = entry
    · subst same
      have bound : id < s.signals.length := (List.getElem?_eq_some_iff.mp present).1
      rw [present] at there
      cases there
      exact ⟨left, List.getElem?_set_self bound, stays returned⟩
    · exact ⟨other, (List.getElem?_set_ne same).trans there, returned⟩

theorem Known.access (known : Known s) (present : s.signals[id]? = some signal)
    (alive : signal.gone = false) (counted : left.Counted)
    (stays : signal.stage = .returned → left.stage = .returned) : Known (s.access id signal left) := by
  have replaced := known.replace present counted stays
  have unfreed : signal.freed = false :=
    (known.counted signal (List.mem_of_getElem? present)).freed.trans alive
  refine ⟨?_, replaced.counted, replaced.listed⟩
  simp only [State.access, known.unharmed, unfreed, Bool.or_false]

theorem Known.access_forced (known : Known s) (present : s.signals[id]? = some signal)
    (unharmed : (s.access id signal left).offended = false) : signal.gone = false := by
  rw [← (known.counted signal (List.mem_of_getElem? present)).freed]
  exact (Bool.or_eq_false_iff.mp unharmed).2

theorem Known.deviceShm (known : Known s) (pd : PdoDeviceData) (request : ShmRequest)
    (cookie : Option (BitVec 64)) (pdo : Nat) (accepted : Bool) :
    Known (deviceShm s pd request cookie pdo accepted) := by
  have append : ∀ new : Signal, new.Counted → Known { s with signals := s.signals ++ [new] } := by
    intro new counted
    refine ⟨known.unharmed, ?_, ?_⟩
    · intro other among
      rcases List.mem_append.mp among with earlier | last
      · exact known.counted other earlier
      · rw [List.mem_singleton.mp last]
        exact counted
    · intro pdo entries listed entry among
      rcases known.listed pdo entries listed entry among with ⟨other, there, returned⟩
      have bound : entry < s.signals.length := (List.getElem?_eq_some_iff.mp there).1
      exact ⟨other, (List.getElem?_append_left bound).trans there, returned⟩
  unfold SignalLifetime.deviceShm
  split
  · split
    · exact known
    · split
      · exact append _ ⟨rfl, fun _ => rfl, nofun⟩
      · exact append _ ⟨rfl, nofun, nofun⟩
  · exact known

theorem Known.interruptCreate (known : Known s) (present : s.signals[id]? = some signal) {pdo : Nat}
    (stage : signal.stage = .registered pdo) {created : Bool}
    (inOrder : (created || !signal.closed) = true) :
    Known (interruptCreate s id signal pdo created) := by
  have counted := known.counted signal (List.mem_of_getElem? present)
  have gone := Signal.gone_of_registered stage
  cases created with
  | true =>
    apply known.replace present
    · refine ⟨?_, ?_, fun _ => rfl⟩
      · rw [counted.frees, gone]
        rfl
      · intro alive
        exact counted.refCount (gone.trans alive)
    · rw [stage]
      nofun
  | false =>
    have alive : signal.gone = false := by simpa [gone] using inOrder
    apply known.access present alive
    · refine ⟨?_, nofun, ?_⟩
      · simp only [vbusFree, counted.frees, alive]
        rfl
      · intro queued
        have impossible := counted.queued queued
        rw [Signal.interrupt, stage] at impossible
        cases impossible
    · rw [stage]
      nofun

theorem Known.last_freed (known : Known s) {pdo : Nat} {entries : List Nat}
    (listed : s.shms pdo = some entries) : entries.getLast?.any s.freedAt = s.lastClosed pdo := by
  rw [State.lastClosed, listed, Option.bind_some]
  cases last : entries.getLast? with
  | none => rfl
  | some entry =>
    rcases known.listed pdo entries listed entry (List.mem_of_getLast? last) with
      ⟨other, there, returned⟩
    have interrupt := Signal.interrupt_of_returned returned
    simp only [Option.any_some, State.freedAt, State.closedAt, there]
    rw [(known.counted other (List.mem_of_getElem? there)).freed, Signal.gone_of_interrupt interrupt]

theorem Known.insertTail (known : Known s) (present : s.signals[id]? = some signal) {pdo : Nat}
    (stage : signal.stage = .connected pdo) {writes : Bool}
    (inOrder : (!writes || !(signal.closed || s.lastClosed pdo)) = true) :
    Known (insertTail writes s id signal pdo) := by
  have counted := known.counted signal (List.mem_of_getElem? present)
  have interrupt := Signal.interrupt_of_connected stage
  have gone := Signal.gone_of_interrupt interrupt
  have freed := counted.freed.trans gone
  have harmless : (writes && (signal.closed || s.lastClosed pdo)) = false := by
    rw [← Bool.not_eq_true', Bool.not_and]
    exact inOrder
  unfold SignalLifetime.insertTail
  cases listed : s.shms pdo with
  | none =>
    refine ⟨?_, known.counted, known.listed⟩
    rw [Bool.and_or_distrib_left, Bool.or_eq_false_iff] at harmless
    simp only [known.unharmed, freed, harmless.1, Bool.or_false]
  | some entries =>
    have returned : Signal.Counted { signal with stage := .returned } := by
      refine ⟨?_, ?_, fun _ => rfl⟩
      · rw [counted.frees, gone]
        rfl
      · intro alive
        exact counted.refCount (gone.trans alive)
    have replaced := known.replace present returned fun _ => rfl
    have bound : id < s.signals.length := (List.getElem?_eq_some_iff.mp present).1
    refine ⟨?_, replaced.counted, ?_⟩
    · simp only [known.unharmed, freed, known.last_freed listed, harmless, Bool.or_false]
    · intro other otherEntries otherListed entry among
      dsimp only at otherListed
      by_cases same : other = pdo
      · subst same
        rw [Function.update_self] at otherListed
        cases otherListed
        rcases List.mem_append.mp among with earlier | new
        · exact replaced.listed other entries listed entry earlier
        · rw [List.mem_singleton.mp new]
          exact ⟨_, List.getElem?_set_self bound, rfl⟩
      · rw [Function.update_of_ne same] at otherListed
        exact replaced.listed other otherEntries otherListed entry among

theorem Known.shmclose (known : Known s) (present : s.signals[id]? = some signal)
    (cookie : signal.hostCookie = true) (inOrder : (signal.stage != .abandoned) = true) :
    Known (eventShmclose s id signal) := by
  have counted := known.counted signal (List.mem_of_getElem? present)
  have alive := (Signal.alive_of_cookie cookie).mpr inOrder
  have put : signalPut { signal with closed := true } =
      { signal with
        refCount := 0
        frees := 1
        closed := true } := by
    have frees := counted.frees
    rw [alive] at frees
    simp [signalPut, vbusFree, counted.refCount alive, frees]
  unfold eventShmclose
  rw [put]
  apply known.access present alive
  · refine ⟨?_, ?_, counted.queued⟩
    · simp [Signal.gone]
    · simp [Signal.gone]
  · exact fun returned => returned

theorem Known.touch (known : Known s) (present : s.signals[id]? = some signal)
    (alive : signal.gone = false) {queued : Bool} (kept : queued = true → signal.interrupt = true) :
    Known (s.access id signal { signal with dpcQueued := queued }) := by
  have counted := known.counted signal (List.mem_of_getElem? present)
  apply known.access present alive
  · exact ⟨counted.frees, counted.refCount, kept⟩
  · exact fun returned => returned

theorem signalStep_preserved {writes : Bool} {use : Use} (known : Known s)
    (present : s.signals[id]? = some signal) (inOrder : ordered writes s signal use = true)
    (stepped : signalStep writes s id signal use = some next) : Known next := by
  have counted := known.counted signal (List.mem_of_getElem? present)
  cases use with
  | interruptCreate created =>
    simp only [signalStep] at stepped
    split at stepped
    · rename_i pdo stage
      rw [← Option.some.inj stepped]
      exact known.interruptCreate present stage inOrder
    · cases stepped
  | insertTail =>
    simp only [signalStep] at stepped
    split at stepped
    · rename_i pdo stage
      rw [← Option.some.inj stepped]
      simp only [ordered, stage] at inOrder
      exact known.insertTail present stage inOrder
    · cases stepped
  | shmsignal =>
    simp only [signalStep, Option.ite_none_right_eq_some, Option.some.injEq] at stepped
    rcases stepped with ⟨cookie, rfl⟩
    have alive := (Signal.alive_of_cookie cookie).mpr inOrder
    exact known.touch present alive counted.queued
  | shmclose =>
    simp only [signalStep, Option.ite_none_right_eq_some, Option.some.injEq] at stepped
    rcases stepped with ⟨cookie, rfl⟩
    exact known.shmclose present cookie inOrder
  | isr enabled =>
    simp only [signalStep, Option.ite_none_right_eq_some, Option.some.injEq] at stepped
    rcases stepped with ⟨interrupt, rfl⟩
    have alive := (Signal.alive_of_interrupt interrupt).mpr inOrder
    exact known.touch present alive fun _ => interrupt
  | dpc =>
    simp only [signalStep, Option.ite_none_right_eq_some, Option.some.injEq] at stepped
    rcases stepped with ⟨queued, rfl⟩
    have alive := (Signal.alive_of_interrupt (counted.queued queued)).mpr inOrder
    exact known.touch present alive nofun
  | inject =>
    simp only [signalStep, Option.ite_none_right_eq_some, Option.some.injEq] at stepped
    rcases stepped with ⟨returned, rfl⟩
    have interrupt := Signal.interrupt_of_returned returned
    have alive := (Signal.alive_of_interrupt interrupt).mpr inOrder
    exact known.touch present alive counted.queued

theorem insertTail_forced {writes : Bool} {pdo : Nat} (known : Known s)
    (present : s.signals[id]? = some signal) (stage : signal.stage = .connected pdo)
    (unharmed : (insertTail writes s id signal pdo).offended = false) :
    (!writes || !(signal.closed || s.lastClosed pdo)) = true := by
  have counted := known.counted signal (List.mem_of_getElem? present)
  have interrupt := Signal.interrupt_of_connected stage
  have freed := counted.freed.trans (Signal.gone_of_interrupt interrupt)
  unfold insertTail at unharmed
  cases listed : s.shms pdo with
  | none =>
    rw [listed] at unharmed
    have closed := (Bool.or_eq_false_iff.mp unharmed).2
    have last : s.lastClosed pdo = false := by
      rw [State.lastClosed, listed]
      rfl
    rw [freed] at closed
    rw [last, Bool.or_false, ← Bool.not_and, closed]
    rfl
  | some entries =>
    rw [listed] at unharmed
    have closed := (Bool.or_eq_false_iff.mp unharmed).2
    rw [freed, known.last_freed listed] at closed
    rw [← Bool.not_and, closed]
    rfl

theorem signalStep_forced {writes : Bool} {use : Use} (known : Known s)
    (present : s.signals[id]? = some signal)
    (stepped : signalStep writes s id signal use = some next) (unharmed : next.offended = false) :
    ordered writes s signal use = true := by
  have counted := known.counted signal (List.mem_of_getElem? present)
  cases use with
  | interruptCreate created =>
    simp only [signalStep] at stepped
    split at stepped
    · rename_i pdo stage
      rw [← Option.some.inj stepped] at unharmed
      cases created with
      | true => rfl
      | false =>
        have alive := known.access_forced present unharmed
        rw [Signal.gone_of_registered stage] at alive
        simp only [ordered, alive, Bool.not_false, Bool.or_true]
    · cases stepped
  | insertTail =>
    simp only [signalStep] at stepped
    split at stepped
    · rename_i pdo stage
      rw [← Option.some.inj stepped] at unharmed
      simp only [ordered, stage]
      exact insertTail_forced known present stage unharmed
    · cases stepped
  | shmsignal =>
    simp only [signalStep, Option.ite_none_right_eq_some, Option.some.injEq] at stepped
    rcases stepped with ⟨cookie, rfl⟩
    exact (Signal.alive_of_cookie cookie).mp (known.access_forced present unharmed)
  | shmclose =>
    simp only [signalStep, Option.ite_none_right_eq_some, Option.some.injEq] at stepped
    rcases stepped with ⟨cookie, rfl⟩
    exact (Signal.alive_of_cookie cookie).mp (known.access_forced present unharmed)
  | isr enabled =>
    simp only [signalStep, Option.ite_none_right_eq_some, Option.some.injEq] at stepped
    rcases stepped with ⟨interrupt, rfl⟩
    exact (Signal.alive_of_interrupt interrupt).mp (known.access_forced present unharmed)
  | dpc =>
    simp only [signalStep, Option.ite_none_right_eq_some, Option.some.injEq] at stepped
    rcases stepped with ⟨queued, rfl⟩
    have interrupt := counted.queued queued
    exact (Signal.alive_of_interrupt interrupt).mp (known.access_forced present unharmed)
  | inject =>
    simp only [signalStep, Option.ite_none_right_eq_some, Option.some.injEq] at stepped
    rcases stepped with ⟨returned, rfl⟩
    have interrupt := Signal.interrupt_of_returned returned
    exact (Signal.alive_of_interrupt interrupt).mp (known.access_forced present unharmed)

end Count

section Step

variable {pdos : Nat → PdoDeviceData} {writes : Bool}

theorem known_preserved (s : State) (action : Action) (next : State) (known : Known s)
    (guarded : orderly writes s action = true) (stepped : step pdos writes s action = some next) :
    Known next := by
  simp only [step, Option.ite_none_left_eq_some] at stepped
  rcases stepped with ⟨_, stepped⟩
  cases action with
  | deviceShm pdo request cookie accepted =>
    rw [← Option.some.inj stepped]
    exact known.deviceShm _ request cookie pdo accepted
  | use id use =>
    simp only [Option.bind_eq_some_iff] at stepped
    rcases stepped with ⟨signal, present, stepped⟩
    simp only [orderly, present, Option.all_some] at guarded
    exact signalStep_preserved known present guarded stepped

theorem known_forced (s : State) (action : Action) (next : State) (known : Known s)
    (stepped : step pdos writes s action = some next) (lifetime : Lifetime next) :
    orderly writes s action = true := by
  simp only [step, Option.ite_none_left_eq_some] at stepped
  rcases stepped with ⟨_, stepped⟩
  cases action with
  | deviceShm pdo request cookie accepted => rfl
  | use id use =>
    simp only [Option.bind_eq_some_iff] at stepped
    rcases stepped with ⟨signal, present, stepped⟩
    simp only [orderly, present, Option.all_some]
    exact signalStep_forced known present stepped lifetime.unharmed

end Step

/-- The one reference of a signal is the host's, while the list, the interrupt and the caller keep
    pointers to it: no freed signal is used in exactly the runs in which the host closes a signal only
    after its last use in the guest, and sends nothing when the interrupt could not be created. -/
theorem signal_lifetime (pdos : Nat → PdoDeviceData) (initialised writes : Bool)
    (actions : List Action) :
    (machine pdos initialised writes).Throughout Lifetime (machine pdos initialised writes).start
        actions ↔
      (machine pdos initialised writes).Meets
        ((machine pdos initialised writes).OnSteps fun s action => orderly writes s action = true)
        (machine pdos initialised writes).start actions := by
  apply Machine.throughout_iff_guarded Known _ known_preserved known_forced
    (known_start pdos initialised writes)
  intro s known
  exact known.lifetime

def onePage : ShmRequest := ⟨0#32, 4096#64, 0#64, 4096#64, 4096#64, true, 0#32⟩

def interruptFails : List Action :=
  [.deviceShm 0 onePage (some 8192#64) true, .use 0 (.interruptCreate false), .use 0 .shmclose]

theorem close_frees_again :
    let m := machine (fun _ => ⟨1#64, 1#64, 1#64⟩) false false
    let final := (m.run m.start interruptFails).get (by decide)
    ¬ Lifetime final ∧ final.offended = true ∧ final.signals.map Signal.frees = [2] := by
  refine ⟨?_, by decide, by decide⟩
  intro lifetime
  have unharmed := lifetime.unharmed
  revert unharmed
  decide

end Vbus.SignalLifetime
