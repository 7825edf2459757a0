import AlacrityDrivers.Vbus.ChildList
import AlacrityDrivers.Vbus.EventRing
import AlacrityDrivers.Vbus.SignalLifetime

namespace Vbus.EventPipeline

open Transition EventRing

/-- The calls that the `switch` of `eventq_wakeup` makes. A handle of a signal is its cookie. -/
inductive Call where
  | eventDevadd (id : BitVec 64) (type : List UInt8)
  | eventDevdrop (handle : BitVec 64)
  | eventShmsignal (cookie : Nat)
  | eventShmclose (cookie : Nat)

def call (event : VbusPciEvent) : Option Call :=
  match event.eventid with
  | 0 => some (.eventDevadd (BitVec.ofNat 64 event.word) (event.type.map UInt8.ofNat))
  | 1 => some (.eventDevdrop (BitVec.ofNat 64 event.word))
  | 2 => some (.eventShmsignal event.word)
  | 3 => some (.eventShmclose event.word)
  | _ => none

def Call.child : Call → Option ChildList.Action
  | .eventDevadd id type => some (.devadd id type)
  | .eventDevdrop handle => some (.devdrop handle)
  | _ => none

def Call.signal : Call → Option SignalLifetime.Action
  | .eventShmsignal cookie => some (.use cookie .shmsignal)
  | .eventShmclose cookie => some (.use cookie .shmclose)
  | _ => none

structure Devices where
  enumeration : ChildList.Enumeration
  signals : SignalLifetime.State

structure State where
  ring : EventRing.State
  devices : Devices

inductive Action where
  | ring (action : EventRing.Action)
  | framework (action : ChildList.Action)
  | guest (action : SignalLifetime.Action)

def childEvent (event : VbusPciEvent) : Option ChildList.Action := (call event).bind Call.child

def signalEvent (event : VbusPciEvent) : Option SignalLifetime.Action := (call event).bind Call.signal

def hostsChild : ChildList.Action → Option ChildList.Action
  | .devadd id type => some (.devadd id type)
  | .devdrop handle => some (.devdrop handle)
  | _ => none

def hostsSignal : SignalLifetime.Action → Option SignalLifetime.Action
  | .use id .shmsignal => some (.use id .shmsignal)
  | .use id .shmclose => some (.use id .shmclose)
  | _ => none

section Pipeline

variable (pdos : Nat → PdoDeviceData) (initialised writes : Bool)

def dispatch (devices : Devices) (event : VbusPciEvent) : Option Devices :=
  match call event with
  | none => some devices
  | some (.eventDevadd id type) =>
    (ChildList.step devices.enumeration (.devadd id type)).map fun e =>
      { devices with enumeration := e }
  | some (.eventDevdrop handle) =>
    (ChildList.step devices.enumeration (.devdrop handle)).map fun e =>
      { devices with enumeration := e }
  | some (.eventShmsignal cookie) =>
    (SignalLifetime.step pdos writes devices.signals (.use cookie .shmsignal)).map fun signals =>
      { devices with signals := signals }
  | some (.eventShmclose cookie) =>
    (SignalLifetime.step pdos writes devices.signals (.use cookie .shmclose)).map fun signals =>
      { devices with signals := signals }

def dispatchAll : Devices → List VbusPciEvent → Option Devices
  | devices, [] => some devices
  | devices, event :: rest =>
    (dispatch pdos writes devices event).bind fun after => dispatchAll after rest

/-- A pass of the loop handles the event that it dispatches; the framework creates and opens PDOs, and
    the guest uses its signals, at any time. -/
def step (size : RingSize) (s : State) : Action → Option State
  | .ring action =>
    (EventRing.step size s.ring action).bind fun ring =>
      (dispatchAll pdos writes s.devices
        ((ring.dispatched.drop s.ring.dispatched.length).map Posting.event)).map fun devices =>
          ⟨ring, devices⟩
  | .framework action =>
    if hostsChild action = none then
      (ChildList.step s.devices.enumeration action).map fun e =>
        { s with devices := { s.devices with enumeration := e } }
    else none
  | .guest action =>
    if hostsSignal action = none then
      (SignalLifetime.step pdos writes s.devices.signals action).map fun signals =>
        { s with devices := { s.devices with signals := signals } }
    else none

def machine (size : RingSize) : Machine State Action where
  start :=
    { ring := (EventRing.machine size).start
      devices :=
        { enumeration := ChildList.machine.start
          signals := (SignalLifetime.machine pdos initialised writes).start } }
  step := step pdos writes size

structure Follows (devices : Devices) (handled : List VbusPciEvent) : Prop where
  children : ∃ actions,
    ChildList.machine.run ChildList.machine.start actions = some devices.enumeration ∧
      actions.filterMap hostsChild = handled.filterMap childEvent
  signals : ∃ actions,
    (SignalLifetime.machine pdos initialised writes).run
        (SignalLifetime.machine pdos initialised writes).start actions = some devices.signals ∧
      actions.filterMap hostsSignal = handled.filterMap signalEvent

variable {pdos initialised writes} {devices after : Devices} {handled events : List VbusPciEvent}
  {event : VbusPciEvent}

theorem Follows.child (follows : Follows pdos initialised writes devices handled)
    {action : ChildList.Action} {e : ChildList.Enumeration} {more : List VbusPciEvent}
    (stepped : ChildList.step devices.enumeration action = some e)
    (same : (hostsChild action).toList = more.filterMap childEvent)
    (other : more.filterMap signalEvent = []) :
    Follows pdos initialised writes { devices with enumeration := e } (handled ++ more) := by
  obtain ⟨actions, ran, host⟩ := follows.children
  obtain ⟨uses, used, cookies⟩ := follows.signals
  refine ⟨⟨actions ++ [action], Machine.run_snoc ran stepped, ?_⟩, ⟨uses, used, ?_⟩⟩
  · rw [List.filterMap_append, List.filterMap_append, host, ← same]
    rfl
  · rw [List.filterMap_append, other, List.append_nil, cookies]

theorem Follows.signal (follows : Follows pdos initialised writes devices handled)
    {action : SignalLifetime.Action} {signals : SignalLifetime.State} {more : List VbusPciEvent}
    (stepped : SignalLifetime.step pdos writes devices.signals action = some signals)
    (same : (hostsSignal action).toList = more.filterMap signalEvent)
    (other : more.filterMap childEvent = []) :
    Follows pdos initialised writes { devices with signals := signals } (handled ++ more) := by
  obtain ⟨actions, ran, host⟩ := follows.children
  obtain ⟨uses, used, cookies⟩ := follows.signals
  refine ⟨⟨actions, ran, ?_⟩, ⟨uses ++ [action], Machine.run_snoc used stepped, ?_⟩⟩
  · rw [List.filterMap_append, other, List.append_nil, host]
  · rw [List.filterMap_append, List.filterMap_append, cookies, ← same]
    rfl

theorem dispatch_follows (follows : Follows pdos initialised writes devices handled)
    (dispatched : dispatch pdos writes devices event = some after) :
    Follows pdos initialised writes after (handled ++ [event]) := by
  unfold dispatch at dispatched
  split at dispatched
  · rename_i ignored
    cases dispatched
    obtain ⟨actions, ran, host⟩ := follows.children
    obtain ⟨uses, used, cookies⟩ := follows.signals
    refine ⟨⟨actions, ran, ?_⟩, ⟨uses, used, ?_⟩⟩
    · rw [List.filterMap_append, host]
      simp [childEvent, ignored]
    · rw [List.filterMap_append, cookies]
      simp [signalEvent, ignored]
  all_goals
    rename_i called
    obtain ⟨next, stepped, rfl⟩ := Option.map_eq_some_iff.mp dispatched
  · exact follows.child stepped (by simp [childEvent, called, Call.child, hostsChild])
      (by simp [signalEvent, called, Call.signal])
  · exact follows.child stepped (by simp [childEvent, called, Call.child, hostsChild])
      (by simp [signalEvent, called, Call.signal])
  · exact follows.signal stepped (by simp [signalEvent, called, Call.signal, hostsSignal])
      (by simp [childEvent, called, Call.child])
  · exact follows.signal stepped (by simp [signalEvent, called, Call.signal, hostsSignal])
      (by simp [childEvent, called, Call.child])

theorem dispatchAll_follows (follows : Follows pdos initialised writes devices handled)
    (dispatched : dispatchAll pdos writes devices events = some after) :
    Follows pdos initialised writes after (handled ++ events) := by
  induction events generalizing devices handled with
  | nil =>
    cases dispatched
    rw [List.append_nil]
    exact follows
  | cons event rest ih =>
    simp only [dispatchAll, Option.bind_eq_some_iff] at dispatched
    obtain ⟨middle, first, dispatched⟩ := dispatched
    rw [← List.singleton_append, ← List.append_assoc]
    exact ih (dispatch_follows follows first) dispatched

theorem dispatched_grows {size : RingSize} {ring next : EventRing.State} {action : EventRing.Action}
    (stepped : EventRing.step size ring action = some next) : ring.dispatched <+: next.dispatched := by
  cases action with
  | post event =>
    simp only [EventRing.step, post, Option.map_eq_some_iff] at stepped
    obtain ⟨pushed, _, rfl⟩ := stepped
    split
    · exact List.prefix_refl _
    · exact List.prefix_refl _
  | enter =>
    simp only [EventRing.step, enter, Option.ite_none_right_eq_some, Option.map_eq_some_iff] at stepped
    obtain ⟨_, iter, _, rfl⟩ := stepped
    exact List.prefix_refl _
  | iterate =>
    simp only [EventRing.step, Option.map_eq_some_iff] at stepped
    obtain ⟨iter, _, rfl⟩ := stepped
    unfold iterate
    split
    · exact List.prefix_refl _
    · split
      · exact List.prefix_append _ _
      · exact List.prefix_refl _

structure Known (size : RingSize) (s : State) : Prop where
  ring : (EventRing.machine size).Reachable s.ring
  follows : Follows pdos initialised writes s.devices (s.ring.dispatched.map Posting.event)

theorem known_step {size : RingSize} {s next : State} {action : Action}
    (known : @Known pdos initialised writes size s)
    (stepped : step pdos writes size s action = some next) :
    @Known pdos initialised writes size next := by
  cases action with
  | ring action =>
    simp only [step, Option.bind_eq_some_iff, Option.map_eq_some_iff] at stepped
    obtain ⟨ring, moved, devices, handled, rfl⟩ := stepped
    obtain ⟨more, grown⟩ := dispatched_grows moved
    refine ⟨.step known.ring True.intro moved, ?_⟩
    rw [← grown, List.drop_left] at handled
    dsimp only
    rw [← grown, List.map_append]
    exact dispatchAll_follows known.follows handled
  | framework action =>
    simp only [step, Option.ite_none_right_eq_some, Option.map_eq_some_iff] at stepped
    obtain ⟨own, e, stepped, rfl⟩ := stepped
    have follows := @Follows.child pdos initialised writes _ _ known.follows _ _ [] stepped
      (by rw [own]; rfl) rfl
    rw [List.append_nil] at follows
    exact ⟨known.ring, follows⟩
  | guest action =>
    simp only [step, Option.ite_none_right_eq_some, Option.map_eq_some_iff] at stepped
    obtain ⟨own, signals, stepped, rfl⟩ := stepped
    have follows := @Follows.signal pdos initialised writes _ _ known.follows _ _ [] stepped
      (by rw [own]; rfl) rfl
    rw [List.append_nil] at follows
    exact ⟨known.ring, follows⟩

end Pipeline

end Vbus.EventPipeline
