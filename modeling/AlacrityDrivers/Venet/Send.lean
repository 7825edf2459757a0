import AlacrityDrivers.Library.Transition
import AlacrityDrivers.Venet.Adapter
import AlacrityDrivers.Venet.Cancel

namespace Venet

open Transition

/-- What a run is given: the NBLs the protocols own, the number of TCBs, and whether acquiring a
    spin lock again lets its holder through, as it does where locks only raise the IRQL. -/
structure Params where
  nbls : Nat → Nbl
  numTcbs : Nat
  reentrant : Bool

/-- The send side of an adapter: the queue with all `Next` fields, the counts in
    `MiniportReserved[0]`, and `sendingNBL`. The logs keep, in order, the NBLs handed over, those
    queued, those `SrProcessNBL` returned success for, those `SrCancelQueued` removed, and every
    completion with its status. -/
structure Sends where
  memory : QueueMemory
  reserved : Nat → Nat
  sendingNBL : Option Nat
  handed : List Nat
  accepted : List Nat
  succeeded : List Nat
  cancelled : List Nat
  completed : List (Nat × NdisStatus)

def Sends.initial : Sends where
  memory := ⟨fun _ => none, .init⟩
  reserved := fun _ => 0
  sendingNBL := none
  handed := []
  accepted := []
  succeeded := []
  cancelled := []
  completed := []

def Sends.complete (sends : Sends) (nbls : List Nat) (status : NdisStatus) : Sends :=
  { sends with completed := sends.completed ++ nbls.map fun nbl => (nbl, status) }

/-- One pass of the queueing loop of `VenetSendNetBufs`. -/
def Sends.enqueue (nbls : Nat → Nbl) (sends : Sends) (nbl : Nat) : Sends :=
  { sends with
    reserved := Function.update sends.reserved nbl (srCountNBL (nbls nbl).netBuffers)
    memory := queueEnqueTail sends.memory nbl
    accepted := sends.accepted ++ [nbl] }

def Sends.handOver (sends : Sends) (chain : List Nat) : Sends :=
  { sends with handed := sends.handed ++ chain }

/-- `SrCancelQueued` for the NBLs with a cancel id, or for all if it is `NULL`. -/
def Sends.cancelQueued (nbls : Nat → Nbl) (sends : Sends) (cancelId : Nat) (reason : NdisStatus) :
    Sends :=
  let matching := fun nbl => cancelId == 0 || (nbls nbl).cancelId == cancelId
  let (memory, taken) := srCancelQueued matching (sends.accepted.length + 1) sends.memory
  { sends with memory := memory, cancelled := sends.cancelled ++ taken }.complete taken reason

/-- The places in `SrProcessNBL`, with the number of the current `NET_BUFFER`. -/
inductive NblPc where
  | check
  | alloc (nb : Nat)
  | allocEvent (nb tcb : Nat)
  | copy (nb tcb : Nat)
  | submit (nb tcb : Nat)
  | release (tcb : Nat) (rc : NdisStatus)
  | releaseEvent (rc : NdisStatus)
  | finish (rc : NdisStatus)
  | fault
deriving DecidableEq, Repr

/-- The places of one thread in the entry points. `fault` is an access through `NULL`. -/
inductive Pc where
  | processQueue
  | processNbl (pc : NblPc)
  | resetTest
  | resetFlag
  | resetQueued
  | resetEvent
  | resetDone
  | pauseFlag
  | pauseWait
  | restartFlag
  | restartEvent
deriving DecidableEq, Repr

inductive HaltPc where
  | notCalled
  | flagged
  | swept
  | returned
deriving DecidableEq, Repr

/-- An adapter, the holder of `sendLock` between two critical sections that are not separated by a
    release, the threads, and the TCBs the bus has yet to complete. `quiesced` holds from the return
    of `VenetPause` to the next `VenetRestart`; `activity` counts the TCBs allocated or submitted
    since that return. -/
structure State where
  flags : BitVec 32
  sendLock : Option Nat
  sends : Sends
  tx : Tx
  submitted : List Nat
  threads : Nat → Option Pc
  halt : HaltPc
  quiesced : Bool
  activity : Nat

inductive Action where
  | sendNetBufs (thread : Nat) (chain : List Nat)
  | run (thread bytes : Nat)
  | cancelSend (cancelId : Nat)
  | txCompletion (tcb : Nat)
  | reset (thread : Nat)
  | pause (thread : Nat)
  | restart (thread : Nat)
  | halt

def State.goto (s : State) (thread : Nat) (pc : Option Pc) : State :=
  { s with threads := Function.update s.threads thread pc }

/-- `VenetSendNetBufs` up to `SrProcessQueue`. -/
def venetSendNetBufs (p : Params) (s : State) (thread : Nat) (chain : List Nat) : State :=
  let sends := s.sends.handOver chain
  if venetIsNotReady s.flags then
    { s with sends := sends.complete chain (srGetAdapterStatus s.flags) }
  else { s with sends := chain.foldl (Sends.enqueue p.nbls) sends }.goto thread (some .processQueue)

def venetTxCompletion (s : State) (tcb : Nat) : State :=
  let block := { s.tx.tcbs tcb with nbCount := decrementULong (s.tx.tcbs tcb).nbCount }
  { s with
    tx := { s.tx with tcbs := Function.update s.tx.tcbs tcb block }
    submitted := s.submitted.filter (· ≠ tcb)
    sends := if block.nbCount = 0 then s.sends.complete block.nbl.toList .success else s.sends }

/-- The loop of `SrProcessNBL` at a `NET_BUFFER`, or its end. -/
def loopPc (nbl : Nbl) (nb : Nat) : NblPc := if nb < nbl.netBuffers then .alloc nb else .finish .success

/-- One step of `SrProcessNBL` up to its return. `bytes` is what `SrCopyFrame` returns. -/
def processNblStep (p : Params) (s : State) (thread bytes nbl : Nat) : NblPc → Option State
  | .check =>
    some (s.goto thread (some (.processNbl
      (if s.tx.numTCBsFree < s.sends.reserved nbl then .finish .resources else loopPc (p.nbls nbl) 0))))
  | .alloc nb =>
    match allocTcbList s.tx nbl with
    | none => some (s.goto thread (some (.processNbl .fault)))
    | some (tcb, tx) =>
      some ({ s with tx := tx, activity := s.activity + 1 }.goto thread
        (some (.processNbl (.allocEvent nb tcb))))
  | .allocEvent nb tcb =>
    some ({ s with tx := allocTcbEvent s.tx }.goto thread (some (.processNbl (.copy nb tcb))))
  | .copy nb tcb =>
    some (s.goto thread (some (.processNbl
      (if copyStatus bytes = .success then .submit nb tcb else .release tcb (copyStatus bytes)))))
  | .submit nb tcb =>
    some ({ s with submitted := tcb :: s.submitted, activity := s.activity + 1 }.goto thread
      (some (.processNbl (loopPc (p.nbls nbl) (nb + 1)))))
  | .release tcb rc =>
    some ({ s with tx := releaseTcbList s.tx tcb }.goto thread (some (.processNbl (.releaseEvent rc))))
  | .releaseEvent rc =>
    some ({ s with tx := releaseTcbEvent s.tx }.goto thread (some (.processNbl (.finish rc))))
  | .finish _ => none
  | .fault => none

/-- The critical section after `SrProcessNBL`. On success the loop goes on without a release. -/
def finishNbl (s : State) (thread nbl : Nat) (rc : NdisStatus) : State :=
  if rc = .success then
    { s with
      sends := { s.sends with sendingNBL := none, succeeded := s.sends.succeeded ++ [nbl] }
      sendLock := some thread }.goto thread (some .processQueue)
  else
    { s with
      sends := { s.sends with sendingNBL := none, memory := queueEnqueHead s.sends.memory nbl }
      sendLock := none }.goto thread none

/-- The first critical section of a pass of `SrProcessQueue`. -/
def processQueue (s : State) (thread : Nat) : State :=
  let s := { s with sendLock := none }
  if s.sends.sendingNBL.isSome || queueEmpty s.sends.memory.queue || venetIsNotReady s.flags then
    s.goto thread none
  else
    let (nbl, memory) := queueDeque s.sends.memory
    { s with sends := { s.sends with memory := memory, sendingNBL := nbl } }.goto thread
      (some (.processNbl .check))

def State.canLock (p : Params) (s : State) (thread : Nat) : Bool :=
  s.sendLock == none || (s.sendLock == some thread && p.reentrant)

def threadStep (p : Params) (s : State) (thread bytes : Nat) : Pc → Option State
  | .processQueue => if s.canLock p thread then some (processQueue s thread) else none
  | .processNbl pc =>
    match s.sends.sendingNBL, pc with
    | some nbl, .finish rc => if s.canLock p thread then some (finishNbl s thread nbl rc) else none
    | some nbl, pc => processNblStep p s thread bytes nbl pc
    | none, _ => none
  | .resetTest =>
    some (s.goto thread (if venetTestFlag s.flags vnetAdapterHaltInProgress ||
      venetTestFlag s.flags vnetAdapterReset then none else some .resetFlag))
  | .resetFlag =>
    if s.sendLock = none then
      some ({ s with flags := venetSetFlag s.flags vnetAdapterReset }.goto thread (some .resetQueued))
    else none
  | .resetQueued =>
    if s.sendLock = none then
      some ({ s with sends := s.sends.cancelQueued p.nbls 0 .resetInProgress }.goto thread
        (some .resetEvent))
    else none
  | .resetEvent =>
    some ({ s with tx := { s.tx with sendEvent := true } }.goto thread (some .resetDone))
  | .resetDone =>
    some ({ s with flags := venetClearFlag s.flags vnetAdapterReset }.goto thread none)
  | .pauseFlag =>
    if s.sendLock = none then
      some ({ s with flags := venetSetFlag s.flags vnetAdapterPaused }.goto thread (some .pauseWait))
    else none
  | .pauseWait =>
    if s.tx.sendEvent then some ({ s with quiesced := true, activity := 0 }.goto thread none)
    else none
  | .restartFlag =>
    some ({ s with flags := venetClearFlag s.flags vnetAdapterPaused }.goto thread (some .restartEvent))
  | .restartEvent =>
    some ({ s with tx := { s.tx with sendEvent := true } }.goto thread none)

def haltStep (p : Params) (s : State) : Option State :=
  match s.halt with
  | .notCalled =>
    if s.sendLock = none then
      some { s with flags := venetSetFlag s.flags vnetAdapterHaltInProgress, halt := .flagged }
    else none
  | .flagged =>
    if s.sendLock = none then
      some { s with sends := s.sends.cancelQueued p.nbls 0 .failure, halt := .swept }
    else none
  | .swept => some { s with halt := .returned }
  | .returned => none

def step (p : Params) (s : State) (action : Action) : Option State :=
  if s.halt = .returned then none
  else match action with
    | .sendNetBufs thread chain =>
      if s.threads thread = none ∧ s.sendLock = none ∧ (s.sends.handed ++ chain).Nodup then
        some (venetSendNetBufs p s thread chain)
      else none
    | .run thread bytes => (s.threads thread).bind (threadStep p s thread bytes)
    | .cancelSend cancelId =>
      if s.sendLock = none then
        some { s with sends := s.sends.cancelQueued p.nbls cancelId .requestAborted }
      else none
    | .txCompletion tcb => if tcb ∈ s.submitted then some (venetTxCompletion s tcb) else none
    | .reset thread =>
      if s.threads thread = none then some (s.goto thread (some .resetTest)) else none
    | .pause thread =>
      if s.threads thread = none then some (s.goto thread (some .pauseFlag)) else none
    | .restart thread =>
      if s.threads thread = none then
        some ({ s with quiesced := false }.goto thread (some .restartFlag))
      else none
    | .halt => haltStep p s

/-- An adapter that `VenetInitialize` has set up. An update of the flags is one step here;
    `Venet.Availability` takes its read and its write apart. -/
def machine (p : Params) : Machine State Action where
  start :=
    { flags := venetClearFlag (venetSetFlag 0#32 vnetDisconnected) vnetDisconnected
      sendLock := none
      sends := .initial
      tx := venetSetupTx p.numTcbs
      submitted := []
      threads := fun _ => none
      halt := .notCalled
      quiesced := false
      activity := 0 }
  step := step p

def solo : Params := ⟨fun nbl => ⟨nbl + 1, 1, by decide⟩, 1, true⟩

end Venet
