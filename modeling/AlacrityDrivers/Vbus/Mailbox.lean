import AlacrityDrivers.Library.LockedObject

namespace Vbus.Mailbox

open Transition LockedObject

/-- `struct vbus_pci_call_desc` -/
structure CallDesc where
  vector : BitVec 32
  len : BitVec 32
  datap : BitVec 64
deriving DecidableEq, Repr

/-- `struct vbus_pci_fastcall_desc` -/
structure FastcallDesc where
  call : CallDesc
  result : BitVec 32
deriving DecidableEq, Repr

structure Request where
  nr : BitVec 32
  data : BitVec 64
  len : BitVec 32
deriving DecidableEq, Repr

def Request.desc (request : Request) : CallDesc := ⟨request.nr, request.len, request.data⟩

section Buscall

variable {η : Type}

/-- What the host does when a port is written, with the memory that it shares: it may store a
    result there. -/
structure Host (η : Type) where
  outl : η → BitVec 16 → BitVec 32 → FastcallDesc → η × Option (BitVec 32)

structure Shared (η : Type) where
  fastparams : FastcallDesc
  host : η

/-- `WRITE_PORT_ULONG`: the processor's ports have 16 bits. -/
def writePortUlong (host : Host η) (port : BitVec 64) (value : BitVec 32) (s : Shared η) : Shared η :=
  let heard := host.outl s.host (port.setWidth 16) value s.fastparams
  { fastparams := { s.fastparams with result := heard.2.getD s.fastparams.result }
    host := heard.1 }

/-- The statements of `vbus_pci_buscall` between acquiring and releasing `fastlock`. -/
inductive BuscallAt where
  | vector (request : Request)
  | len (request : Request)
  | datap (request : Request)
  | doorbell
  | result

/-- The port is the address of the variable `vbus_pci.signals`. -/
def buscallAccess (host : Host η) (addressOfSignals : BitVec 64) (at_place : BuscallAt)
    (s : Shared η) : Shared η × (BuscallAt ⊕ Int) :=
  match at_place with
  | .vector request =>
    ({ s with fastparams := { s.fastparams with
        call := { s.fastparams.call with vector := request.nr } } }, .inl (.len request))
  | .len request =>
    ({ s with fastparams := { s.fastparams with
        call := { s.fastparams.call with len := request.len } } }, .inl (.datap request))
  | .datap request =>
    ({ s with fastparams := { s.fastparams with
        call := { s.fastparams.call with datap := request.data } } }, .inl .doorbell)
  | .doorbell => (writePortUlong host addressOfSignals 0#32 s, .inl .result)
  | .result => (s, .inr s.fastparams.result.toInt)

def vbusPciBuscall (host : Host η) (addressOfSignals : BitVec 64) :
    Sections (Shared η) Request BuscallAt Int where
  enter := .vector
  access := buscallAccess host addressOfSignals

/-- What the call is meant to be: the host answers this descriptor. -/
def hostCall (host : Host η) (addressOfSignals : BitVec 64) (request : Request) (s : Shared η) :
    Shared η × Int :=
  let after := writePortUlong host addressOfSignals 0#32
    { s with fastparams := { s.fastparams with call := request.desc } }
  (after, after.fastparams.result.toInt)

variable {host : Host η} {addressOfSignals : BitVec 64}

theorem buscall_complete (request : Request) (s : Shared η) :
    Executes (vbusPciBuscall host addressOfSignals)
      ((vbusPciBuscall host addressOfSignals).enter request) s
      (hostCall host addressOfSignals request s).1 (hostCall host addressOfSignals request s).2 := by
  apply Executes.next rfl
  apply Executes.next rfl
  apply Executes.next rfl
  apply Executes.next rfl
  exact Executes.last rfl

/-- What the host does for every call that reaches it at that port: it stores a result. -/
structure Keeps (host : Host η) (addressOfSignals : BitVec 64) (known : η → Prop)
    (promise : Request → BitVec 32 → Prop) : Prop where
  answers : ∀ h (request : Request) old, known h → ∃ result,
    (host.outl h (addressOfSignals.setWidth 16) 0#32 ⟨request.desc, old⟩).2 = some result ∧
      promise request result
  known : ∀ h (request : Request) old, known h →
    known (host.outl h (addressOfSignals.setWidth 16) 0#32 ⟨request.desc, old⟩).1

theorem hostCall_kept {known : η → Prop} {promise : Request → BitVec 32 → Prop}
    (keeps : Keeps host addressOfSignals known promise) (request : Request) (s : Shared η)
    (holds : known s.host) :
    known (hostCall host addressOfSignals request s).1.host ∧
      ∃ result : BitVec 32, (hostCall host addressOfSignals request s).2 = result.toInt ∧
        promise request result := by
  obtain ⟨result, answered, promised⟩ := keeps.answers s.host request s.fastparams.result holds
  refine ⟨keeps.known s.host request s.fastparams.result holds, result, ?_, promised⟩
  simp only [hostCall, writePortUlong, answered, Option.getD_some]

def buscalls (host : Host η) (addressOfSignals : BitVec 64) (start : Shared η) :
    Observed (State (Shared η) Request BuscallAt Int) (Action Request) (Event Request Int) :=
  observed (vbusPciBuscall host addressOfSignals) start

/-- No call is disturbed by another one, and each gets the answer to its own descriptor. -/
theorem buscall_is_atomic (host : Host η) (addressOfSignals : BitVec 64) (start : Shared η)
    (actions : List (Action Request)) (final : State (Shared η) Request BuscallAt Int)
    (ran : (buscalls host addressOfSignals start).machine.run
      (buscalls host addressOfSignals start).machine.start actions = some final) :
    Serialized (vbusPciBuscall host addressOfSignals) (hostCall host addressOfSignals) start actions
        final ∧
      ∀ known promise, Keeps host addressOfSignals known promise → known start.host →
        Answered (fun request rc => ∃ result : BitVec 32, rc = result.toInt ∧ promise request result)
          ((buscalls host addressOfSignals start).trace
            (buscalls host addressOfSignals start).machine.start actions) := by
  refine ⟨serialized buscall_complete ran, ?_⟩
  intro known promise keeps initial
  have kept := sections_kept
    (fun request rc => ∃ result : BitVec 32, rc = result.toInt ∧ promise request result)
    (fun s : Shared η => known s.host) buscall_complete initial (hostCall_kept keeps) ran
  exact kept.1

def overlap (first second : Request) (accesses : Nat) : List (Action Request) :=
  [.call 0 first, .acquire 0, .call 1 second] ++ List.replicate accesses (.access 0) ++
    [.release 0, .acquire 1] ++ List.replicate accesses (.access 1) ++
    [.conclude 0, .release 1, .conclude 1]

def successor : Host Unit := ⟨fun _ _ _ params => ((), some (params.call.vector + 1#32))⟩

theorem overlap_allowed :
    ((buscalls successor 0#64 ⟨⟨⟨0#32, 0#32, 0#64⟩, 0#32⟩, ()⟩).machine.run
      (buscalls successor 0#64 ⟨⟨⟨0#32, 0#32, 0#64⟩, 0#32⟩, ()⟩).machine.start
      (overlap ⟨2#32, 8#64, 4#32⟩ ⟨3#32, 16#64, 4#32⟩ 5)).isSome := by
  decide

theorem buscall_is_atomic_overlap :
    Answered (fun (request : Request) rc =>
        ∃ result : BitVec 32, rc = result.toInt ∧ result = request.nr + 1#32)
      [.called 0 ⟨2#32, 8#64, 4#32⟩, .called 1 ⟨3#32, 16#64, 4#32⟩, .returned 0 3,
        .returned 1 4] := by
  have keeps : Keeps successor 0#64 (fun _ => True) fun request result =>
      result = request.nr + 1#32 :=
    ⟨fun _ request _ _ => ⟨request.nr + 1#32, rfl, rfl⟩, fun _ _ _ _ => True.intro⟩
  exact (buscall_is_atomic successor 0#64 _ (overlap ⟨2#32, 8#64, 4#32⟩ ⟨3#32, 16#64, 4#32⟩ 5) _
    (Option.some_get overlap_allowed).symm).2 _ _ keeps True.intro

/-- The host behind a window of `struct vbus_pci_signals`: it hears what is written there. -/
def bridgeHost (signals : BitVec 16) (eventq fastcall shmsignal : η → BitVec 32 → FastcallDesc →
    η × Option (BitVec 32)) : Host η where
  outl h port value params :=
    if port = signals then eventq h value params
    else if port = signals + 4#16 then fastcall h value params
    else if port = signals + 8#16 then shmsignal h value params
    else (h, none)

/-- `fastparams` is static. -/
def booted (h : η) : Shared η := ⟨⟨⟨0#32, 0#32, 0#64⟩, 0#32⟩, h⟩

def Unheard (h : η) (s : Shared η) : Prop := s.host = h ∧ s.fastparams.result = 0#32

theorem access_unheard {h : η}
    (deaf : ∀ h value params, host.outl h (addressOfSignals.setWidth 16) value params = (h, none))
    (at_place : BuscallAt) (s : Shared η) (unheard : Unheard h s) :
    Unheard h ((vbusPciBuscall host addressOfSignals).access at_place s).1 := by
  cases at_place with
  | doorbell =>
    simp only [Unheard, vbusPciBuscall, buscallAccess, writePortUlong, deaf, Option.getD_none]
    exact unheard
  | _ => exact unheard

theorem hostCall_unheard {h : η}
    (deaf : ∀ h value params, host.outl h (addressOfSignals.setWidth 16) value params = (h, none))
    (request : Request) (s : Shared η) (unheard : Unheard h s) :
    Unheard h (hostCall host addressOfSignals request s).1 ∧
      (hostCall host addressOfSignals request s).2 = 0 := by
  obtain ⟨same, zero⟩ := unheard
  simp [Unheard, hostCall, writePortUlong, deaf, same, zero]

/-- The address of the variable `vbus_pci.signals` is no port of the window that it holds. Then the host
    learns of no call, and each returns the 0 that `fastparams` holds from the start. -/
theorem buscall_unheard (signals : BitVec 16) (addressOfSignals : BitVec 64)
    (eventq fastcall shmsignal : η → BitVec 32 → FastcallDesc → η × Option (BitVec 32)) (h : η)
    (apart : addressOfSignals.setWidth 16 ∉ [signals, signals + 4#16, signals + 8#16])
    (actions : List (Action Request)) (final : State (Shared η) Request BuscallAt Int)
    (ran : (buscalls (bridgeHost signals eventq fastcall shmsignal) addressOfSignals
        (booted h)).machine.run
      (buscalls (bridgeHost signals eventq fastcall shmsignal) addressOfSignals
        (booted h)).machine.start actions = some final) :
    final.shared.host = h ∧
      Answered (fun _ rc => rc = 0)
        ((buscalls (bridgeHost signals eventq fastcall shmsignal) addressOfSignals (booted h)).trace
          (buscalls (bridgeHost signals eventq fastcall shmsignal) addressOfSignals
            (booted h)).machine.start actions) := by
  have deaf : ∀ h value params, (bridgeHost signals eventq fastcall shmsignal).outl h
      (addressOfSignals.setWidth 16) value params = (h, none) := by
    intro h value params
    simp only [List.mem_cons, List.not_mem_nil, or_false, not_or] at apart
    simp only [bridgeHost, apart, if_false]
  have initial : Unheard h (booted h) := ⟨rfl, rfl⟩
  have shared := shared_kept (Unheard h) initial (access_unheard deaf) ran
  have kept := sections_kept (fun _ rc => rc = 0) (Unheard h)
    buscall_complete initial (hostCall_unheard deaf) ran
  exact ⟨shared.1, kept.1⟩

def countingHost (signals : BitVec 16) : Host Nat :=
  bridgeHost signals (fun h _ _ => (h, none)) (fun h _ _ => (h + 1, some 1#32)) fun h _ _ => (h, none)

theorem unheard_allowed :
    ((buscalls (countingHost 0xc000#16) 0x12345678#64 (booted 0)).machine.run
      (buscalls (countingHost 0xc000#16) 0x12345678#64 (booted 0)).machine.start
      (overlap ⟨2#32, 8#64, 4#32⟩ ⟨3#32, 16#64, 4#32⟩ 5)).isSome := by
  decide

theorem buscall_unheard_overlap :
    Answered (fun _ rc => rc = 0)
      ((buscalls (countingHost 0xc000#16) 0x12345678#64 (booted 0)).trace
        (buscalls (countingHost 0xc000#16) 0x12345678#64 (booted 0)).machine.start
        (overlap ⟨2#32, 8#64, 4#32⟩ ⟨3#32, 16#64, 4#32⟩ 5)) :=
  (buscall_unheard 0xc000#16 0x12345678#64 _ _ _ 0 (by decide) _ _
    (Option.some_get unheard_allowed).symm).2

end Buscall

section Bridgecall

variable {δ : Type}

structure Device (δ : Type) where
  write : δ → Nat → BitVec 32 → δ
  read : δ → Nat → δ × BitVec 32

/-- `sizeof(struct vbus_pci_call_desc)` -/
def sizeofCallDesc : Nat := 16

def CallDesc.words (params : CallDesc) : List (BitVec 32) :=
  [params.vector, params.len, params.datap.setWidth 32, (params.datap >>> 32).setWidth 32]

def bridgecallLen : Nat := (sizeofCallDesc >>> 2) + sizeofCallDesc % 4

/-- `vbus_pci_bridgecall` under `vbus_pci.lock`: the words still to write from an offset on. -/
inductive BridgecallAt where
  | write (offset : Nat) (word : BitVec 32) (rest : List (BitVec 32))
  | read

def BridgecallAt.writing (offset : Nat) : List (BitVec 32) → BridgecallAt
  | [] => .read
  | word :: rest => .write offset word rest

def bridgecallAccess (device : Device δ) (at_place : BridgecallAt) (d : δ) :
    δ × (BridgecallAt ⊕ Int) :=
  match at_place with
  | .write offset word rest =>
    (device.write d offset word, .inl (BridgecallAt.writing (offset + 4) rest))
  | .read => ((device.read d 0).1, .inr (device.read d 0).2.toInt)

def vbusPciBridgecall (device : Device δ) : Sections δ Request BridgecallAt Int where
  enter request := BridgecallAt.writing 0 (request.desc.words.take bridgecallLen)
  access := bridgecallAccess device

def writeRegisterBuffer (device : Device δ) (d : δ) : Nat → List (BitVec 32) → δ
  | _, [] => d
  | offset, word :: rest => writeRegisterBuffer device (device.write d offset word) (offset + 4) rest

def deviceCall (device : Device δ) (request : Request) (d : δ) : δ × Int :=
  let answered := device.read (writeRegisterBuffer device d 0 request.desc.words) 0
  (answered.1, answered.2.toInt)

variable {device : Device δ}

theorem bridgecall_executes (words : List (BitVec 32)) (offset : Nat) (d : δ) :
    Executes (vbusPciBridgecall device) (BridgecallAt.writing offset words) d
      (device.read (writeRegisterBuffer device d offset words) 0).1
      (device.read (writeRegisterBuffer device d offset words) 0).2.toInt := by
  induction words generalizing offset d with
  | nil => exact Executes.last rfl
  | cons word rest ih => exact Executes.next rfl (ih (offset + 4) (device.write d offset word))

theorem bridgecall_words (params : CallDesc) : params.words.take bridgecallLen = params.words := by
  rfl

theorem bridgecall_complete (request : Request) (d : δ) :
    Executes (vbusPciBridgecall device) ((vbusPciBridgecall device).enter request) d
      (deviceCall device request d).1 (deviceCall device request d).2 := by
  have executes := @bridgecall_executes _ device request.desc.words 0 d
  rw [← bridgecall_words] at executes
  exact executes

def bridgecalls (device : Device δ) (start : δ) :
    Observed (State δ Request BridgecallAt Int) (Action Request) (Event Request Int) :=
  observed (vbusPciBridgecall device) start

theorem bridgecall_is_atomic (device : Device δ) (start : δ) (actions : List (Action Request))
    (final : State δ Request BridgecallAt Int)
    (ran : (bridgecalls device start).machine.run (bridgecalls device start).machine.start actions =
      some final) :
    Serialized (vbusPciBridgecall device) (deviceCall device) start actions final :=
  serialized bridgecall_complete ran

def echo : Device (List (Nat × BitVec 32)) where
  write d offset word := d ++ [(offset, word)]
  read d _ := (d, (d.head?.map Prod.snd).getD 0#32)

theorem bridgecall_overlap_allowed :
    ((bridgecalls echo []).machine.run (bridgecalls echo []).machine.start
      (overlap ⟨2#32, 8#64, 4#32⟩ ⟨3#32, 16#64, 4#32⟩ 5)).isSome := by
  decide

theorem bridgecall_is_atomic_overlap :
    Serialized (vbusPciBridgecall echo) (deviceCall echo) []
      (overlap ⟨2#32, 8#64, 4#32⟩ ⟨3#32, 16#64, 4#32⟩ 5)
      (((bridgecalls echo []).machine.run (bridgecalls echo []).machine.start
        (overlap ⟨2#32, 8#64, 4#32⟩ ⟨3#32, 16#64, 4#32⟩ 5)).get bridgecall_overlap_allowed) :=
  bridgecall_is_atomic echo [] _ _ (Option.some_get bridgecall_overlap_allowed).symm

end Bridgecall

end Vbus.Mailbox
