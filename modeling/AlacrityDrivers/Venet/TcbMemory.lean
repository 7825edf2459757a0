import AlacrityDrivers.Library.DoublyLinked
import AlacrityDrivers.Library.Simulation
import AlacrityDrivers.Venet.SendInvariant

namespace Venet.TcbMemory

open Transition DoublyLinked

/-- The addresses of `LIST_ENTRY`s: the two heads in an adapter, and the one that every TCB begins
    with, which is the address of the TCB too. -/
inductive ListEntry where
  | tcbFree
  | tcbBusy
  | tcb (n : Nat)
deriving DecidableEq, Repr

/-- The transmit side of an adapter as it lies in memory. -/
structure TxMemory where
  links : Links ListEntry
  tcbs : ListEntry → Tcb
  numTCBsFree : Nat
  sendEvent : Bool

/-- The loop of `VenetSetupTx` over the TCBs from number `i` on, every allocation succeeding. -/
def setupTxLoop : Nat → Nat → Links ListEntry → Links ListEntry
  | 0, _, links => links
  | n + 1, i, links => setupTxLoop n (i + 1) (insertHeadList links .tcbFree (.tcb i))

/-- `VenetSetupTx` after `VenetSetupAdapter`, in a memory with any links. -/
def venetSetupTx (numTcbs : Nat) (links : Links ListEntry) : TxMemory where
  links :=
    setupTxLoop numTcbs 0 (initializeListHead (initializeListHead links .tcbFree) .tcbBusy)
  tcbs := fun _ => ⟨none, .success, 0⟩
  numTCBsFree := numTcbs
  sendEvent := true

def venetAllocTCB (m : TxMemory) (nbl : Nat) : Option (ListEntry × TxMemory) :=
  if isListEmpty m.links .tcbFree then none
  else
    let (t, links) := removeHeadList m.links .tcbFree
    some (t,
      { links := insertHeadList links .tcbBusy t
        tcbs := Function.update m.tcbs t ⟨some nbl, .success, 0⟩
        numTCBsFree := m.numTCBsFree - 1
        sendEvent := false })

def venetReleaseTCB (m : TxMemory) (t : ListEntry) : TxMemory :=
  let links := insertHeadList (removeEntryList m.links t) .tcbFree t
  { m with
    links := links
    numTCBsFree := m.numTCBsFree + 1
    sendEvent := if isListEmpty links .tcbBusy then true else m.sendEvent }

/-- What `VenetFree` leaves of the links of a TCB is whatever comes to lie there. -/
def venetFree (junk links : Links ListEntry) (t : ListEntry) : Links ListEntry where
  flink := Function.update links.flink t (junk.flink t)
  blink := Function.update links.blink t (junk.blink t)

/-- A loop of `VenetFreeTx`: the TCBs it frees, or `none` where it is not over after that many
    passes. -/
def freeLoop (junk : Links ListEntry) (head : ListEntry) :
    Nat → Links ListEntry → Option (List ListEntry × Links ListEntry)
  | 0, links => if isListEmpty links head then some ([], links) else none
  | passes + 1, links =>
    if isListEmpty links head then some ([], links)
    else
      let (t, links) := removeHeadList links head
      (freeLoop junk head passes (venetFree junk links t)).map fun rest => (t :: rest.1, rest.2)

def venetFreeTx (junk : Links ListEntry) (passes : Nat) (m : TxMemory) :
    Option (List ListEntry × TxMemory) :=
  (freeLoop junk .tcbFree passes m.links).bind fun first =>
    (freeLoop junk .tcbBusy passes first.2).map fun second =>
      (first.1 ++ second.1, { m with links := second.2 })

/-- The memory, and the TCBs that the send path has been given and not released. -/
structure State where
  memory : TxMemory
  held : List ListEntry

inductive Action where
  | alloc (nbl : Nat)
  | release (t : ListEntry)

def step (s : State) : Action → Option State
  | .alloc nbl =>
    match venetAllocTCB s.memory nbl with
    | none => some s
    | some (t, memory) => some ⟨memory, t :: s.held⟩
  | .release t =>
    if t ∈ s.held then some ⟨venetReleaseTCB s.memory t, s.held.erase t⟩ else none

/-- The callers see the TCB they are given, or `NULL`. -/
def observed (numTcbs : Nat) (links : Links ListEntry) :
    Observed State Action (Option ListEntry) where
  machine := { start := ⟨venetSetupTx numTcbs links, []⟩, step := step }
  event := fun s action =>
    match action with
    | .alloc nbl => some ((venetAllocTCB s.memory nbl).map Prod.fst)
    | .release _ => none

/-- The same calls on the lists of TCBs. -/
def listStep (tx : Tx) : Action → Option Tx
  | .alloc nbl =>
    match Venet.venetAllocTCB tx nbl with
    | none => some tx
    | some (_, tx) => some tx
  | .release (.tcb n) => if n ∈ tx.tcbBusy then some (Venet.venetReleaseTCB tx n) else none
  | .release _ => none

def listObserved (numTcbs : Nat) : Observed Tx Action (Option ListEntry) where
  machine := { start := Venet.venetSetupTx numTcbs, step := listStep }
  event := fun tx action =>
    match action with
    | .alloc nbl => some ((Venet.venetAllocTCB tx nbl).map fun result => .tcb result.1)
    | .release _ => none

/-- The two circular lists in memory are the lists of TCB numbers. -/
structure Represents (m : TxMemory) (tx : Tx) : Prop where
  free : Ring m.links .tcbFree (tx.tcbFree.map .tcb)
  busy : Ring m.links .tcbBusy (tx.tcbBusy.map .tcb)
  disjoint : tx.tcbFree.Disjoint tx.tcbBusy
  tcbs : ∀ n, m.tcbs (.tcb n) = tx.tcbs n
  numTCBsFree : m.numTCBsFree = tx.numTCBsFree
  sendEvent : m.sendEvent = tx.sendEvent

section Calls

variable {m : TxMemory} {tx : Tx} {free busy : List Nat} {n : Nat}

theorem apart_of_disjoint (disjoint : free.Disjoint busy) :
    Apart ListEntry.tcbFree (free.map .tcb) .tcbBusy (busy.map .tcb) := by
  intro entry first second
  simp only [List.mem_cons, List.mem_map] at first second
  rcases first with rfl | ⟨a, inFree, rfl⟩
  · rcases second with impossible | ⟨b, _, impossible⟩ <;> cases impossible
  · rcases second with impossible | ⟨b, inBusy, same⟩
    · cases impossible
    · cases same
      exact disjoint inFree inBusy

theorem tcb_fresh {head : ListEntry} (other : ∀ k, head ≠ .tcb k) (absent : n ∉ free) :
    ListEntry.tcb n ∉ head :: free.map .tcb := by
  simp only [List.mem_cons, List.mem_map, not_or]
  refine ⟨(other n).symm, ?_⟩
  intro found
  obtain ⟨k, among, same⟩ := found
  cases same
  exact absent among

theorem tcb_injective : Function.Injective ListEntry.tcb := by
  intro a b same
  cases same
  rfl

theorem ring_nodup {links : Links ListEntry} {head : ListEntry}
    (ring : Ring links head (free.map .tcb)) : free.Nodup :=
  List.Nodup.of_map _ (List.nodup_cons.mp ring.nodup).2

theorem setupTxLoop_rings (numTcbs i : Nat) {links : Links ListEntry}
    (below : ∀ k ∈ free, k < i) (listed : Ring links .tcbFree (free.map .tcb))
    (none : Ring links .tcbBusy []) :
    Ring (setupTxLoop numTcbs i links) .tcbFree ((Venet.setupTxLoop numTcbs i free).map .tcb) ∧
      Ring (setupTxLoop numTcbs i links) .tcbBusy [] := by
  induction numTcbs generalizing i links free with
  | zero => exact ⟨listed, none⟩
  | succ numTcbs ih =>
    have absent : i ∉ free := fun among => Nat.lt_irrefl i (below i among)
    have apart := apart_of_disjoint (List.disjoint_nil_right free)
    apply ih (i + 1)
    · intro k among
      rcases List.mem_cons.mp among with rfl | old
      · exact Nat.lt_succ_self k
      · exact Nat.lt_succ_of_lt (below k old)
    · exact listed.insertHead (tcb_fresh (fun _ => ListEntry.noConfusion) absent)
    · exact none.insertHead_frame listed apart (by simp)

theorem setup_represents (numTcbs : Nat) (links : Links ListEntry) :
    Represents (venetSetupTx numTcbs links) (Venet.venetSetupTx numTcbs) := by
  have first := ring_initialized links ListEntry.tcbFree
  have free : Ring (initializeListHead (initializeListHead links .tcbFree) .tcbBusy)
      ListEntry.tcbFree (([] : List Nat).map .tcb) :=
    first.link (by simp) (by simp)
  have rings := setupTxLoop_rings numTcbs 0 (fun _ impossible => absurd impossible List.not_mem_nil)
    free (ring_initialized _ ListEntry.tcbBusy)
  exact ⟨rings.1, rings.2, List.disjoint_nil_right _, fun _ => rfl, rfl, rfl⟩

theorem Represents.noneFree (represents : Represents m tx) :
    isListEmpty m.links .tcbFree = true ↔ tx.tcbFree = [] := by
  rw [represents.free.isListEmpty, List.map_eq_nil_iff]

theorem Represents.alloc_none (represents : Represents m tx) (empty : tx.tcbFree = []) (nbl : Nat) :
    venetAllocTCB m nbl = none ∧ Venet.venetAllocTCB tx nbl = none := by
  refine ⟨?_, ?_⟩
  · rw [venetAllocTCB, if_pos (represents.noneFree.mpr empty)]
  · simp [Venet.venetAllocTCB, allocTcbList, empty]

theorem Represents.alloc (represents : Represents m tx) (shape : tx.tcbFree = n :: free) (nbl : Nat) :
    ∃ memory after, venetAllocTCB m nbl = some (.tcb n, memory) ∧
      Venet.venetAllocTCB tx nbl = some (n, after) ∧ Represents memory after ∧
      after.tcbBusy = n :: tx.tcbBusy := by
  obtain ⟨listed, busy, disjoint, tcbs, numTCBsFree, sendEvent⟩ := represents
  rw [shape] at listed disjoint
  have unlisted := (List.nodup_cons.mp (ring_nodup listed)).1
  have apart := apart_of_disjoint disjoint
  rw [List.map_cons] at listed apart
  have nonempty : ¬ isListEmpty m.links ListEntry.tcbFree = true := by
    rw [listed.isListEmpty]
    exact List.cons_ne_nil _ _
  obtain ⟨taken, remains⟩ := listed.removeHead
  have other := busy.removeHead_frame listed apart
  obtain ⟨absent, disjoint⟩ := List.disjoint_cons_left.mp disjoint
  have fresh := @tcb_fresh tx.tcbBusy n .tcbBusy (fun _ => ListEntry.noConfusion) absent
  have away := @tcb_fresh free n .tcbFree (fun _ => ListEntry.noConfusion) unlisted
  have moved := other.insertHead fresh
  have kept := remains.insertHead_frame other (apart_of_disjoint disjoint).symm away
  refine ⟨
    { links := insertHeadList (removeHeadList m.links .tcbFree).2 .tcbBusy (.tcb n)
      tcbs := Function.update m.tcbs (.tcb n) ⟨some nbl, .success, 0⟩
      numTCBsFree := m.numTCBsFree - 1
      sendEvent := false },
    allocTcbEvent
      { tx with
        tcbs := Function.update tx.tcbs n ⟨some nbl, .success, 0⟩
        tcbFree := free
        tcbBusy := n :: tx.tcbBusy }, ?_, ?_, ⟨kept, moved, ?_, ?_, ?_, rfl⟩, rfl⟩
  · rw [venetAllocTCB, if_neg nonempty]
    simp only [taken]
  · simp only [Venet.venetAllocTCB, allocTcbList, shape, Option.map_some, allocTcbEvent]
  · exact List.disjoint_cons_right.mpr ⟨unlisted, disjoint⟩
  · intro k
    by_cases same : k = n
    · rw [same]
      simp [allocTcbEvent]
    · have entries : ListEntry.tcb k ≠ .tcb n := fun equal => same (tcb_injective equal)
      simp [allocTcbEvent, Function.update_of_ne entries, Function.update_of_ne same, tcbs]
  · exact congrArg (· - 1) numTCBsFree

theorem Represents.release (represents : Represents m tx) (held : n ∈ tx.tcbBusy) :
    Represents (venetReleaseTCB m (.tcb n)) (Venet.venetReleaseTCB tx n) := by
  obtain ⟨listed, busy, disjoint, tcbs, numTCBsFree, sendEvent⟩ := represents
  have among : ListEntry.tcb n ∈ tx.tcbBusy.map ListEntry.tcb := List.mem_map_of_mem held
  have nodup := ring_nodup busy
  have apart := (apart_of_disjoint disjoint).symm
  have removed := busy.erase among
  have kept := listed.erase_frame busy apart among
  have unlisted : n ∉ tx.tcbFree := fun free => disjoint free held
  have gone : n ∉ tx.tcbBusy.erase n := nodup.not_mem_erase
  have smaller : tx.tcbFree.Disjoint (tx.tcbBusy.erase n) :=
    List.disjoint_of_subset_right List.erase_subset disjoint
  rw [← List.map_erase tcb_injective] at removed
  have free := kept.insertHead (tcb_fresh (fun _ => ListEntry.noConfusion) unlisted)
  have rest := removed.insertHead_frame kept (apart_of_disjoint smaller)
    (tcb_fresh (fun _ => ListEntry.noConfusion) gone)
  have lists : (Venet.venetReleaseTCB tx n).tcbFree = n :: tx.tcbFree ∧
      (Venet.venetReleaseTCB tx n).tcbBusy = tx.tcbBusy.erase n ∧
      (Venet.venetReleaseTCB tx n).tcbs = tx.tcbs ∧
      (Venet.venetReleaseTCB tx n).numTCBsFree = tx.numTCBsFree + 1 ∧
      (Venet.venetReleaseTCB tx n).sendEvent =
        if tx.tcbBusy.erase n = [] then true else tx.sendEvent := by
    unfold Venet.venetReleaseTCB releaseTcbEvent releaseTcbList
    dsimp only
    split
    · exact ⟨rfl, rfl, rfl, rfl, rfl⟩
    · exact ⟨rfl, rfl, rfl, rfl, rfl⟩
  obtain ⟨freeAfter, busyAfter, tcbsAfter, countAfter, eventAfter⟩ := lists
  refine ⟨?_, ?_, ?_, ?_, ?_, ?_⟩
  · rw [freeAfter]
    exact free
  · rw [busyAfter]
    exact rest
  · rw [freeAfter, busyAfter]
    exact List.disjoint_cons_left.mpr ⟨gone, smaller⟩
  · intro k
    rw [tcbsAfter]
    exact tcbs k
  · rw [countAfter, ← numTCBsFree]
    rfl
  · rw [eventAfter]
    simp only [venetReleaseTCB, rest.isListEmpty, List.map_eq_nil_iff, sendEvent]

end Calls

end Venet.TcbMemory
