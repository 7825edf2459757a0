import AlacrityDrivers.Library.Transition
import AlacrityDrivers.Vbus.Proxy

namespace Vbus.ChildList

open Transition

/-- A child reported present: `PDO_ID_DESC`, and the context of its PDO once that exists. -/
structure Child where
  id : BitVec 64
  type : List UInt8
  pdo : Option PdoDeviceData

/-- The child list in the order in which it is iterated, and the host's view: the ids added and not
    dropped, and the handle returned for each at DEVOPEN. -/
structure Enumeration where
  children : List Child
  expected : List (BitVec 64)
  opened : BitVec 64 → Option (BitVec 64)

inductive Action where
  | devadd (id : BitVec 64) (type : List UInt8)
  | devdrop (handle : BitVec 64)
  | createPdo (id : BitVec 64)
  | interfaceOpen (id : BitVec 64) (version : BitVec 32) (answer : Option (BitVec 64))

def vbusIdCmp (l r : BitVec 64) : Bool := l == r

/-- `WdfChildListAddOrUpdateChildDescriptionAsPresent` -/
def addOrUpdate (children : List Child) (id : BitVec 64) (type : List UInt8) : List Child :=
  if children.any fun child => vbusIdCmp child.id id then children else children ++ [⟨id, type, none⟩]

/-- `WdfChildListUpdateChildDescriptionAsMissing` -/
def updateAsMissing (children : List Child) (id : BitVec 64) : List Child :=
  children.filter fun child => !vbusIdCmp child.id id

def eventDevadd (children : List Child) (id : BitVec 64) (type : List UInt8) : List Child :=
  addOrUpdate children id type

/-- `event_devdrop`; the iteration passes the devices of the present children. -/
def eventDevdrop (children : List Child) (handle : BitVec 64) : List Child :=
  match (children.filterMap fun child => child.pdo).find? fun pd => pd.handle == handle with
  | none => children
  | some pd => updateAsMissing children pd.id

def setPdo (children : List Child) (id : BitVec 64) (pdo : Child → Option PdoDeviceData) : List Child :=
  children.map fun child => if vbusIdCmp child.id id then { child with pdo := pdo child } else child

def vbusCreatePdo (child : Child) : Option PdoDeviceData := some ⟨child.id, 0#64, 0#64⟩

def openPdo (version : BitVec 32) (answer : Option (BitVec 64)) (child : Child) : Option PdoDeviceData :=
  child.pdo.map fun pd => (vbusInterfaceOpen pd version answer).2.1

def named (e : Enumeration) (handle id : BitVec 64) : Bool := id == handle || e.opened id == some handle

def expectedAfter (e : Enumeration) : Action → List (BitVec 64)
  | .devadd id _ => id :: e.expected
  | .devdrop handle => e.expected.filter fun id => !named e handle id
  | _ => e.expected

def openedAfter (e : Enumeration) : Action → BitVec 64 → Option (BitVec 64)
  | .devadd id _ => if id ∈ e.expected then e.opened else Function.update e.opened id none
  | .interfaceOpen id _ (some handle) => Function.update e.opened id (some handle)
  | _ => e.opened

def childrenAfter (children : List Child) : Action → List Child
  | .devadd id type => eventDevadd children id type
  | .devdrop handle => eventDevdrop children handle
  | .createPdo id => setPdo children id vbusCreatePdo
  | .interfaceOpen id version answer => setPdo children id (openPdo version answer)

/-- PDOs are created once for reported children and opened after that; the host returns no handle 0. -/
def allowed (children : List Child) : Action → Bool
  | .createPdo id => children.any fun child => vbusIdCmp child.id id && child.pdo.isNone
  | .interfaceOpen id _ answer =>
    (children.any fun child => vbusIdCmp child.id id && child.pdo.isSome) && answer != some 0#64
  | _ => true

def step (e : Enumeration) (action : Action) : Option Enumeration :=
  if allowed e.children action then
    some ⟨childrenAfter e.children action, expectedAfter e action, openedAfter e action⟩
  else none

def machine : Machine Enumeration Action where
  start := ⟨[], [], fun _ => none⟩
  step := step

def FollowsHistory (e : Enumeration) : Prop :=
  ∀ id, id ∈ e.children.map Child.id ↔ id ∈ e.expected

/-- A DEVDROP that names no present device, or one with handle 0 that means device 0 when that is the
    first with a PDO, or when neither device 0 nor any PDO is there. -/
def dropsRightly (e : Enumeration) : Action → Bool
  | .devdrop handle =>
    if handle = 0#64 then
      ((e.children.filterMap fun child => child.pdo).head?.map PdoDeviceData.id) ==
        ((e.children.map Child.id).find? fun id => id == 0#64)
    else !(e.children.map Child.id).any (named e handle)
  | _ => true

structure Known (e : Enumeration) : Prop where
  pdos : ∀ child ∈ e.children, ∀ pd, child.pdo = some pd → pd.id = child.id ∧ pd.handle = 0#64
  nonzero : ∀ id, e.opened id ≠ some 0#64
  follows : FollowsHistory e

section Drop

variable {e : Enumeration} {children : List Child} {handle id : BitVec 64}

theorem mem_updateAsMissing (children : List Child) (gone : BitVec 64) :
    id ∈ (updateAsMissing children gone).map Child.id ↔ id ∈ children.map Child.id ∧ id ≠ gone := by
  simp only [updateAsMissing, vbusIdCmp, List.mem_map, List.mem_filter, Bool.not_eq_true',
    beq_eq_false_iff_ne]
  constructor
  · intro present
    rcases present with ⟨child, ⟨among, different⟩, rfl⟩
    exact ⟨⟨child, among, rfl⟩, different⟩
  · intro present
    rcases present with ⟨⟨child, among, rfl⟩, different⟩
    exact ⟨child, ⟨among, different⟩, rfl⟩

theorem Known.pdo (known : Known e) {pd : PdoDeviceData}
    (among : pd ∈ e.children.filterMap fun child => child.pdo) :
    pd.id ∈ e.children.map Child.id ∧ pd.handle = 0#64 := by
  rcases List.mem_filterMap.mp among with ⟨child, present, created⟩
  rcases known.pdos child present pd created with ⟨same, zero⟩
  exact ⟨List.mem_map.mpr ⟨child, present, same.symm⟩, zero⟩

theorem Known.devdrop_handle (known : Known e) (nonzero : handle ≠ 0#64) :
    eventDevdrop e.children handle = e.children := by
  have none : (e.children.filterMap fun child => child.pdo).find? (fun pd => pd.handle == handle) =
      none := by
    rw [List.find?_eq_none]
    intro pd among
    rw [(known.pdo among).2, beq_iff_eq]
    exact nonzero.symm
  rw [eventDevdrop, none]

theorem Known.devdrop_zero (known : Known e) :
    eventDevdrop e.children 0#64 =
      match (e.children.filterMap fun child => child.pdo).head? with
      | none => e.children
      | some pd => updateAsMissing e.children pd.id := by
  have first : (e.children.filterMap fun child => child.pdo).find? (fun pd => pd.handle == 0#64) =
      (e.children.filterMap fun child => child.pdo).head? := by
    cases shape : e.children.filterMap fun child => child.pdo with
    | nil => rfl
    | cons pd rest =>
      have among : pd ∈ e.children.filterMap fun child => child.pdo := by
        rw [shape]
        exact List.mem_cons_self
      have zero := (known.pdo among).2
      rw [List.find?_cons_of_pos (by rw [zero]; exact BEq.rfl), List.head?_cons]
  rw [eventDevdrop, first]

theorem Known.named_zero (known : Known e) : named e 0#64 id = (id == 0#64) := by
  have other : (e.opened id == some 0#64) = false := beq_eq_false_iff_ne.mpr (known.nonzero id)
  rw [named, other, Bool.or_false]

end Drop

section Step

variable {e next : Enumeration} {children : List Child} {handle id : BitVec 64}

theorem mem_addOrUpdate (children : List Child) (new : BitVec 64) (type : List UInt8) :
    id ∈ (addOrUpdate children new type).map Child.id ↔ id = new ∨ id ∈ children.map Child.id := by
  unfold addOrUpdate
  split
  · rename_i present
    rcases List.any_eq_true.mp present with ⟨child, among, same⟩
    constructor
    · intro kept
      exact Or.inr kept
    · intro either
      rcases either with rfl | kept
      · exact List.mem_map.mpr ⟨child, among, beq_iff_eq.mp same⟩
      · exact kept
  · rw [List.map_append, List.mem_append, or_comm]
    simp

theorem setPdo_ids (children : List Child) (id : BitVec 64) (pdo : Child → Option PdoDeviceData) :
    (setPdo children id pdo).map Child.id = children.map Child.id := by
  rw [setPdo, List.map_map]
  apply List.map_congr_left
  intro child _
  simp only [Function.comp_apply]
  split
  · rfl
  · rfl

theorem mem_eventDevdrop {child : Child} (present : child ∈ eventDevdrop children handle) :
    child ∈ children := by
  unfold eventDevdrop at present
  split at present
  · exact present
  · exact (List.mem_filter.mp present).1

theorem pdos_after (action : Action)
    (pdos : ∀ child ∈ children, ∀ pd, child.pdo = some pd → pd.id = child.id ∧ pd.handle = 0#64) :
    ∀ child ∈ childrenAfter children action, ∀ pd, child.pdo = some pd →
      pd.id = child.id ∧ pd.handle = 0#64 := by
  intro child present pd created
  cases action with
  | devadd id type =>
    simp only [childrenAfter, eventDevadd, addOrUpdate] at present
    split at present
    · exact pdos child present pd created
    · rcases List.mem_append.mp present with earlier | new
      · exact pdos child earlier pd created
      · rw [List.mem_singleton.mp new] at created
        cases created
  | devdrop handle => exact pdos child (mem_eventDevdrop present) pd created
  | createPdo id =>
    rcases List.mem_map.mp present with ⟨before, among, after⟩
    rw [← after] at created ⊢
    split at created
    · rename_i same
      cases created
      rw [if_pos same]
      exact ⟨rfl, rfl⟩
    · rename_i different
      rw [if_neg different]
      exact pdos before among pd created
  | interfaceOpen id version answer =>
    rcases List.mem_map.mp present with ⟨before, among, after⟩
    rw [← after] at created ⊢
    split at created
    · rename_i same
      simp only [openPdo, Option.map_eq_some_iff] at created
      rcases created with ⟨old, had, result⟩
      rw [if_pos same, ← result]
      have kept := pdos before among old had
      cases answer with
      | none => exact kept
      | some handle => exact kept
    · rename_i different
      rw [if_neg different]
      exact pdos before among pd created

theorem Known.opened_after {action : Action} (known : Known e)
    (enabled : allowed e.children action = true) (id : BitVec 64) :
    openedAfter e action id ≠ some 0#64 := by
  cases action with
  | devadd new type =>
    simp only [openedAfter]
    split
    · exact known.nonzero id
    · rw [Function.update_apply]
      split
      · simp
      · exact known.nonzero id
  | interfaceOpen target version answer =>
    cases answer with
    | none => exact known.nonzero id
    | some handle =>
      have nonzero : some handle ≠ some 0#64 := by
        simp only [allowed, Bool.and_eq_true, bne_iff_ne] at enabled
        exact enabled.2
      simp only [openedAfter, Function.update_apply]
      split
      · exact nonzero
      · exact known.nonzero id
  | _ => exact known.nonzero id

theorem Known.drop_follows_iff (known : Known e) (handle : BitVec 64) :
    (∀ id, id ∈ (eventDevdrop e.children handle).map Child.id ↔
        id ∈ e.expected.filter fun id => !named e handle id) ↔
      dropsRightly e (.devdrop handle) = true := by
  have expected : ∀ id, id ∈ e.expected ↔ id ∈ e.children.map Child.id :=
    fun id => (known.follows id).symm
  simp only [List.mem_filter, Bool.not_eq_true', expected]
  by_cases zero : handle = 0#64
  · subst zero
    rw [known.devdrop_zero, dropsRightly, if_pos rfl]
    simp only [known.named_zero, beq_eq_false_iff_ne]
    cases shape : (e.children.filterMap fun child => child.pdo).head? with
    | none =>
      simp only [Option.map_none]
      constructor
      · intro unchanged
        have absent : (e.children.map Child.id).find? (fun id => id == 0#64) = none := by
          rw [List.find?_eq_none]
          intro id present same
          exact ((unchanged id).mp present).2 (beq_iff_eq.mp same)
        rw [absent]
        exact BEq.rfl
      · intro agrees id
        have absent := (beq_iff_eq.mp agrees).symm
        rw [List.find?_eq_none] at absent
        constructor
        · intro present
          exact ⟨present, fun same => absent id present (beq_iff_eq.mpr same)⟩
        · intro present
          exact present.1
    | some pd =>
      have among : pd.id ∈ e.children.map Child.id := (known.pdo (List.mem_of_mem_head? shape)).1
      simp only [Option.map_some, mem_updateAsMissing]
      constructor
      · intro same
        have first : pd.id = 0#64 := by
          by_contra different
          exact ((same pd.id).mpr ⟨among, different⟩).2 rfl
        rw [first] at among ⊢
        have found : (e.children.map Child.id).find? (fun id => id == 0#64) = some 0#64 := by
          cases result : (e.children.map Child.id).find? (fun id => id == 0#64) with
          | none =>
            rw [List.find?_eq_none] at result
            exact absurd BEq.rfl (result _ among)
          | some id =>
            have matched := List.find?_some result
            rw [beq_iff_eq.mp matched]
        rw [found]
        exact BEq.rfl
      · intro agrees id
        have found := (beq_iff_eq.mp agrees).symm
        have matched := List.find?_some found
        rw [beq_iff_eq.mp matched]
  · rw [known.devdrop_handle zero, dropsRightly, if_neg zero]
    simp only [Bool.not_eq_true', List.any_eq_false]
    constructor
    · intro unchanged id present
      rw [((unchanged id).mp present).2]
      exact Bool.false_ne_true
    · intro nobody id
      constructor
      · intro present
        exact ⟨present, by simpa using nobody id present⟩
      · intro present
        exact present.1

theorem Known.other_follows {action : Action} (known : Known e)
    (other : ∀ handle, action ≠ .devdrop handle) :
    FollowsHistory ⟨childrenAfter e.children action, expectedAfter e action, openedAfter e action⟩ := by
  intro id
  cases action with
  | devadd new type =>
    simp only [childrenAfter, eventDevadd, expectedAfter, mem_addOrUpdate, List.mem_cons,
      known.follows id]
  | devdrop handle => exact absurd rfl (other handle)
  | createPdo target =>
    simp only [childrenAfter, setPdo_ids]
    exact known.follows id
  | interfaceOpen target version answer =>
    simp only [childrenAfter, setPdo_ids]
    exact known.follows id

theorem known_preserved (e : Enumeration) (action : Action) (next : Enumeration) (known : Known e)
    (guarded : dropsRightly e action = true) (stepped : step e action = some next) : Known next := by
  simp only [step, Option.ite_none_right_eq_some, Option.some.injEq] at stepped
  rw [← stepped.2]
  refine ⟨pdos_after action known.pdos, known.opened_after stepped.1, ?_⟩
  by_cases drop : ∃ handle, action = .devdrop handle
  · rcases drop with ⟨handle, rfl⟩
    exact (known.drop_follows_iff handle).mpr guarded
  · apply known.other_follows
    intro handle same
    exact drop ⟨handle, same⟩

theorem known_forced (e : Enumeration) (action : Action) (next : Enumeration) (known : Known e)
    (stepped : step e action = some next) (follows : FollowsHistory next) :
    dropsRightly e action = true := by
  simp only [step, Option.ite_none_right_eq_some, Option.some.injEq] at stepped
  rw [← stepped.2] at follows
  cases action with
  | devdrop handle => exact (known.drop_follows_iff handle).mp follows
  | _ => rfl

theorem known_start : Known machine.start := by
  refine ⟨?_, by simp [machine], by simp [machine, FollowsHistory]⟩
  intro child impossible
  cases impossible

end Step

/-- `event_devdrop` looks for a handle that no PDO ever gets, so the children follow the history in
    exactly the runs whose DEVDROPs name no present device, or hit device 0 by their handle 0. -/
theorem children_follow_history (actions : List Action) :
    machine.Throughout FollowsHistory machine.start actions ↔
      machine.Meets (machine.OnSteps fun e action => dropsRightly e action = true) machine.start
        actions := by
  apply Machine.throughout_iff_guarded Known _ known_preserved known_forced known_start
  intro e known
  exact known.follows

def openAndDrop : List Action :=
  [.devadd 3#64 [], .createPdo 3#64, .interfaceOpen 3#64 1#32 (some 9#64), .devdrop 9#64]

theorem dropped_child_stays :
    let final := (machine.run machine.start openAndDrop).get (by decide)
    ¬ FollowsHistory final ∧ final.children.map Child.id = [3#64] ∧ final.expected = [] := by
  refine ⟨?_, by decide, by decide⟩
  intro follows
  have dropped := (follows 3#64).mp (by decide)
  revert dropped
  decide

end Vbus.ChildList
