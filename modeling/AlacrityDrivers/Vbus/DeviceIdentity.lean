import Mathlib
import AlacrityDrivers.Vbus.ChildList

namespace Vbus

open ChildList

/-- What `VbusCreatePdo` tells the framework of a child. -/
structure PdoInit where
  deviceId : String
  hardwareId : String
  compatibleId : String
  instanceId : String
  text : String
  location : String
  address : BitVec 32
  uiNumber : BitVec 32
deriving DecidableEq

/-- `%d` takes an `int`: of the 64 bits passed for it, the low 32. -/
def formatD (value : BitVec 64) : String := (value.setWidth 32).toInt.repr

def deviceLocation : String := "VBUS\\"

/-- `unicode` is what the conversion makes of the bytes of `d->type`. -/
def vbusPdoInit (unicode : List UInt8 → String) (d : Child) : PdoInit where
  deviceId := deviceLocation ++ unicode d.type
  hardwareId := deviceLocation ++ unicode d.type
  compatibleId := deviceLocation ++ unicode d.type
  instanceId := formatD d.id
  text := "Vbus virtual ethernet id = " ++ formatD d.id
  location := deviceLocation
  address := d.id.setWidth 32
  uiNumber := d.id.setWidth 32

/-- The device that an open of the PDO of a child names to the host. -/
def openedDevid (d : Child) (version : BitVec 32) (answer : Option (BitVec 64)) : Option (BitVec 32) :=
  (vbusCreatePdo d).bind fun pd =>
    match (vbusInterfaceOpen pd version answer).1 with
    | .devOpen devid _ => some devid
    | _ => none

/-- Two children are two devices to PnP and to the host. -/
structure Apart (unicode : List UInt8 → String) (one other : Child) : Prop where
  pnp : ((vbusPdoInit unicode one).deviceId, (vbusPdoInit unicode one).instanceId) ≠
    ((vbusPdoInit unicode other).deviceId, (vbusPdoInit unicode other).instanceId)
  host : ∀ version version' answer answer',
    openedDevid one version answer ≠ openedDevid other version' answer'

section Identity

variable {unicode : List UInt8 → String} {one other : Child}

theorem formatD_inj {value other : BitVec 64} :
    formatD value = formatD other ↔ value.setWidth 32 = other.setWidth 32 := by
  rw [formatD, formatD, Int.repr_inj, BitVec.toInt_inj]

theorem openedDevid_eq (d : Child) (version : BitVec 32) (answer : Option (BitVec 64)) :
    openedDevid d version answer = some (d.id.setWidth 32) := by
  cases answer with
  | none => rfl
  | some handle => rfl

theorem apart_iff (unicode : List UInt8 → String) (one other : Child) :
    Apart unicode one other ↔ one.id.setWidth 32 ≠ other.id.setWidth 32 := by
  constructor
  · intro apart same
    have devids := apart.host 0#32 0#32 none none
    rw [openedDevid_eq, openedDevid_eq] at devids
    exact devids (congrArg some same)
  · intro low
    refine ⟨?_, ?_⟩
    · intro same
      have instances : formatD one.id = formatD other.id := (Prod.mk.inj same).2
      exact low (formatD_inj.mp instances)
    · intro version version' answer answer'
      rw [openedDevid_eq, openedDevid_eq]
      intro same
      exact low (Option.some.inj same)

/-- `VbusIdCmp` tells children apart by 64 bits, and all that is made of them keeps the low 32: the
    two agree exactly on ids that are equal or differ in the low half. -/
theorem identity_preserved_iff (unicode : List UInt8 → String) (one other : Child) :
    (vbusIdCmp one.id other.id = false → Apart unicode one other) ↔
      one.id = other.id ∨ one.id.setWidth 32 ≠ other.id.setWidth 32 := by
  rw [apart_iff, vbusIdCmp, beq_eq_false_iff_ne]
  constructor
  · intro preserved
    by_cases same : one.id = other.id
    · exact Or.inl same
    · exact Or.inr (preserved same)
  · intro either distinct
    exact either.resolve_left distinct

/-- The children reported present are different devices to PnP and to the host if and only if the low
    halves of their ids are. -/
theorem children_apart_iff (unicode : List UInt8 → String) (children : List Child) :
    children.Pairwise (Apart unicode) ↔
      (children.map fun child => child.id.setWidth 32).Nodup := by
  rw [List.Nodup, List.pairwise_map]
  apply List.Pairwise.iff
  intro one other
  exact apart_iff unicode one other

theorem wide_ids_collide :
    let children := eventDevadd (eventDevadd [] 1#64 [0x76]) 0x100000001#64 [0x76]
    children.map Child.id = [1#64, 0x100000001#64] ∧
      vbusIdCmp 1#64 0x100000001#64 = false ∧
      ¬ Apart (fun _ => "v") ⟨1#64, [0x76], none⟩ ⟨0x100000001#64, [0x76], none⟩ := by
  refine ⟨by decide, by decide, ?_⟩
  intro apart
  exact apart.host 0#32 0#32 none none (by decide)

end Identity

end Vbus
