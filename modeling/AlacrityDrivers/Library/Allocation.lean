import Mathlib.Data.List.Nodup
import Mathlib.Data.List.Perm.Basic
import Mathlib.Tactic.Common

namespace Allocation

variable {τ : Type}

/-- What an allocator has handed out: numbered blocks, each with its description. `misused` tells
    whether something was freed that was not outstanding under the description given. -/
structure Store (τ : Type) where
  live : List (Nat × τ)
  made : Nat
  misused : Bool
deriving DecidableEq, Repr

namespace Store

def empty : Store τ := ⟨[], 0, false⟩

def alloc (store : Store τ) (x : τ) : (Nat × τ) × Store τ :=
  ((store.made, x), { store with live := (store.made, x) :: store.live, made := store.made + 1 })

def tryAlloc (store : Store τ) (granted : Bool) (x : τ) : Option (Nat × τ) × Store τ :=
  if granted then (some (store.alloc x).1, (store.alloc x).2) else (none, store)

/-- Exactly `blocks` are outstanding, and nothing was freed that was not. -/
structure Holds (store : Store τ) (blocks : List (Nat × τ)) : Prop where
  live : store.live.Perm blocks
  fresh : ∀ block ∈ store.live, block.1 < store.made
  nodup : (store.live.map Prod.fst).Nodup
  proper : store.misused = false

variable {store : Store τ} {blocks other : List (Nat × τ)} {block : Nat × τ}

theorem holds_empty : (empty : Store τ).Holds [] :=
  ⟨List.Perm.refl _, fun _ none => absurd none List.not_mem_nil, List.nodup_nil, rfl⟩

theorem Holds.perm (holds : store.Holds blocks) (same : blocks.Perm other) : store.Holds other :=
  ⟨holds.live.trans same, holds.fresh, holds.nodup, holds.proper⟩

theorem Holds.alloc (holds : store.Holds blocks) (x : τ) :
    (store.alloc x).2.Holds ((store.alloc x).1 :: blocks) := by
  have absent : store.made ∉ store.live.map Prod.fst := by
    intro present
    obtain ⟨block, among, same⟩ := List.mem_map.mp present
    have older := holds.fresh block among
    omega
  refine ⟨holds.live.cons _, ?_, List.nodup_cons.mpr ⟨absent, holds.nodup⟩, holds.proper⟩
  intro block among
  rcases List.mem_cons.mp among with rfl | old
  · exact Nat.lt_succ_self store.made
  · exact Nat.lt_succ_of_lt (holds.fresh block old)

theorem Holds.tryAlloc (holds : store.Holds blocks) (granted : Bool) (x : τ) :
    (store.tryAlloc granted x).2.Holds ((store.tryAlloc granted x).1.toList ++ blocks) := by
  unfold Store.tryAlloc
  cases granted with
  | false => exact holds
  | true => exact holds.alloc x

theorem Holds.live_eq_nil (holds : store.Holds blocks) : store.live = [] ↔ blocks = [] := by
  constructor
  · intro free
    have live := holds.live
    rw [free] at live
    exact live.nil_eq.symm
  · intro free
    have live := holds.live
    rw [free] at live
    exact live.eq_nil

section Free

variable [DecidableEq τ]

def free (store : Store τ) (block : Nat × τ) : Store τ :=
  if block ∈ store.live then { store with live := store.live.erase block }
  else { store with misused := true }

def freeOption (store : Store τ) : Option (Nat × τ) → Store τ
  | none => store
  | some block => store.free block

theorem Holds.free (holds : store.Holds (block :: blocks)) : (store.free block).Holds blocks := by
  have present : block ∈ store.live := holds.live.symm.subset List.mem_cons_self
  unfold Store.free
  rw [if_pos present]
  refine ⟨?_, ?_, (List.erase_sublist.map Prod.fst).nodup holds.nodup, holds.proper⟩
  · have erased := holds.live.erase block
    rw [List.erase_cons_head] at erased
    exact erased
  · intro other among
    exact holds.fresh other (List.mem_of_mem_erase among)

theorem Holds.freeOption {pointer : Option (Nat × τ)}
    (holds : store.Holds (pointer.toList ++ blocks)) : (store.freeOption pointer).Holds blocks := by
  cases pointer with
  | none => exact holds
  | some block => exact Holds.free holds

theorem Holds.free_wrong (holds : store.Holds (block :: blocks)) {x : τ} (wrong : x ≠ block.2) :
    (store.free (block.1, x)).misused = true := by
  have present : block ∈ store.live := holds.live.symm.subset List.mem_cons_self
  rw [Store.free, if_neg]
  intro among
  have same := List.inj_on_of_nodup_map holds.nodup among present rfl
  rw [← same] at wrong
  exact wrong rfl

theorem misused_free (misused : store.misused = true) (block : Nat × τ) :
    (store.free block).misused = true := by
  unfold free
  split
  · exact misused
  · rfl

end Free

end Store

end Allocation
