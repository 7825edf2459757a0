import Mathlib.Data.Nat.ModEq
import Mathlib.Tactic.Common

namespace Circular

def Window (size lo hi slot : Nat) : Prop := ∃ j, lo ≤ j ∧ j < hi ∧ j % size = slot

variable {size lo hi slot : Nat}

theorem offset_mod (positive : 0 < size) (lo : Nat) {steps : Nat} (bound : steps ≤ size) :
    (lo + steps) % size =
      if lo % size + steps < size then lo % size + steps else lo % size + steps - size := by
  have small := Nat.mod_lt lo positive
  rw [Nat.add_mod_eq_ite]
  by_cases full : steps = size
  · rw [full, Nat.mod_self]
    split <;> split <;> omega
  · rw [Nat.mod_eq_of_lt (by omega : steps < size)]
    split <;> split <;> omega

theorem mod_injective (positive : 0 < size) {a b : Nat} (le : a ≤ b) (near : b < a + size)
    (same : a % size = b % size) : a = b := by
  have steps := offset_mod positive a (by omega : b - a ≤ size)
  have small := Nat.mod_lt a positive
  rw [Nat.add_sub_cancel' le, ← same] at steps
  split at steps <;> omega

theorem mod_eq_iff (positive : 0 < size) (le : lo ≤ hi) (bound : hi ≤ lo + size) :
    lo % size = hi % size ↔ hi = lo ∨ hi = lo + size := by
  constructor
  · intro same
    by_cases full : hi = lo + size
    · exact Or.inr full
    · exact Or.inl (mod_injective positive le (by omega) same).symm
  · intro either
    rcases either with rfl | rfl
    · rfl
    · rw [Nat.add_mod_right]

theorem succ_mod (positive : 0 < size) (n : Nat) :
    (n + 1) % size = if n % size = size - 1 then 0 else n % size + 1 := by
  have small := Nat.mod_lt n positive
  rw [offset_mod positive n (by omega : 1 ≤ size)]
  split <;> split <;> omega

theorem distance (positive : 0 < size) (le : lo ≤ hi) (bound : hi < lo + size) :
    (if lo % size ≤ hi % size then hi % size - lo % size else hi % size + size - lo % size) =
      hi - lo := by
  have steps := offset_mod positive lo (by omega : hi - lo ≤ size)
  have small := Nat.mod_lt lo positive
  rw [Nat.add_sub_cancel' le] at steps
  rw [steps]
  split <;> split <;> omega

theorem window_empty : ¬ Window size lo lo slot := by
  intro inside
  obtain ⟨j, low, high, _⟩ := inside
  omega

theorem window_push (le : lo ≤ hi) :
    Window size lo (hi + 1) slot ↔ Window size lo hi slot ∨ slot = hi % size := by
  constructor
  · intro inside
    obtain ⟨j, low, high, place⟩ := inside
    by_cases last : j = hi
    · exact Or.inr (by rw [← place, last])
    · exact Or.inl ⟨j, low, by omega, place⟩
  · intro either
    rcases either with ⟨j, low, high, place⟩ | place
    · exact ⟨j, low, by omega, place⟩
    · exact ⟨hi, le, by omega, place.symm⟩

theorem window_pop (positive : 0 < size) (bound : hi ≤ lo + size) :
    Window size (lo + 1) hi slot ↔ Window size lo hi slot ∧ slot ≠ lo % size := by
  constructor
  · intro inside
    obtain ⟨j, low, high, place⟩ := inside
    refine ⟨⟨j, by omega, high, place⟩, ?_⟩
    intro same
    have equal := mod_injective positive (by omega : lo ≤ j) (by omega) (by rw [place, same])
    omega
  · intro inside
    obtain ⟨⟨j, low, high, place⟩, other⟩ := inside
    have different : j ≠ lo := by
      intro same
      exact other (by rw [← place, same])
    exact ⟨j, by omega, high, place⟩

theorem window_tail (positive : 0 < size) (bound : hi ≤ lo + size) :
    Window size lo hi (hi % size) ↔ hi = lo + size := by
  constructor
  · intro inside
    obtain ⟨j, low, high, place⟩ := inside
    by_cases full : hi = lo + size
    · exact full
    · have equal := mod_injective positive (by omega : j ≤ hi) (by omega) place
      omega
  · intro full
    refine ⟨lo, Nat.le_refl _, by omega, ?_⟩
    rw [full, Nat.add_mod_right]

theorem window_head : Window size lo hi (lo % size) ↔ lo < hi := by
  constructor
  · intro inside
    obtain ⟨j, low, high, _⟩ := inside
    omega
  · intro nonempty
    exact ⟨lo, Nat.le_refl _, nonempty, rfl⟩

theorem window_offset :
    Window size lo hi slot ↔ ∃ k, k < hi - lo ∧ slot = (lo % size + k) % size := by
  constructor
  · intro inside
    obtain ⟨j, low, high, place⟩ := inside
    refine ⟨j - lo, by omega, ?_⟩
    rw [← place, Nat.mod_add_mod, Nat.add_sub_cancel' low]
  · intro inside
    obtain ⟨k, bound, place⟩ := inside
    refine ⟨lo + k, by omega, by omega, ?_⟩
    rw [place, Nat.mod_add_mod]

section Listing

variable {β : Type} {f g : Nat → β}

def listing (size : Nat) (f : Nat → β) (lo hi : Nat) : List β :=
  (List.range (hi - lo)).map fun k => f ((lo + k) % size)

theorem listing_length : (listing size f lo hi).length = hi - lo := by
  simp [listing]

theorem listing_congr (same : ∀ slot, Window size lo hi slot → f slot = g slot) :
    listing size f lo hi = listing size g lo hi := by
  apply List.map_congr_left
  intro k inside
  rw [List.mem_range] at inside
  exact same _ ⟨lo + k, Nat.le_add_right _ _, by omega, rfl⟩

theorem listing_push (le : lo ≤ hi) :
    listing size f lo (hi + 1) = listing size f lo hi ++ [f (hi % size)] := by
  have steps : hi + 1 - lo = hi - lo + 1 := by omega
  rw [listing, steps, List.range_succ, List.map_append, List.map_singleton, Nat.add_sub_cancel' le]
  rfl

theorem listing_pop (nonempty : lo < hi) :
    listing size f lo hi = f (lo % size) :: listing size f (lo + 1) hi := by
  have steps : hi - lo = hi - (lo + 1) + 1 := by omega
  rw [listing, steps, List.range_succ_eq_map, List.map_cons, List.map_map, Nat.add_zero]
  congr 1
  apply List.map_congr_left
  intro k _
  change f ((lo + (k + 1)) % size) = _
  rw [Nat.add_assoc, Nat.add_comm 1 k]

theorem listing_empty (empty : hi ≤ lo) : listing size f lo hi = [] := by
  rw [listing, Nat.sub_eq_zero_of_le empty]
  rfl

end Listing

end Circular
