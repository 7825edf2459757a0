import Mathlib.Data.List.Nodup
import Mathlib.Logic.Function.Basic
import Mathlib.Tactic.Common

namespace LinkedList

variable {α : Type}

/-- Following `next` from `first` passes the cells of `cells` in order and arrives at `last`. -/
def Segment (next : α → Option α) : Option α → List α → Option α → Prop
  | first, [], last => first = last
  | first, cell :: cells, last => first = some cell ∧ Segment next (next cell) cells last

variable {next : α → Option α} {first last : Option α} {cell other : α} {cells more : List α}

theorem segment_nil : Segment next first [] last ↔ first = last := Iff.rfl

theorem segment_cons :
    Segment next first (cell :: cells) last ↔
      first = some cell ∧ Segment next (next cell) cells last := Iff.rfl

theorem segment_append :
    Segment next first (cells ++ more) last ↔
      ∃ middle, Segment next first cells middle ∧ Segment next middle more last := by
  induction cells generalizing first with
  | nil =>
    constructor
    · intro rest
      exact ⟨first, rfl, rest⟩
    · intro parts
      obtain ⟨middle, same, rest⟩ := parts
      rw [segment_nil] at same
      rw [same]
      exact rest
  | cons cell cells ih =>
    rw [List.cons_append, segment_cons, ih]
    constructor
    · intro parts
      obtain ⟨starts, middle, front, back⟩ := parts
      exact ⟨middle, ⟨starts, front⟩, back⟩
    · intro parts
      obtain ⟨middle, ⟨starts, front⟩, back⟩ := parts
      exact ⟨starts, middle, front, back⟩

theorem Segment.first_eq (segment : Segment next first cells none) : first = cells.head? := by
  cases cells with
  | nil => exact segment
  | cons cell cells => exact segment.1

theorem Segment.congr {changed : α → Option α} (segment : Segment next first cells last)
    (same : ∀ cell ∈ cells, changed cell = next cell) : Segment changed first cells last := by
  induction cells generalizing first with
  | nil => exact segment
  | cons cell cells ih =>
    refine ⟨segment.1, ?_⟩
    rw [same cell List.mem_cons_self]
    exact ih segment.2 fun other among => same other (List.mem_cons_of_mem cell among)

section Update

variable [DecidableEq α]

instance decidableSegment (next : α → Option α) :
    (first : Option α) → (cells : List α) → (last : Option α) →
      Decidable (Segment next first cells last)
  | first, [], last => inferInstanceAs (Decidable (first = last))
  | first, cell :: cells, last =>
    have := decidableSegment next (next cell) cells last
    inferInstanceAs (Decidable (first = some cell ∧ Segment next (next cell) cells last))

theorem Segment.update (segment : Segment next first cells last) (outside : other ∉ cells)
    (target : Option α) : Segment (Function.update next other target) first cells last := by
  induction cells generalizing first with
  | nil => exact segment
  | cons cell cells ih =>
    rw [List.mem_cons, not_or] at outside
    refine ⟨segment.1, ?_⟩
    rw [Function.update_of_ne (Ne.symm outside.1)]
    exact ih segment.2 outside.2

theorem Segment.redirect (segment : Segment next first (cells ++ [cell]) last)
    (fresh : cell ∉ cells) (target : Option α) :
    Segment (Function.update next cell target) first (cells ++ [cell]) target := by
  rw [segment_append] at segment ⊢
  obtain ⟨middle, front, back⟩ := segment
  refine ⟨middle, front.update fresh target, back.1, ?_⟩
  rw [Function.update_self]
  exact rfl

end Update

end LinkedList
