import Mathlib.Data.List.Perm.Lattice

namespace Lists

variable {α : Type}

theorem find_eraseP_perm (matching : α → Bool) (l : List α) :
    l.Perm ((l.find? matching).toList ++ l.eraseP matching) := by
  induction l with
  | nil => exact List.Perm.refl []
  | cons head tail ih =>
    by_cases found : matching head = true
    · rw [List.find?_cons_of_pos found, List.eraseP_cons_of_pos found]
      exact List.Perm.refl _
    · rw [List.find?_cons_of_neg found, List.eraseP_cons_of_neg found]
      exact (List.Perm.cons head ih).trans List.perm_middle.symm

theorem getElem?_concat_cases {l : List α} {last found : α} {k : Nat}
    (present : (l ++ [last])[k]? = some found) :
    l[k]? = some found ∨ k = l.length ∧ last = found := by
  rw [List.getElem?_append] at present
  split at present
  · exact Or.inl present
  · have inside := (List.getElem?_eq_some_iff.mp present).1
    simp only [List.length_singleton] at inside
    have place : k = l.length := by omega
    subst place
    rw [Nat.sub_self, List.getElem?_cons_zero, Option.some.injEq] at present
    exact Or.inr ⟨rfl, present⟩

section FewMatches

variable {matching : α → Bool} {items : List α}

theorem countP_tail_of_found {item : α} (found : matching item = true)
    (few : (item :: items).countP matching ≤ 1) : ∀ other ∈ items, ¬ matching other = true := by
  rw [List.countP_cons_of_pos found] at few
  exact List.countP_eq_zero.mp (by omega)

theorem find_eq_filter (few : items.countP matching ≤ 1) :
    (items.find? matching).toList = items.filter matching := by
  rw [List.countP_eq_length_filter] at few
  rw [← List.head?_filter]
  cases shape : items.filter matching with
  | nil => rfl
  | cons item rest =>
    rw [shape, List.length_cons] at few
    have none : rest = [] := List.eq_nil_of_length_eq_zero (by omega)
    rw [none]
    rfl

theorem eraseP_eq_filter (few : items.countP matching ≤ 1) :
    items.eraseP matching = items.filter fun item => !matching item := by
  induction items with
  | nil => rfl
  | cons item items ih =>
    by_cases found : matching item = true
    · have others := countP_tail_of_found found few
      rw [List.eraseP_cons_of_pos found, List.filter_cons_of_neg (by simp [found])]
      symm
      apply List.filter_eq_self.mpr
      intro other present
      simpa using others other present
    · rw [List.countP_cons_of_neg found] at few
      rw [List.eraseP_cons_of_neg found, List.filter_cons_of_pos (by simpa using found), ih few]

end FewMatches

section Order

variable {part l front back : List α} {first second : α}

theorem filter_of_sublist (sublist : part.Sublist l) (nodup : l.Nodup) (selects : α → Bool)
    (same : ∀ x, x ∈ l → (selects x = true ↔ x ∈ part)) : l.filter selects = part := by
  induction sublist with
  | slnil => rfl
  | cons head sub ih =>
    rcases List.nodup_cons.mp nodup with ⟨fresh, rest⟩
    have out : ¬ selects head = true := by
      rw [same head List.mem_cons_self]
      intro present
      exact fresh (sub.subset present)
    rw [List.filter_cons_of_neg out]
    exact ih rest (fun x inside => same x (List.mem_cons_of_mem _ inside))
  | cons_cons head sub ih =>
    rcases List.nodup_cons.mp nodup with ⟨fresh, rest⟩
    have into : selects head = true := (same head List.mem_cons_self).mpr List.mem_cons_self
    rw [List.filter_cons_of_pos into]
    congr 1
    apply ih rest
    intro x inside
    rw [same x (List.mem_cons_of_mem _ inside), List.mem_cons]
    constructor
    · intro either
      rcases either with rfl | present
      · exact absurd inside fresh
      · exact present
    · exact Or.inr

theorem pair_not_reversed (nodup : (front ++ first :: back).Nodup) (later : second ∈ back)
    (pair : [second, first].Sublist (front ++ first :: back)) : False := by
  rcases List.nodup_append.mp nodup with ⟨_, rest, apart⟩
  rcases List.nodup_cons.mp rest with ⟨fresh, _⟩
  rcases List.sublist_append_iff.mp pair with ⟨early, late, split, inFront, inBack⟩
  cases early with
  | nil =>
    rw [List.nil_append] at split
    rw [← split] at inBack
    rcases List.sublist_cons_iff.mp inBack with behind | ⟨_, starts, _⟩
    · exact fresh (behind.subset (by simp))
    · have same : second = first := (List.cons.inj starts).1
      exact fresh (same ▸ later)
  | cons head _ =>
    have starts : second = head := (List.cons.inj split).1
    have early : second ∈ front := inFront.subset (by simp [starts])
    exact apart second early second (List.mem_cons_of_mem first later) rfl

end Order

end Lists
