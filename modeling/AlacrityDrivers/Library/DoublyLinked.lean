import Mathlib.Data.List.Chain
import Mathlib.Data.List.Nodup
import Mathlib.Logic.Function.Basic
import Mathlib.Tactic.Common

namespace DoublyLinked

/-- The `Flink` and `Blink` of every `LIST_ENTRY`, those of the list heads among them. -/
structure Links (α : Type) where
  flink : α → α
  blink : α → α

variable {α : Type}

def Joined (m : Links α) (first second : α) : Prop := m.flink first = second ∧ m.blink second = first

/-- A list head and the entries that hang on it, in both directions and back to the head. -/
structure Ring (m : Links α) (head : α) (entries : List α) : Prop where
  chain : List.IsChain (Joined m) (head :: (entries ++ [head]))
  nodup : (head :: entries).Nodup

section Operations

variable [DecidableEq α]

def link (m : Links α) (first second : α) : Links α where
  flink := Function.update m.flink first second
  blink := Function.update m.blink second first

def initializeListHead (m : Links α) (head : α) : Links α := link m head head

def isListEmpty (m : Links α) (head : α) : Bool := m.flink head == head

def insertHeadList (m : Links α) (head entry : α) : Links α :=
  link (link m entry (m.flink head)) head entry

def removeEntryList (m : Links α) (entry : α) : Links α := link m (m.blink entry) (m.flink entry)

def removeHeadList (m : Links α) (head : α) : α × Links α :=
  (m.flink head, link m head (m.flink (m.flink head)))

end Operations

section Rings

variable {m : Links α} {head entry first second : α} {front back entries xs ys : List α}

theorem Ring.congr {n : Links α} (ring : Ring m head entries)
    (flinks : ∀ a ∈ head :: entries, n.flink a = m.flink a)
    (blinks : ∀ a ∈ head :: entries, n.blink a = m.blink a) : Ring n head entries := by
  refine ⟨?_, ring.nodup⟩
  apply ring.chain.imp_of_mem_imp
  intro a b among after joined
  have inside (c : α) (member : c ∈ head :: (entries ++ [head])) : c ∈ head :: entries := by
    simp only [List.mem_cons, List.mem_append, List.not_mem_nil, or_false] at member ⊢
    rcases member with same | among | same
    · exact Or.inl same
    · exact Or.inr among
    · exact Or.inl same
  exact ⟨(flinks a (inside a among)).trans joined.1, (blinks b (inside b after)).trans joined.2⟩

theorem Ring.flink (ring : Ring m head entries) :
    m.flink head = (entries ++ [head]).head (by simp) := by
  have chain := ring.chain
  cases entries with
  | nil => exact (List.isChain_pair.mp chain).1
  | cons entry rest => exact (List.isChain_cons_cons.mp chain).1.1

structure Place (head : α) (xs ys front back : List α) (first second : α) : Prop where
  before : head :: xs = front ++ [first]
  after : ys ++ [head] = second :: back

theorem place_exists (head : α) (xs ys : List α) :
    ∃ front back first second, Place head xs ys front back first second := by
  obtain ⟨front, first, before⟩ :=
    (List.eq_nil_or_concat (head :: xs)).resolve_left (List.cons_ne_nil _ _)
  obtain ⟨second, back, after⟩ :=
    List.exists_cons_of_ne_nil (List.append_ne_nil_of_right_ne_nil ys (List.cons_ne_nil head []))
  exact ⟨front, back, first, second, by simpa using before, after⟩

theorem Place.unaffected (place : Place head xs ys front back first second)
    (nodup : (head :: (xs ++ ys)).Nodup) :
    (first ∉ (front ++ [first]).dropLast ∧ second ∉ (front ++ [first]).tail) ∧
      first ∉ (second :: back).dropLast ∧ second ∉ (second :: back).tail := by
  have starts : (front ++ [first] ++ ys).Nodup := by
    rw [← place.before]
    exact nodup
  have finishes : (xs ++ second :: back).Nodup := by
    rw [← place.after, ← List.append_assoc]
    exact List.nodup_append_comm.mp nodup
  rw [← place.before, ← place.after, List.dropLast_concat, List.tail_cons, place.after, List.tail_cons,
    place.before, List.dropLast_concat]
  rw [List.nodup_append] at starts finishes
  obtain ⟨front_nodup, _, apart⟩ := starts
  obtain ⟨_, back_nodup, distinct⟩ := finishes
  refine ⟨⟨?_, ?_⟩, ?_, (List.nodup_cons.mp back_nodup).1⟩
  · exact fun among => (List.nodup_append.mp front_nodup).2.2 first among first (by simp) rfl
  · exact fun among => distinct second among second (by simp) rfl
  · exact fun among => apart first (by simp) first among rfl

theorem Place.cycle (place : Place head xs ys front back first second) (middle : List α) :
    head :: (xs ++ (middle ++ ys) ++ [head]) = front ++ first :: (middle ++ second :: back) := by
  have regrouped : head :: (xs ++ (middle ++ ys) ++ [head]) =
      head :: xs ++ (middle ++ (ys ++ [head])) := by
    simp
  rw [regrouped, place.before, place.after, List.append_assoc, List.singleton_append]

theorem Ring.split (ring : Ring m head (xs ++ ys))
    (place : Place head xs ys front back first second) :
    (front ++ [first]).IsChain (Joined m) ∧ Joined m first second ∧
      (second :: back).IsChain (Joined m) := by
  have chain := ring.chain
  have cycle := place.cycle []
  rw [List.nil_append, List.nil_append] at cycle
  rw [cycle, List.isChain_append_cons_cons] at chain
  exact chain

theorem Ring.around (ring : Ring m head (xs ++ entry :: ys))
    (place : Place head xs ys front back first second) :
    (front ++ [first]).IsChain (Joined m) ∧ Joined m first entry ∧ Joined m entry second ∧
      (second :: back).IsChain (Joined m) := by
  have chain := ring.chain
  have cycle := place.cycle [entry]
  rw [List.singleton_append, List.singleton_append] at cycle
  rw [cycle, List.isChain_append_cons_cons, List.isChain_cons_cons] at chain
  exact chain

theorem Place.ring (place : Place head xs ys front back first second)
    (starts : (front ++ [first]).IsChain (Joined m)) (joined : Joined m first second)
    (finishes : (second :: back).IsChain (Joined m)) (nodup : (head :: (xs ++ ys)).Nodup) :
    Ring m head (xs ++ ys) := by
  have cycle := place.cycle []
  rw [List.nil_append, List.nil_append] at cycle
  refine ⟨?_, nodup⟩
  rw [cycle, List.isChain_append_cons_cons]
  exact ⟨starts, joined, finishes⟩

theorem Place.ring_around (place : Place head xs ys front back first second)
    (starts : (front ++ [first]).IsChain (Joined m)) (before : Joined m first entry)
    (after : Joined m entry second) (finishes : (second :: back).IsChain (Joined m))
    (nodup : (head :: (xs ++ entry :: ys)).Nodup) : Ring m head (xs ++ entry :: ys) := by
  have cycle := place.cycle [entry]
  rw [List.singleton_append, List.singleton_append] at cycle
  refine ⟨?_, nodup⟩
  rw [cycle, List.isChain_append_cons_cons, List.isChain_cons_cons]
  exact ⟨starts, before, after, finishes⟩

theorem Ring.neighbours (ring : Ring m head entries) (among : entry ∈ entries) :
    m.blink entry ∈ head :: entries ∧ m.flink entry ∈ head :: entries := by
  obtain ⟨xs, ys, rfl⟩ := List.append_of_mem among
  obtain ⟨front, back, first, second, place⟩ := place_exists head xs ys
  obtain ⟨_, before, after, _⟩ := ring.around place
  have starts : first ∈ head :: xs := by
    rw [place.before]
    simp
  have finishes : second ∈ ys ++ [head] := by
    rw [place.after]
    simp
  rw [before.2, after.1]
  simp only [List.mem_cons, List.mem_append, List.not_mem_nil, or_false] at starts finishes ⊢
  refine ⟨?_, ?_⟩
  · rcases starts with same | member
    · exact Or.inl same
    · exact Or.inr (Or.inl member)
  · rcases finishes with member | same
    · exact Or.inr (Or.inr (Or.inr member))
    · exact Or.inl same

theorem Ring.ends (ring : Ring m head entries) :
    m.blink head ∈ head :: entries ∧ m.flink head ∈ head :: entries := by
  have whole := ring
  rw [← List.append_nil entries] at whole
  obtain ⟨front, back, first, second, place⟩ := place_exists head entries []
  obtain ⟨_, joined, _⟩ := whole.split place
  obtain ⟨same, _⟩ := List.cons.inj place.after
  rw [← same] at joined
  refine ⟨?_, ?_⟩
  · rw [joined.2, place.before]
    simp
  · rw [ring.flink]
    cases entries <;> simp

end Rings

section Update

variable [DecidableEq α] {m : Links α} {head entry first second : α}
  {front back entries xs ys cells : List α}

theorem joined_link (m : Links α) (first second : α) : Joined (link m first second) first second :=
  ⟨Function.update_self _ _ _, Function.update_self _ _ _⟩

theorem Joined.link {a b : α} (joined : Joined m a b) (start : a ≠ first) (finish : b ≠ second) :
    Joined (link m first second) a b := by
  refine ⟨?_, ?_⟩
  · exact (Function.update_of_ne start _ _).trans joined.1
  · exact (Function.update_of_ne finish _ _).trans joined.2

theorem chain_link (chain : cells.IsChain (Joined m)) (start : first ∉ cells.dropLast)
    (finish : second ∉ cells.tail) : cells.IsChain (Joined (link m first second)) := by
  induction cells with
  | nil => exact List.isChain_nil
  | cons cell rest ih =>
    cases rest with
    | nil => exact List.isChain_singleton cell
    | cons next rest =>
      rw [List.isChain_cons_cons] at chain ⊢
      rw [List.dropLast_cons_cons, List.mem_cons, not_or] at start
      rw [List.tail_cons, List.mem_cons, not_or] at finish
      refine ⟨chain.1.link (Ne.symm start.1) (Ne.symm finish.1), ?_⟩
      exact ih chain.2 start.2 finish.2

theorem Ring.link (ring : Ring m head entries) (start : first ∉ head :: entries)
    (finish : second ∉ head :: entries) : Ring (link m first second) head entries := by
  apply ring.congr
  · intro a among
    have apart : a ≠ first := fun same => start (same ▸ among)
    exact Function.update_of_ne apart _ _
  · intro a among
    have apart : a ≠ second := fun same => finish (same ▸ among)
    exact Function.update_of_ne apart _ _

theorem Ring.insert (ring : Ring m head (xs ++ ys))
    (place : Place head xs ys front back first second) (fresh : entry ∉ head :: (xs ++ ys)) :
    Ring (DoublyLinked.link (DoublyLinked.link m entry second) first entry) head
      (xs ++ entry :: ys) := by
  obtain ⟨⟨start, finish⟩, leave, arrive⟩ := place.unaffected ring.nodup
  obtain ⟨starts, _, finishes⟩ := ring.split place
  have outside : entry ∉ front ++ [first] ∧ entry ∉ second :: back := by
    rw [← place.before, ← place.after]
    simp only [List.mem_cons, List.mem_append, not_or] at fresh ⊢
    exact ⟨⟨fresh.1, fresh.2.1⟩, fresh.2.2, fresh.1, List.not_mem_nil⟩
  have apart : entry ≠ first ∧ second ≠ entry := by
    refine ⟨?_, ?_⟩
    · exact fun same => outside.1 (by simp [same])
    · exact fun same => outside.2 (by simp [same])
  apply place.ring_around
  · apply chain_link _ start (fun among => outside.1 (List.mem_of_mem_tail among))
    exact chain_link starts (fun among => outside.1 ((List.dropLast_sublist _).mem among)) finish
  · exact joined_link _ _ _
  · exact (joined_link _ _ _).link apart.1 apart.2
  · apply chain_link _ leave (fun among => outside.2 (List.mem_of_mem_tail among))
    exact chain_link finishes (fun among => outside.2 ((List.dropLast_sublist _).mem among)) arrive
  · rw [← List.cons_append] at fresh ⊢
    exact List.nodup_middle.mpr (List.nodup_cons.mpr ⟨fresh, ring.nodup⟩)

theorem Ring.remove (ring : Ring m head (xs ++ entry :: ys)) :
    Ring (removeEntryList m entry) head (xs ++ ys) := by
  obtain ⟨front, back, first, second, place⟩ := place_exists head xs ys
  obtain ⟨starts, before, after, finishes⟩ := ring.around place
  have nodup : (head :: (xs ++ ys)).Nodup :=
    (((List.sublist_cons_self entry ys).append_left xs).cons_cons head).nodup ring.nodup
  obtain ⟨⟨start, finish⟩, leave, arrive⟩ := place.unaffected nodup
  rw [removeEntryList, before.2, after.1]
  apply place.ring
  · exact chain_link starts start finish
  · exact joined_link _ _ _
  · exact chain_link finishes leave arrive
  · exact nodup

theorem ring_initialized (m : Links α) (head : α) : Ring (initializeListHead m head) head [] :=
  ⟨List.isChain_pair.mpr (joined_link m head head), List.nodup_singleton head⟩

theorem Ring.isListEmpty (ring : Ring m head entries) :
    isListEmpty m head = true ↔ entries = [] := by
  rw [DoublyLinked.isListEmpty, beq_iff_eq, ring.flink]
  cases entries with
  | nil => simp
  | cons entry rest =>
    have apart := (List.nodup_cons.mp ring.nodup).1
    simp only [List.mem_cons, not_or] at apart
    simp [Ne.symm apart.1]

theorem Ring.insertHead (ring : Ring m head entries) (fresh : entry ∉ head :: entries) :
    Ring (insertHeadList m head entry) head (entry :: entries) := by
  obtain ⟨second, back, after⟩ :=
    List.exists_cons_of_ne_nil (List.append_ne_nil_of_right_ne_nil entries (List.cons_ne_nil head []))
  have flink : m.flink head = second := by
    rw [ring.flink]
    simp [after]
  have place : Place head [] entries [] back head second := ⟨rfl, after⟩
  have inserted := @Ring.insert _ _ _ _ entry _ _ _ _ _ _ ring place fresh
  rw [insertHeadList, flink]
  exact inserted

theorem Ring.erase (ring : Ring m head entries) (among : entry ∈ entries) :
    Ring (removeEntryList m entry) head (entries.erase entry) := by
  obtain ⟨xs, ys, rfl⟩ := List.append_of_mem among
  have nodup := (List.nodup_cons.mp ring.nodup).2
  have absent : entry ∉ xs :=
    fun member => (List.nodup_append.mp nodup).2.2 entry member entry (by simp) rfl
  rw [List.erase_append_right _ absent, List.erase_cons_head]
  exact ring.remove

theorem Ring.removeHead (ring : Ring m head (entry :: entries)) :
    (removeHeadList m head).1 = entry ∧ Ring (removeHeadList m head).2 head entries := by
  have flink : m.flink head = entry := ring.flink
  have blink : m.blink entry = head := (List.isChain_cons_cons.mp ring.chain).1.2
  have removed := @Ring.remove _ _ _ _ entry [] entries ring
  rw [removeEntryList, blink] at removed
  refine ⟨flink, ?_⟩
  rw [removeHeadList, flink]
  exact removed

end Update

section Frame

variable [DecidableEq α] {m : Links α} {head other entry : α} {entries others : List α}

def Apart (head : α) (entries : List α) (other : α) (others : List α) : Prop :=
  List.Disjoint (head :: entries) (other :: others)

theorem Ring.insertHead_frame (ring : Ring m other others) (own : Ring m head entries)
    (apart : Apart head entries other others) (fresh : entry ∉ other :: others) :
    Ring (insertHeadList m head entry) other others := by
  have heads := apart List.mem_cons_self
  exact (ring.link fresh (apart own.ends.2)).link heads fresh

theorem Ring.erase_frame (ring : Ring m other others) (own : Ring m head entries)
    (apart : Apart head entries other others) (among : entry ∈ entries) :
    Ring (removeEntryList m entry) other others :=
  ring.link (apart (own.neighbours among).1) (apart (own.neighbours among).2)

theorem Ring.removeHead_frame (ring : Ring m other others) (own : Ring m head (entry :: entries))
    (apart : Apart head (entry :: entries) other others) :
    Ring (removeHeadList m head).2 other others := by
  have flink : m.flink head = entry := own.flink
  have next := (own.neighbours List.mem_cons_self).2
  apply ring.link (apart List.mem_cons_self)
  rw [flink]
  exact apart next

end Frame

end DoublyLinked
