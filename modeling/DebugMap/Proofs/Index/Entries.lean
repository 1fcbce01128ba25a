import DebugMap.Index.Basic
import Mathlib.Data.List.Sort

/-!
# Entries by file and in increasing order

File ids are ordered by their numbers and the places of methods by file, then by position; both
orders are total. A list `Enumerates` a predicate when it holds exactly the values of the
predicate, each once, in increasing order: there is at most one such list (`Enumerates.unique`),
its head is the least value (`Enumerates.head?_eq_some_iff`), and what a filter or an insertion
does to the list is what it does to the predicate (`Enumerates.filter`,
`Enumerates.insertSorted`). Where rows are kept by file id, to take out or to replace the row of
one file leaves the others as they were (`lookup_filter_ne`, `lookup_map_row`).
-/

set_option autoImplicit false

namespace DebugMap

instance : IsStrictTotalOrder FileId (· < ·) where
  trichotomous a b h₁ h₂ := by
    obtain ⟨a⟩ := a
    obtain ⟨b⟩ := b
    change ¬ a < b at h₁
    change ¬ b < a at h₂
    rw [show a = b by omega]
  irrefl a := Nat.lt_irrefl a.raw
  trans a b c := Nat.lt_trans (n := a.raw) (m := b.raw) (k := c.raw)

theorem FileId.lt_iff {a b : FileId} : a < b ↔ a.raw < b.raw := Iff.rfl

theorem MethodPlace.lt_iff {a b : MethodPlace} :
    a < b ↔ a.file < b.file ∨ a.file = b.file ∧ a.method < b.method := Iff.rfl

instance : IsStrictTotalOrder MethodPlace (· < ·) where
  trichotomous a b h₁ h₂ := by
    obtain ⟨f, m⟩ := a
    obtain ⟨g, n⟩ := b
    simp only [MethodPlace.lt_iff, not_or, not_and] at h₁ h₂
    obtain rfl : f = g := Std.Trichotomous.trichotomous _ _ h₁.1 h₂.1
    have hm := h₁.2 rfl
    have hn := h₂.2 rfl
    rw [show m = n by omega]
  irrefl a h := by
    rcases MethodPlace.lt_iff.1 h with h | ⟨-, h⟩
    · exact irrefl_of (· < ·) a.file h
    · exact Nat.lt_irrefl _ h
  trans a b c hab hbc := by
    rw [MethodPlace.lt_iff] at hab hbc ⊢
    rcases hab with hab | ⟨hf, hab⟩ <;> rcases hbc with hbc | ⟨hg, hbc⟩
    · exact .inl (trans_of (· < ·) hab hbc)
    · exact .inl (hg ▸ hab)
    · exact .inl (hf ▸ hbc)
    · exact .inr ⟨hf.trans hg, Nat.lt_trans hab hbc⟩

/-! ## Rows by file -/

section
variable {α : Type}

theorem lookup_row (j i : FileId) (a : α) (rest : List (FileId × α)) :
    ((j, a) :: rest).lookup i = if i = j then some a else rest.lookup i := by
  rw [List.lookup_cons]
  by_cases h : i = j
  · simp [h]
  · rw [beq_eq_false_iff_ne.2 h, if_neg h]

theorem lookup_filter_ne (rows : List (FileId × α)) (id i : FileId) :
    (rows.filter fun row => row.1 ≠ id).lookup i = if i = id then none else rows.lookup i := by
  induction rows with
  | nil => simp
  | cons row rest ih =>
    obtain ⟨j, a⟩ := row
    by_cases hj : j = id
    · subst hj
      rw [List.filter_cons_of_neg (by simp), ih, lookup_row]
      by_cases hi : i = j <;> simp [hi]
    · rw [List.filter_cons_of_pos (by simpa using hj), lookup_row, lookup_row, ih]
      by_cases hi : i = j
      · simp [hi, hj]
      · simp [hi]

theorem lookup_map_row (rows : List (FileId × α)) (id : FileId) (a : α) (i : FileId) :
    (rows.map fun row => if row.1 = id then (id, a) else row).lookup i =
      if i = id then (rows.lookup id).map fun _ => a else rows.lookup i := by
  induction rows with
  | nil => simp
  | cons row rest ih =>
    obtain ⟨j, old⟩ := row
    rw [List.map_cons, lookup_row, lookup_row]
    by_cases hj : j = id
    · subst hj
      rw [if_pos rfl, lookup_row, ih]
      by_cases hi : i = j <;> simp [hi]
    · rw [if_neg hj, lookup_row, ih, if_neg (Ne.symm hj)]
      by_cases hi : i = id
      · simp [hi, Ne.symm hj]
      · simp [hi]

end

/-! ## Sorted insertion -/

section
variable {α : Type} [LT α] [DecidableLT α] [IsStrictTotalOrder α (· < ·)]

theorem mem_insertSorted {x y : α} {xs : List α} :
    y ∈ insertSorted x xs ↔ y = x ∨ y ∈ xs := by
  induction xs with
  | nil => simp [insertSorted]
  | cons z rest ih =>
    rw [insertSorted]
    split_ifs with hxz hzx
    · simp
    · rw [List.mem_cons, ih, List.mem_cons, or_left_comm]
    · -- the entry is there already: neither is below the other
      obtain rfl : x = z := Std.Trichotomous.trichotomous _ _ hxz hzx
      simp

theorem pairwise_insertSorted {x : α} {xs : List α} (h : xs.Pairwise (· < ·)) :
    (insertSorted x xs).Pairwise (· < ·) := by
  induction xs with
  | nil => simp [insertSorted]
  | cons z rest ih =>
    obtain ⟨hz, hrest⟩ := List.pairwise_cons.1 h
    rw [insertSorted]
    split_ifs with hxz hzx
    · refine List.pairwise_cons.2 ⟨fun y hy => ?_, h⟩
      rcases List.mem_cons.1 hy with rfl | hy
      · exact hxz
      · exact trans_of (· < ·) hxz (hz y hy)
    · refine List.pairwise_cons.2 ⟨fun y hy => ?_, ih hrest⟩
      rcases mem_insertSorted.1 hy with rfl | hy
      · exact hzx
      · exact hz y hy
    · exact h

end

/-! ## Listing the values of a predicate -/

/-- **The values of a predicate**, each once and in increasing order. -/
structure Enumerates {α : Type} (lt : α → α → Prop) (p : α → Prop) (xs : List α) : Prop where
  increasing : xs.Pairwise lt
  mem_iff : ∀ x, x ∈ xs ↔ p x

namespace Enumerates

variable {α β : Type} {lt : α → α → Prop} {p q : α → Prop} {xs ys : List α}

theorem nil (h : ∀ x, ¬ p x) : Enumerates lt p [] :=
  ⟨.nil, fun x => iff_of_false List.not_mem_nil (h x)⟩

theorem congr (h : Enumerates lt p xs) (hpq : ∀ x, p x ↔ q x) : Enumerates lt q xs :=
  ⟨h.increasing, fun x => (h.mem_iff x).trans (hpq x)⟩

theorem unique [Std.Asymm lt] (hx : Enumerates lt p xs) (hy : Enumerates lt p ys) : xs = ys :=
  hx.increasing.eq_of_mem_iff hy.increasing fun x => (hx.mem_iff x).trans (hy.mem_iff x).symm

theorem filter (h : Enumerates lt p xs) (keep : α → Bool) :
    Enumerates lt (fun x => p x ∧ keep x = true) (xs.filter keep) :=
  ⟨h.increasing.filter keep, fun x => by rw [List.mem_filter, h.mem_iff]⟩

theorem map {lt' : β → β → Prop} (h : Enumerates lt p xs) (f : α → β)
    (hf : ∀ x y, lt x y → lt' (f x) (f y)) :
    Enumerates lt' (fun y => ∃ x, p x ∧ f x = y) (xs.map f) :=
  ⟨h.increasing.map f hf, fun y => by simp only [List.mem_map, h.mem_iff]⟩

theorem head?_eq_none_iff (h : Enumerates lt p xs) : xs.head? = none ↔ ∀ x, ¬ p x := by
  rw [List.head?_eq_none_iff, List.eq_nil_iff_forall_not_mem]
  simp only [h.mem_iff]

theorem head?_eq_some_iff [Std.Asymm lt] (h : Enumerates lt p xs) {x : α} :
    xs.head? = some x ↔ p x ∧ ∀ y, p y → y = x ∨ lt x y := by
  cases xs with
  | nil => simpa using fun hx => absurd ((h.mem_iff x).2 hx) List.not_mem_nil
  | cons a rest =>
    have hrest := List.pairwise_cons.1 h.increasing
    have ha : p a := (h.mem_iff a).1 List.mem_cons_self
    have least : ∀ y, p y → y = a ∨ lt a y := fun y hy =>
      (List.mem_cons.1 ((h.mem_iff y).2 hy)).imp_right (hrest.1 y)
    rw [List.head?_cons, Option.some_inj]
    refine ⟨fun hax => hax ▸ ⟨ha, least⟩, fun ⟨hx, hleast⟩ => ?_⟩
    rcases hleast a ha with hax | hxa
    · exact hax
    · rcases least x hx with hxa' | hax
      · exact hxa'.symm
      · exact absurd hax (asymm_of lt hxa)

theorem insertSorted [LT α] [DecidableLT α] [IsStrictTotalOrder α (· < ·)]
    (h : Enumerates (· < ·) p xs) (x : α) :
    Enumerates (· < ·) (fun y => y = x ∨ p y) (DebugMap.insertSorted x xs) :=
  ⟨pairwise_insertSorted h.increasing, fun y => by rw [mem_insertSorted, h.mem_iff]⟩

end Enumerates

end DebugMap
