import DebugMap.Proofs.Index.Updates
import DebugMap.Proofs.Store.Lookup

/-!
# A store over a run of edits

An `Edit` is a call that may change a store, and a `History` is a run of edits from the empty store,
each with what it returned. Whether an edit took effect, and on which file, is read off its reply
(`Edit.change?`): an edit that failed leaves the store as it was (`Store.apply_of_failed`), and one
that took effect changes its file alone (`Store.Ordered.file?_apply`).

Main statement: `recorded_of_history`, by which the replies so far tell all there is to know of a
store: which ids were given out, the content under each id, and the revision.
-/

set_option autoImplicit false

namespace DebugMap

/-- **A call that may change a store.** -/
inductive Edit where
  | insert (file : SourceFile)
  | set (id : FileId) (file : SourceFile)
  | remove (id : FileId)
  deriving DecidableEq, Repr

/-- **What an edit returns:** the new file's id, whether there was a file to replace, the content
that was removed. -/
abbrev Edit.Reply : Edit → Type
  | .insert _ => FileId
  | .set _ _ => Bool
  | .remove _ => Option SourceFile

def Store.apply (s : Store) : (e : Edit) → e.Reply × Store
  | .insert file => s.insert file
  | .set id file => s.set id file
  | .remove id => s.remove id

/-- **What an edit with this reply has changed:** a file, and the content that it has from then on,
which is none once it is removed. An edit that failed has changed nothing. -/
def Edit.change? : (e : Edit) → e.Reply → Option (FileId × Option SourceFile)
  | .insert file, id => some (id, some file)
  | .set id file, done => if done then some (id, some file) else none
  | .remove id, content => content.map fun _ => (id, none)

def Edit.issued? : (e : Edit) → e.Reply → Option FileId
  | .insert _, id => some id
  | .set _ _, _ => none
  | .remove _, _ => none

abbrev Edited : Type :=
  (e : Edit) × e.Reply

/-- **A run of edits** from the empty store, each with its reply. -/
inductive History : List Edited → Store → Prop
  | start : History [] {}
  | edit {t s} (e : Edit) : History t s → History (t ++ [⟨e, (s.apply e).1⟩]) (s.apply e).2

def changes (t : List Edited) : List (FileId × Option SourceFile) :=
  t.filterMap fun x => x.1.change? x.2

def issued (t : List Edited) : List FileId :=
  t.filterMap fun x => x.1.issued? x.2

theorem changes_append (t t' : List Edited) :
    changes (t ++ t') = changes t ++ changes t' :=
  List.filterMap_append

theorem changes_concat (t : List Edited) (x : Edited) :
    changes (t ++ [x]) = changes t ++ (x.1.change? x.2).toList := by
  rw [changes_append]
  cases h : x.1.change? x.2 <;> simp [changes, h]

theorem issued_concat (t : List Edited) (x : Edited) :
    issued (t ++ [x]) = issued t ++ (x.1.issued? x.2).toList := by
  rw [issued, List.filterMap_append, ← issued]
  cases h : x.1.issued? x.2 <;> simp [h]

/-! ## One edit -/

namespace Store

variable {s : Store} {e : Edit} {id : FileId} {content : Option SourceFile}

theorem set_reply (s : Store) (id : FileId) (file : SourceFile) :
    (s.set id file).1 = (s.file? id).isSome := by
  unfold Store.set
  split_ifs with h
  · exact h.symm
  · simpa using h

theorem remove_reply (s : Store) (id : FileId) : (s.remove id).1 = s.file? id := by
  unfold Store.remove
  cases h : s.file? id <;> rfl

theorem set_of_absent (h : s.file? id = none) (file : SourceFile) :
    s.set id file = (false, s) := by
  rw [Store.set, h]
  rfl

theorem remove_of_absent (h : s.file? id = none) : s.remove id = (none, s) := by
  rw [Store.remove, h]

/-- **An edit that failed** leaves the store as it was. -/
theorem apply_of_failed (h : e.change? (s.apply e).1 = none) : (s.apply e).2 = s := by
  cases e with
  | insert file => cases h
  | set id file =>
    have hdone : ¬ (s.set id file).1 = true := fun hdone => by
      simp [apply, Edit.change?, hdone] at h
    have habsent : s.file? id = none := by
      rwa [set_reply, Option.not_isSome_iff_eq_none] at hdone
    exact congrArg Prod.snd (set_of_absent habsent file)
  | remove id =>
    have habsent : s.file? id = none := by
      rw [← remove_reply]
      exact Option.map_eq_none_iff.1 h
    exact congrArg Prod.snd (remove_of_absent habsent)

theorem Ordered.apply (h : s.Ordered) (e : Edit) : (s.apply e).2.Ordered := by
  cases e with
  | insert file => exact h.insert file
  | set id file => exact h.set id file
  | remove id => exact h.remove id

/-- **An edit that took effect** changes its file alone. -/
theorem Ordered.file?_apply (h : s.Ordered) (hc : e.change? (s.apply e).1 = some (id, content))
    (i : FileId) : (s.apply e).2.file? i = if i = id then content else s.file? i := by
  cases e with
  | insert file =>
    cases hc
    exact h.file?_insert file i
  | set j file =>
    obtain ⟨hdone, hc⟩ := Option.ite_none_right_eq_some.1 hc
    cases hc
    obtain ⟨old, hold⟩ := Option.isSome_iff_exists.1 ((set_reply s id file).symm.trans hdone)
    refine (file?_set s id file i).trans ?_
    rw [hold]
    rfl
  | remove j =>
    obtain ⟨old, -, hc⟩ := Option.map_eq_some_iff.1 hc
    cases hc
    exact file?_remove s id i

theorem revision_apply (s : Store) (e : Edit) :
    (s.apply e).2.revision = s.revision + (e.change? (s.apply e).1).toList.length := by
  cases e with
  | insert file => rfl
  | set id file =>
    show (s.set id file).2.revision =
      s.revision + (if (s.set id file).1 then some (id, some file) else none).toList.length
    rw [set_reply]
    unfold Store.set
    split_ifs <;> rfl
  | remove id =>
    show (s.remove id).2.revision =
      s.revision + ((s.remove id).1.map fun _ => (id, (none : Option SourceFile))).toList.length
    unfold Store.remove
    cases s.file? id <;> rfl

theorem issued?_apply (s : Store) (e : Edit) :
    (s.apply e).2.nextId = s.nextId + (e.issued? (s.apply e).1).toList.length ∧
      ∀ id ∈ e.issued? (s.apply e).1, id = ⟨s.nextId⟩ := by
  cases e with
  | insert file => exact ⟨rfl, fun id hid => (Option.some.inj hid).symm⟩
  | set id file => exact ⟨nextId_set s id file, fun _ hid => nomatch hid⟩
  | remove id => exact ⟨nextId_remove s id, fun _ hid => nomatch hid⟩

theorem present_of_change? (hc : e.change? (s.apply e).1 = some (id, content)) :
    (s.file? id).isSome = true ∨ id = ⟨s.nextId⟩ ∧ content ≠ none := by
  cases e with
  | insert file =>
    cases hc
    exact .inr ⟨rfl, nofun⟩
  | set j file =>
    obtain ⟨hdone, hc⟩ := Option.ite_none_right_eq_some.1 hc
    cases hc
    exact .inl ((set_reply s id file).symm.trans hdone)
  | remove j =>
    obtain ⟨old, hold, hc⟩ := Option.map_eq_some_iff.1 hc
    cases hc
    refine .inl ?_
    rw [← remove_reply]
    exact Option.isSome_iff_exists.2 ⟨old, hold⟩

end Store

/-! ## Runs of edits -/

namespace History

variable {t : List Edited} {s : Store}

theorem ordered (h : History t s) : s.Ordered := by
  induction h with
  | start => exact Store.ordered_empty
  | edit e _ ih => exact ih.apply e

/-- **Ids are given out in increasing order**, so no id twice. -/
theorem issued_below (h : History t s) :
    (issued t).Nodup ∧ ∀ id ∈ issued t, id.raw < s.nextId := by
  induction h with
  | start => exact ⟨.nil, fun _ hid => nomatch hid⟩
  | @edit t s e _ ih =>
    obtain ⟨hnodup, hbelow⟩ := ih
    obtain ⟨hnext, hnew⟩ := s.issued?_apply e
    rw [issued_concat, hnext]
    refine ⟨List.nodup_append.2 ⟨hnodup, Option.toList_nodup _, ?_⟩, fun id hid => ?_⟩
    · rintro i hi j hj rfl
      obtain rfl := hnew i (Option.mem_toList.1 hj)
      exact Nat.lt_irrefl _ (hbelow _ hi)
    · rcases List.mem_append.1 hid with hid | hid
      · exact Nat.lt_add_right _ (hbelow id hid)
      · obtain rfl := hnew id (Option.mem_toList.1 hid)
        exact Nat.lt_add_of_pos_right (List.length_pos_of_mem hid)

/-- **The content under an id** is that of the last change of it. -/
theorem file?_eq (h : History t s) (id : FileId) : s.file? id = lastSource? (changes t) id := by
  induction h with
  | start => rfl
  | @edit t s e h ih =>
    rw [changes_concat]
    show (s.apply e).2.file? id = _
    cases hc : e.change? (s.apply e).1 with
    | none =>
      rw [Store.apply_of_failed hc, ih]
      exact congrArg (lastSource? · id) (List.append_nil _).symm
    | some change =>
      rw [h.ordered.file?_apply hc, ih]
      exact (lastSource?_concat (changes t) change.1 id change.2).symm

theorem revision_eq (h : History t s) : s.revision = (changes t).length := by
  induction h with
  | start => rfl
  | @edit t s e _ ih =>
    rw [changes_concat, List.length_append, ← ih]
    exact s.revision_apply e

/-- **A file that was removed stays away:** its id is below the next one, and nothing but the next
id is ever filled. -/
theorem gone (h : History t s) {id : FileId} (hid : (id, none) ∈ changes t) :
    id.raw < s.nextId ∧ s.file? id = none := by
  induction h with
  | start => cases hid
  | @edit t s e h ih =>
    have hmono : s.nextId ≤ (s.apply e).2.nextId := by
      rw [(s.issued?_apply e).1]
      exact Nat.le_add_right _ _
    rw [changes_concat, List.mem_append] at hid
    rcases hid with hid | hid
    · -- the file is gone already, and this edit does not bring it back
      obtain ⟨hlt, hnone⟩ := ih hid
      refine ⟨Nat.lt_of_lt_of_le hlt hmono, ?_⟩
      cases hc : e.change? (s.apply e).1 with
      | none => rw [Store.apply_of_failed hc, hnone]
      | some change =>
        have hne : id ≠ change.1 := by
          rintro rfl
          rcases Store.present_of_change? hc with hpresent | ⟨hnext, -⟩
          · rw [hnone] at hpresent
            cases hpresent
          · rw [hnext] at hlt
            exact Nat.lt_irrefl _ hlt
        rw [h.ordered.file?_apply hc, if_neg hne, hnone]
    · have hc : e.change? (s.apply e).1 = some (id, none) := Option.mem_toList.1 hid
      have hpresent : (s.file? id).isSome = true :=
        (Store.present_of_change? hc).resolve_right fun hnext => hnext.2 rfl
      have hlt : id.raw < s.nextId := h.ordered.below id ((s.mem_ids_iff id).2 hpresent)
      exact ⟨Nat.lt_of_lt_of_le hlt hmono, (h.ordered.file?_apply hc id).trans (if_pos rfl)⟩

/-- **The revision tells whether a store has changed:** while it is the same, so are the files. -/
theorem files_eq {t₁ t₂ : List Edited} {s₁ : Store} (h : History (t₁ ++ t₂) s)
    (h₁ : History t₁ s₁) (hrev : s₁.revision = s.revision) : s₁.files = s.files := by
  have hnone : changes t₂ = [] := by
    rw [h₁.revision_eq, h.revision_eq, changes_append, List.length_append] at hrev
    exact List.length_eq_zero_iff.1 (by omega)
  refine h₁.ordered.enumerates.unique (h.ordered.enumerates.congr fun entry => ?_)
  rw [h.file?_eq, h₁.file?_eq, changes_append, hnone, List.append_nil]

end History

/-! ## The main statement -/

/-- **What the replies of a run tell of the store** after it. -/
structure Recorded (t : List Edited) (s : Store) : Prop where
  issued : (issued t).Nodup
  content : ∀ id, s.file? id = lastSource? (changes t) id
  /-- A file that was removed is gone for good: it cannot be replaced either. -/
  removed : ∀ id, (id, none) ∈ changes t → s.file? id = none ∧ ∀ file, s.set id file = (false, s)
  ids : s.ids.Pairwise (· < ·) ∧ ∀ id, id ∈ s.ids ↔ (s.file? id).isSome = true
  revision : s.revision = (changes t).length
  /-- A present file can be replaced and removed, and no other. -/
  replies : ∀ id, (∀ file, (s.set id file).1 = (s.file? id).isSome) ∧ (s.remove id).1 = s.file? id
  failed : ∀ e, e.change? (s.apply e).1 = none → (s.apply e).2 = s
  changed : ∀ e id content, e.change? (s.apply e).1 = some (id, content) →
    ∀ i, (s.apply e).2.file? i = if i = id then content else s.file? i
  /-- Two readings at one revision see the same files. -/
  readings : ∀ t₁ t₂ s₁, t = t₁ ++ t₂ → History t₁ s₁ → s₁.revision = s.revision →
    s₁.files = s.files

/-- **A store is what its edits made of it**, after every run. -/
theorem recorded_of_history {t : List Edited} {s : Store} (h : History t s) :
    Recorded t s where
  issued := h.issued_below.1
  content := h.file?_eq
  removed id hid := by
    obtain ⟨-, hnone⟩ := h.gone hid
    exact ⟨hnone, Store.set_of_absent hnone⟩
  ids := ⟨h.ordered.increasing, s.mem_ids_iff⟩
  revision := h.revision_eq
  replies id := ⟨s.set_reply id, s.remove_reply id⟩
  failed _ hc := Store.apply_of_failed hc
  changed _ _ _ hc := h.ordered.file?_apply hc
  readings t₁ t₂ s₁ ht h₁ hrev := by
    subst ht
    exact h.files_eq h₁ hrev

/-- File 0 is removed between two others, then replaced in vain and removed in vain. The third file
gets an id of its own, and file 1 is replaced. -/
theorem recorded_of_history_removed : ∃ t s, History t s ∧ issued t = [⟨0⟩, ⟨1⟩, ⟨2⟩] ∧
    s.ids = [⟨1⟩, ⟨2⟩] ∧ s.revision = 5 ∧ (⟨0⟩, none) ∈ changes t ∧
    s.file? ⟨1⟩ = some ⟨"c", "", .foreign⟩ ∧ Recorded t s := by
  have h := History.start
    |>.edit (.insert ⟨"a", "", .foreign⟩)
    |>.edit (.insert ⟨"b", "", .foreign⟩)
    |>.edit (.remove ⟨0⟩)
    |>.edit (.set ⟨0⟩ ⟨"a", "", .foreign⟩)
    |>.edit (.insert ⟨"a", "", .foreign⟩)
    |>.edit (.remove ⟨0⟩)
    |>.edit (.set ⟨1⟩ ⟨"c", "", .foreign⟩)
  exact ⟨_, _, h, by decide +kernel, by decide +kernel, by decide +kernel, by decide +kernel,
    by decide +kernel, recorded_of_history h⟩

end DebugMap
