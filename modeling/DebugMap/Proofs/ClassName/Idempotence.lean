import DebugMap.Proofs.ClassName.Descriptor

/-!
# Binary names read again

A binary name that is brought into binary form stays what it is unless an end of it is blank, and
that is so only if the blank stood inside the wrapper of a descriptor, where trimming does not reach
it. Main statements: `binary?_self_iff` (which binary names stay), `binary?_again` (when the binary
form of a name stays, and what becomes of it otherwise) and `binary?_not_idempotent`.
-/

set_option autoImplicit false

namespace DebugMap

namespace Text

variable {s t : List Char}

theorem isTrimmed_self_iff : IsTrimmed s s ↔
    (∀ c, s.head? = some c → isBlank c = false) ∧ ∀ c, s.getLast? = some c → isBlank c = false :=
  ⟨fun h => ⟨h.head, h.last⟩, fun h => trim_eq_iff.1 (trim_eq_self h.1 h.2)⟩

theorem IsTrimmed.self (h : IsTrimmed s t) : IsTrimmed t t :=
  isTrimmed_self_iff.2 ⟨h.head, h.last⟩

theorem IsTrimmed.subset (h : IsTrimmed s t) : t ⊆ s := by
  obtain ⟨left, right, rfl, -, -⟩ := h.parts
  intro c hc
  simp [hc]

theorem IsTrimmed.unique {t' : List Char} (h : IsTrimmed s t) (h' : IsTrimmed s t') : t = t' :=
  (trim_eq_iff.2 h).symm.trans (trim_eq_iff.2 h')

end Text

namespace ClassName

open Text

/-! ## Names that stay -/

theorem isBlank_dotted (c : Char) : isBlank (dotted c) = isBlank c := by
  unfold dotted
  split
  · rename_i hc
    rw [hc]
    decide
  · rfl

theorem isTrimmed_map_dotted_iff {path : List Char} :
    IsTrimmed (path.map dotted) (path.map dotted) ↔ IsTrimmed path path := by
  simp [isTrimmed_self_iff, isBlank_dotted]

theorem map_dotted_eq_self {b : List Char} (h : '/' ∉ b) : b.map dotted = b := by
  have hkeep : ∀ c ∈ b, dotted c = c := by
    intro c hc
    have hne : c ≠ '/' := by
      rintro rfl
      exact h hc
    exact if_neg hne
  simpa using List.map_congr_left hkeep

theorem IsBinary.isPath {b : List Char} (h : IsBinary b) : IsPath b := by
  refine isPath_iff.2 ⟨?_, ?_⟩
  · simp [h.nonempty, h.semicolon, h.bracket]
  · rw [map_dotted_eq_self h.slash]
    exact h.segments

theorem IsBinary.spells {b : String} (h : IsBinary b.toList) : Spells b (trim b.toList) := by
  refine ⟨_, isTrimmed_trim _, .inr ⟨fun inner heq => ?_, rfl⟩⟩
  have hmem : ';' ∈ trim b.toList := by simp [heq]
  exact h.semicolon ((isTrimmed_trim _).subset hmem)

theorem binary?_of_isBinary {b again : String} (h : IsBinary b.toList) :
    binary? b = some again ↔ IsPath (trim b.toList) ∧ again.toList = trim b.toList := by
  have hslash : '/' ∉ trim b.toList := fun hmem => h.slash ((isTrimmed_trim _).subset hmem)
  rw [binary?_eq_some_iff h.spells, intercalate_segments, map_dotted_eq_self hslash]

/-- **A binary name stays what it is** if neither end of it is blank. -/
theorem binary?_self_iff {b : String} (h : IsBinary b.toList) :
    binary? b = some b ↔ IsTrimmed b.toList b.toList := by
  rw [binary?_of_isBinary h, ← trim_eq_iff]
  constructor
  · rintro ⟨-, heq⟩
    exact heq.symm
  · intro heq
    rw [heq]
    exact ⟨h.isPath, rfl⟩

/-! ## The binary form of a name -/

theorem Spells.isTrimmed_iff {name : String} {path : List Char} (h : Spells name path) :
    IsTrimmed path path ↔
      ∀ inner, IsTrimmed name.toList ('L' :: inner ++ [';']) → IsTrimmed inner inner := by
  obtain ⟨t, ht, rfl | ⟨hbare, rfl⟩⟩ := h
  · constructor
    · intro hpath inner hinner
      obtain rfl : path = inner := by simpa using ht.unique hinner
      exact hpath
    · intro hinner
      exact hinner path ht
  · constructor
    · intro _ inner hinner
      exact absurd (ht.unique hinner) (hbare inner)
    · intro _
      exact ht.self

/-- **The binary form of a name stays what it is** unless an end of it is a blank from inside the
wrapper of a descriptor. The second time, those blanks go, and what is left has to be a path again;
if it is, it stays from then on. -/
theorem binary?_again {name b : String} (h : binary? name = some b) :
    (binary? b = some b ↔
      ∀ inner, IsTrimmed name.toList ('L' :: inner ++ [';']) → IsTrimmed inner inner) ∧
    (∀ again, binary? b = some again ↔
      IsPath (trim b.toList) ∧ again.toList = trim b.toList) ∧
    ∀ again, binary? b = some again → binary? again = some again := by
  have hbinary := isBinary_of_binary? h
  refine ⟨?_, fun again => binary?_of_isBinary hbinary, fun again hagain => ?_⟩
  · have hspells : Spells name _ := spells_iff.2 rfl
    rw [binary?_self_iff hbinary, ((binary?_eq_some_iff hspells).1 h).2, intercalate_segments,
      isTrimmed_map_dotted_iff, hspells.isTrimmed_iff]
  · rw [binary?_self_iff (isBinary_of_binary? hagain), ((binary?_of_isBinary hbinary).1 hagain).2]
    exact (isTrimmed_trim _).self

/-- A blank inside the path stays where it is, and one at its front does not. -/
theorem binary?_again_blank :
    binary? "com. a" = some "com. a" ∧ binary? " a" = some "a" ∧ binary? "a" = some "a" := by
  have hname : binary? "Lcom/ a;" = some "com. a" := by decide +kernel
  have hfront : binary? "L a;" = some " a" := by decide +kernel
  have hagain : binary? " a" = some "a" :=
    ((binary?_again hfront).2.1 "a").2 ⟨⟨by decide +kernel, by decide +kernel, by decide +kernel⟩,
      by decide +kernel⟩
  have hspells : Spells "Lcom/ a;" "com/ a".toList := spells_iff.2 (by decide +kernel)
  have hinside := hspells.isTrimmed_iff.1 (trim_eq_iff.1 (by decide +kernel))
  exact ⟨(binary?_again hname).1.2 hinside, hagain, (binary?_again hfront).2.2 "a" hagain⟩

/-- **The binary form of a name need not be its own binary form.** -/
theorem binary?_not_idempotent :
    binary? "L a;" = some " a" ∧ binary? " a" = some "a" ∧
      ¬∀ name b : String, binary? name = some b → binary? b = some b := by
  have hname : binary? "L a;" = some " a" := by decide +kernel
  have hagain : binary? " a" = some "a" := by decide +kernel
  refine ⟨hname, hagain, fun h => ?_⟩
  have := (h _ _ hname).symm.trans hagain
  exact absurd (Option.some.inj this) (by decide)

end ClassName

end DebugMap
