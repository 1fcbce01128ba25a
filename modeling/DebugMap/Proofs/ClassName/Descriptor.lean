import DebugMap.Proofs.ClassName.Grammar
import DebugMap.Proofs.Smali.Writer

/-!
# Binary names and descriptors

A descriptor names the class that it was made for. Main statements: `isBinary_of_binary?` (what a
binary name looks like), `normalize?_wrap` (a descriptor is brought back to the binary name in it),
`binary?_writtenName` (a file names its class as it was told) and `descriptor_round_trips`.
-/

set_option autoImplicit false

namespace DebugMap

namespace ClassName

/-- **A binary name:** segments that are not empty, with dots between them. -/
structure IsBinary (b : List Char) : Prop where
  nonempty : b ≠ []
  semicolon : ';' ∉ b
  bracket : '[' ∉ b
  slash : '/' ∉ b
  segments : Text.hasEmptySegment '.' b = false

theorem dotted_ne_slash (c : Char) : dotted c ≠ '/' := by
  unfold dotted
  split
  · decide
  · assumption

theorem dotted_eq_iff {c d : Char} (hslash : d ≠ '/') (hdot : d ≠ '.') :
    dotted c = d ↔ c = d := by
  unfold dotted
  split
  · rename_i hc
    exact ⟨fun h => absurd h.symm hdot, fun h => absurd (h.symm.trans hc) hslash⟩
  · exact Iff.rfl

theorem slashed_eq_iff {c d : Char} (hslash : d ≠ '/') (hdot : d ≠ '.') :
    slashed c = d ↔ c = d := by
  unfold slashed
  split
  · rename_i hc
    exact ⟨fun h => absurd h.symm hslash, fun h => absurd (h.symm.trans hc) hdot⟩
  · exact Iff.rfl

theorem dotted_slashed {c : Char} (h : c ≠ '/') : dotted (slashed c) = c := by
  unfold slashed
  split
  · rename_i hc
    rw [hc]
    rfl
  · exact if_neg h

theorem mem_map_dotted_iff {c : List Char} {d : Char} (hslash : d ≠ '/') (hdot : d ≠ '.') :
    d ∈ c.map dotted ↔ d ∈ c := by
  simp only [List.mem_map, dotted_eq_iff hslash hdot, exists_eq_right]

theorem mem_map_slashed_iff {b : List Char} {d : Char} (hslash : d ≠ '/') (hdot : d ≠ '.') :
    d ∈ b.map slashed ↔ d ∈ b := by
  simp only [List.mem_map, slashed_eq_iff hslash hdot, exists_eq_right]

theorem map_dotted_slashed {b : List Char} (h : '/' ∉ b) : (b.map slashed).map dotted = b := by
  rw [List.map_map]
  refine (List.map_congr_left fun c hc => ?_).trans (List.map_id b)
  exact dotted_slashed fun heq => h (heq ▸ hc)

theorem isBinary_map_dotted {path : List Char} (h : IsPath path) : IsBinary (path.map dotted) := by
  obtain ⟨hplain, hsegments⟩ := isPath_iff.1 h
  refine ⟨by simpa using fun hnil => hplain (.inl hnil), ?_, ?_, ?_, hsegments⟩
  · rw [mem_map_dotted_iff (by decide) (by decide)]
    exact h.semicolon
  · rw [mem_map_dotted_iff (by decide) (by decide)]
    exact h.bracket
  · intro hmem
    obtain ⟨c, -, hc⟩ := List.mem_map.1 hmem
    exact dotted_ne_slash c hc

theorem isBinary_of_binary? {name b : String} (h : binary? name = some b) : IsBinary b.toList := by
  obtain ⟨hpath, hb⟩ := (binary?_eq_some_iff (spells_iff.2 rfl)).1 h
  rw [hb, intercalate_segments]
  exact isBinary_map_dotted hpath

theorem IsBinary.isPath_map_slashed {b : List Char} (h : IsBinary b) : IsPath (b.map slashed) := by
  refine isPath_iff.2 ⟨?_, (map_dotted_slashed h.slash).symm ▸ h.segments⟩
  rw [List.map_eq_nil_iff, mem_map_slashed_iff (by decide) (by decide),
    mem_map_slashed_iff (by decide) (by decide)]
  rintro (hnil | hmem | hmem)
  · exact h.nonempty hnil
  · exact h.semicolon hmem
  · exact h.bracket hmem

/-- **A descriptor is brought back** to the binary name in it. -/
theorem normalize?_wrap {b : List Char} (h : IsBinary b) : normalize? (wrap b) = some b :=
  (normalize?_eq_some_iff (.inl rfl)).2 ⟨h.isPath_map_slashed, (map_dotted_slashed h.slash).symm⟩

theorem trim_wrap (b : List Char) : Text.trim (wrap b) = wrap b := by
  refine Text.trim_eq_self (fun c hc => ?_) fun c hc => ?_
  · obtain rfl : 'L' = c := by simpa [wrap] using hc
    decide
  · have hlast : (wrap b).getLast? = some ';' := List.getLast?_concat (l := 'L' :: b.map slashed)
    obtain rfl : ';' = c := Option.some.inj (hlast.symm.trans hc)
    decide

theorem binary?_wrap {name b : String} (h : binary? name = some b) :
    binary? (String.ofList (wrap b.toList)) = some b := by
  rw [binary?, String.toList_ofList, trim_wrap, normalize?_wrap (isBinary_of_binary? h),
    Option.map_some, String.ofList_toList]

/-- **A descriptor has the binary form** of the name that it was made for. -/
theorem binary?_of_descriptor? {name d : String} (h : descriptor? name = some d) :
    binary? d = binary? name := by
  obtain ⟨b, hb, rfl⟩ := Option.map_eq_some_iff.1 h
  rw [binary?_wrap hb, hb]

theorem descriptor?_congr {name other : String} (h : binary? name = binary? other) :
    descriptor? name = descriptor? other := by
  rw [descriptor?, descriptor?, h]

theorem binary?_eq_of_descriptor?_eq {name other : String}
    (h : descriptor? name = descriptor? other) : binary? name = binary? other := by
  cases hname : descriptor? name with
  | some d =>
    rw [← binary?_of_descriptor? hname, ← binary?_of_descriptor? (h.symm.trans hname)]
  | none =>
    have hnone : binary? name = none := Option.map_eq_none_iff.1 hname
    have hother : binary? other = none := Option.map_eq_none_iff.1 (h.symm.trans hname)
    rw [hnone, hother]

end ClassName

/-- **A file names its class** as it was told, in another spelling perhaps. -/
theorem Smali.binary?_writtenName (className : String) :
    ClassName.binary? (writtenName className) = ClassName.binary? className := by
  rw [writtenName, ClassName.descriptor?]
  cases h : ClassName.binary? className with
  | none => exact h
  | some b => exact ClassName.binary?_wrap h

namespace ClassName

/-- **Descriptors lead back to the names that they were made for.** Names that are accepted have
one, which stands for the same class and is its own descriptor; names have the same one exactly when
they have the same binary form; and a file is written for the class that it was told, in whatever
spelling. -/
theorem descriptor_round_trips (name : String) :
    ((descriptor? name).isSome ↔ (binary? name).isSome) ∧
    (∀ d, descriptor? name = some d → binary? d = binary? name ∧ descriptor? d = some d) ∧
    (∀ other, binary? name = binary? other ↔ descriptor? name = descriptor? other) ∧
    ∀ calls, ∃ c, (Smali.writtenFile name calls).classDef? = some c ∧
      c.qualifiedName? = binary? name := by
  refine ⟨by rw [descriptor?_isSome], fun d hd => ?_, fun other => ?_, fun calls => ?_⟩
  · have hbinary := binary?_of_descriptor? hd
    exact ⟨hbinary, (descriptor?_congr hbinary).trans hd⟩
  · exact ⟨descriptor?_congr, binary?_eq_of_descriptor?_eq⟩
  · rw [Smali.writtenFile_eq]
    exact ⟨_, rfl, Smali.binary?_writtenName name⟩

/-- A blank inside the wrapper stays there: the binary form of this name is not its own. -/
theorem descriptor_round_trips_blank :
    binary? "\tL a;" = some " a" ∧ descriptor? "\tL a;" = some "L a;" ∧
      binary? "L a;" = some " a" ∧ descriptor? "L a;" = some "L a;" := by
  have hbinary : binary? "\tL a;" = some " a" := by decide +kernel
  have hdescriptor : descriptor? "\tL a;" = some "L a;" := by decide +kernel
  obtain ⟨hback, hself⟩ := (descriptor_round_trips "\tL a;").2.1 "L a;" hdescriptor
  exact ⟨hbinary, hdescriptor, hback.trans hbinary, hself⟩

end ClassName

end DebugMap
