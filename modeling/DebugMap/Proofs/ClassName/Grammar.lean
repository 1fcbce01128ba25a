import DebugMap.ClassName
import Mathlib.Logic.ExistsUnique
import Mathlib.Tactic.SplitIfs

/-!
# Spellings of a class name

A class name is accepted by its grammar alone: without the blanks at its ends and the wrapper of a
descriptor, it is a path of segments that are not empty. Main statements: `trim_eq_iff` (trimming
takes off all blanks at the ends and nothing else), `nil_mem_splitOn_iff` (when a separator leaves a
segment empty), `binary?_eq_some_iff` (which names have a binary form, and which) and
`spellings_accepted`, by which names with one binary form have the same segments.
-/

set_option autoImplicit false

namespace DebugMap

namespace Text

/-! ## Blanks at the ends -/

/-- **A text without the blanks at its ends.** -/
structure IsTrimmed (s t : List Char) : Prop where
  parts : ∃ left right, s = left ++ t ++ right ∧ (∀ c ∈ left, isBlank c = true) ∧
    ∀ c ∈ right, isBlank c = true
  head : ∀ c, t.head? = some c → isBlank c = false
  last : ∀ c, t.getLast? = some c → isBlank c = false

theorem isTrimmed_trim (s : List Char) : IsTrimmed s (trim s) := by
  have hfront : s.takeWhile isBlank ++ s.dropWhile isBlank = s := List.takeWhile_append_dropWhile
  have hback : trim s ++ ((s.dropWhile isBlank).reverse.takeWhile isBlank).reverse =
      s.dropWhile isBlank := by
    rw [trim, ← List.reverse_append, List.takeWhile_append_dropWhile, List.reverse_reverse]
  have hblank (l : List Char) : ∀ c ∈ l.takeWhile isBlank, isBlank c = true :=
    List.all_eq_true.1 List.all_takeWhile
  constructor
  · refine ⟨s.takeWhile isBlank, ((s.dropWhile isBlank).reverse.takeWhile isBlank).reverse, ?_,
      hblank s, fun c hc => hblank _ c (List.mem_reverse.1 hc)⟩
    rw [List.append_assoc, hback, hfront]
  · intro c hc
    have hhead : (s.dropWhile isBlank).head? = some c := by
      rw [← hback, List.head?_append, hc]
      rfl
    simpa [hhead] using List.head?_dropWhile_not isBlank s
  · intro c hc
    rw [trim, List.getLast?_reverse] at hc
    simpa [hc] using List.head?_dropWhile_not isBlank (s.dropWhile isBlank).reverse

/-- **Trimming** takes off all blanks at the ends, and nothing else. -/
theorem trim_eq_iff {s t : List Char} : trim s = t ↔ IsTrimmed s t := by
  constructor
  · rintro rfl
    exact isTrimmed_trim s
  · intro h
    obtain ⟨left, right, rfl, hleft, hright⟩ := h.parts
    cases t with
    | nil => exact trim_blank (by simpa [or_imp, forall_and] using ⟨hleft, hright⟩)
    | cons c r =>
      have hfront : (c :: r ++ right).dropWhile isBlank = c :: r ++ right :=
        dropWhile_eq_self fun d hd => h.head d hd
      have hback : (c :: r).reverse.dropWhile isBlank = (c :: r).reverse :=
        dropWhile_eq_self fun d hd => h.last d (List.head?_reverse ▸ hd)
      rw [trim, List.append_assoc, List.dropWhile_append_of_pos hleft, hfront, List.reverse_append,
        List.dropWhile_append_of_pos (by simpa using hright), hback, List.reverse_reverse]

/-! ## Empty segments -/

variable {separator : Char}

theorem nil_mem_splitOn_cons (c : Char) (r : List Char) :
    [] ∈ (c :: r).splitOn separator ↔
      c = separator ∨ [] ∈ ((c :: r).splitOn separator).tail := by
  by_cases hc : c = separator
  · simp [List.splitOn_cons_eq_if_modifyHead, hc]
  · obtain ⟨first, rest, hsplit⟩ :=
      List.exists_cons_of_ne_nil (List.splitOn_ne_nil separator r)
    simp [List.splitOn_cons_eq_if_modifyHead, hc, hsplit]

theorem nil_mem_tail_splitOn_iff (s : List Char) :
    [] ∈ (s.splitOn separator).tail ↔ s.getLast? = some separator ∨ doubled separator s = true := by
  -- A character in front only makes the first segment longer, which is why that is left out.
  induction s with
  | nil => simp [doubled]
  | cons c r ih =>
    cases r with
    | nil => by_cases hc : c = separator <;> simp [List.splitOn_cons_eq_if_modifyHead, doubled, hc]
    | cons d q =>
      have hlast : (c :: d :: q).getLast? = (d :: q).getLast? := rfl
      rw [List.splitOn_cons_eq_if_modifyHead, hlast, doubled]
      by_cases hc : c = separator
      · simp only [hc, BEq.rfl, if_true, List.tail_cons, nil_mem_splitOn_cons, ih, Bool.true_and,
          Bool.or_eq_true, beq_iff_eq]
        exact or_left_comm
      · simp [hc, ih]

/-- **A segment is empty** if there is no text at all, or nothing beside a separator. -/
theorem nil_mem_splitOn_iff (s : List Char) :
    [] ∈ s.splitOn separator ↔ s = [] ∨ hasEmptySegment separator s = true := by
  cases s with
  | nil => simp
  | cons c r =>
    simp [nil_mem_splitOn_cons, nil_mem_tail_splitOn_iff, hasEmptySegment, or_assoc]

end Text

namespace ClassName

open Text

/-! ## The path that a name spells -/

def isSeparator (c : Char) : Bool :=
  c == '/' || c == '.'

/-- The packages around a class and its simple name, the outermost first. -/
def segments (path : List Char) : List (List Char) :=
  path.splitOnP isSeparator

theorem splitOn_map_dotted (path : List Char) : (path.map dotted).splitOn '.' = segments path := by
  induction path with
  | nil => rfl
  | cons c r ih =>
    have hcons : segments (c :: r) =
        if isSeparator c then [] :: segments r else (segments r).modifyHead (c :: ·) :=
      List.splitOnP_cons_eq_if_modifyHead c r
    rw [List.map_cons, List.splitOn_cons_eq_if_modifyHead, ih, hcons]
    by_cases hslash : c = '/'
    · simp [dotted, isSeparator, hslash]
    · by_cases hdot : c = '.' <;> simp [dotted, isSeparator, hslash, hdot]

theorem intercalate_segments (path : List Char) :
    ['.'].intercalate (segments path) = path.map dotted := by
  rw [← splitOn_map_dotted, List.intercalate_splitOn]

/-- **A path** of segments that are not empty, without the signs of descriptors. -/
structure IsPath (path : List Char) : Prop where
  semicolon : ';' ∉ path
  bracket : '[' ∉ path
  segments : [] ∉ segments path

theorem isPath_iff {path : List Char} : IsPath path ↔
    ¬(path = [] ∨ ';' ∈ path ∨ '[' ∈ path) ∧ hasEmptySegment '.' (path.map dotted) = false := by
  have hsegments : [] ∉ segments path ↔
      path ≠ [] ∧ hasEmptySegment '.' (path.map dotted) = false := by
    simp [← splitOn_map_dotted, nil_mem_splitOn_iff]
  constructor
  · intro h
    have := hsegments.1 h.segments
    exact ⟨by simp [this.1, h.semicolon, h.bracket], this.2⟩
  · rintro ⟨h, hempty⟩
    simp only [not_or] at h
    exact ⟨h.2.1, h.2.2, hsegments.2 ⟨h.1, hempty⟩⟩

/-- **The inside of `L…;`**, or all of a text that has no such wrapper. -/
def Inside (t path : List Char) : Prop :=
  t = 'L' :: path ++ [';'] ∨ (∀ inner, t ≠ 'L' :: inner ++ [';']) ∧ path = t

theorem unwrap?_eq_some_iff {t inner : List Char} :
    unwrap? t = some inner ↔ t = 'L' :: inner ++ [';'] := by
  constructor
  · intro h
    unfold unwrap? at h
    split at h
    · split_ifs at h with hlast
      obtain rfl := Option.some.inj h
      obtain ⟨inner, rfl⟩ := List.getLast?_eq_some_iff.1 hlast
      simp
    · cases h
  · rintro rfl
    simp [unwrap?]

theorem inside_iff {t path : List Char} : Inside t path ↔ path = (unwrap? t).getD t := by
  cases hunwrap : unwrap? t with
  | some inner =>
    obtain rfl := unwrap?_eq_some_iff.1 hunwrap
    simp [Inside, eq_comm]
  | none =>
    have hbare (inner : List Char) : t ≠ 'L' :: inner ++ [';'] := by
      intro h
      rw [unwrap?_eq_some_iff.2 h] at hunwrap
      cases hunwrap
    exact ⟨fun h => (h.resolve_left (hbare path)).2, fun h => .inr ⟨hbare, h⟩⟩

/-- **The path that a name spells:** what is inside the wrapper, if any, of the name without the
blanks at its ends. -/
def Spells (name : String) (path : List Char) : Prop :=
  ∃ t, IsTrimmed name.toList t ∧ Inside t path

theorem spells_iff {name : String} {path : List Char} :
    Spells name path ↔ path = (unwrap? (trim name.toList)).getD (trim name.toList) := by
  simp [Spells, ← trim_eq_iff, inside_iff]

/-! ## Acceptance -/

theorem body?_bind_eq_some_iff {path b : List Char} :
    ((if path = [] ∨ ';' ∈ path ∨ '[' ∈ path then none
      else if hasEmptySegment '.' (path.map dotted) then none
      else some (path.map dotted)) = some b) ↔ IsPath path ∧ b = path.map dotted := by
  rw [isPath_iff]
  split_ifs with h hempty
  · simp [h]
  · simp [hempty]
  · simp [h, hempty, eq_comm]

theorem normalize?_eq_some_iff {t path b : List Char} (h : Inside t path) :
    normalize? t = some b ↔ IsPath path ∧ b = path.map dotted := by
  rcases h with rfl | ⟨hbare, rfl⟩
  · have hbody : body? ('L' :: path ++ [';']) = some path := by
      rw [body?, unwrap?_eq_some_iff.2 rfl]
    rw [normalize?, if_neg (by simp), hbody, Option.bind_some, body?_bind_eq_some_iff]
  · have hunwrap : unwrap? path = none := by
      cases h : unwrap? path with
      | none => rfl
      | some inner => exact absurd (unwrap?_eq_some_iff.1 h) (hbare inner)
    rw [normalize?]
    split_ifs with hstart
    · refine ⟨fun h => (by cases h), fun ⟨hpath, _⟩ => ?_⟩
      rcases hstart with rfl | hstart
      · exact absurd (isPath_iff.1 hpath).1 (by simp)
      · exact absurd (List.mem_of_head? hstart) hpath.bracket
    · by_cases hsemicolon : ';' ∈ path
      · simp [body?, hunwrap, hsemicolon, isPath_iff]
      · rw [body?, hunwrap]
        simp only [if_neg hsemicolon, Option.bind_some, body?_bind_eq_some_iff]

/-- **The binary form of a name** is its path with dots, if that is a path at all. -/
theorem binary?_eq_some_iff {name b : String} {path : List Char} (h : Spells name path) :
    binary? name = some b ↔ IsPath path ∧ b.toList = ['.'].intercalate (segments path) := by
  obtain ⟨t, ht, hinside⟩ := h
  obtain rfl := trim_eq_iff.2 ht
  rw [binary?, Option.map_eq_some_iff, intercalate_segments]
  constructor
  · rintro ⟨c, hc, rfl⟩
    rw [String.toList_ofList]
    exact (normalize?_eq_some_iff hinside).1 hc
  · intro hb
    exact ⟨b.toList, (normalize?_eq_some_iff hinside).2 hb, String.ofList_toList⟩

theorem binary?_isSome_iff {name : String} {path : List Char} (h : Spells name path) :
    (binary? name).isSome ↔ IsPath path := by
  rw [Option.isSome_iff_exists]
  constructor
  · rintro ⟨b, hb⟩
    exact ((binary?_eq_some_iff h).1 hb).1
  · intro hpath
    exact ⟨String.ofList _, (binary?_eq_some_iff h).2 ⟨hpath, String.toList_ofList⟩⟩

/-- **A name is accepted by its grammar alone**, and its segments are all that its binary form
tells: two accepted names have one binary form exactly when they have the same segments. -/
theorem spellings_accepted :
    (∀ name, ∃! path, Spells name path) ∧
    (∀ name path, Spells name path → ((binary? name).isSome ↔ IsPath path) ∧
      ∀ b, binary? name = some b → b.toList = ['.'].intercalate (segments path)) ∧
    ∀ name other path path', Spells name path → Spells other path' →
      (binary? name).isSome → (binary? other).isSome →
      (binary? name = binary? other ↔ segments path = segments path') := by
  refine ⟨fun name => ?_, fun name path h => ?_, fun name other path path' h h' hname hother => ?_⟩
  · exact ⟨_, spells_iff.2 rfl, fun path h => spells_iff.1 h⟩
  · exact ⟨binary?_isSome_iff h, fun b hb => ((binary?_eq_some_iff h).1 hb).2⟩
  · obtain ⟨b, hb⟩ := Option.isSome_iff_exists.1 hname
    obtain ⟨b', hb'⟩ := Option.isSome_iff_exists.1 hother
    have hdots := ((binary?_eq_some_iff h).1 hb).2
    have hdots' := ((binary?_eq_some_iff h').1 hb').2
    rw [hb, hb', Option.some_inj, ← String.toList_inj, hdots, hdots']
    constructor
    · intro heq
      rw [intercalate_segments, intercalate_segments] at heq
      rw [← splitOn_map_dotted, heq, splitOn_map_dotted]
    · intro heq
      rw [heq]

/-- A descriptor with both separators, between an em space and a newline, and a name without a
wrapper. A slash too many is refused. -/
theorem spellings_accepted_mixed :
    binary? "\u2003Lcom/example.Foo$1;\n" = binary? "com.example/Foo$1" ∧
      ¬(binary? "Lcom//Foo;").isSome := by
  have hwrapped : Spells "\u2003Lcom/example.Foo$1;\n" "com/example.Foo$1".toList :=
    spells_iff.2 (by decide +kernel)
  have hbare : Spells "com.example/Foo$1" "com.example/Foo$1".toList :=
    spells_iff.2 (by decide +kernel)
  have hdoubled : Spells "Lcom//Foo;" "com//Foo".toList := spells_iff.2 (by decide +kernel)
  constructor
  · exact (spellings_accepted.2.2 _ _ _ _ hwrapped hbare (by decide +kernel)
      (by decide +kernel)).2 (by decide +kernel)
  · intro haccepted
    exact ((spellings_accepted.2.1 _ _ hdoubled).1.1 haccepted).segments (by decide +kernel)

end ClassName

end DebugMap
