/-!
# Segments between separators

A separator cuts a text into segments. A segment is empty where the separator stands at an end of
the text or next to another one.
-/

set_option autoImplicit false

namespace DebugMap.Text

def doubled (c : Char) : List Char → Bool
  | a :: b :: r => (a == c && b == c) || doubled c (b :: r)
  | _ => false

/-- **A separator with nothing beside it:** at an end of the text, or next to another one. -/
def hasEmptySegment (separator : Char) (s : List Char) : Bool :=
  s.head? == some separator || s.getLast? == some separator || doubled separator s

end DebugMap.Text
