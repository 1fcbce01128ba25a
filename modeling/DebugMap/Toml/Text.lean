import DebugMap.Toml.Reader

/-!
# Blanks, comments and strings of TOML

A string is basic, with escapes, or literal, without; either may run over several lines between
tripled quotes. Line ends inside a string are read as plain newlines.
-/

set_option autoImplicit false

namespace DebugMap.Toml

open Reader

def isSpace (c : Char) : Bool :=
  c == ' ' || c == '\t'

/-- A character that may stand in a comment: a tab, or any but the controls of ASCII. -/
def isPlain (c : Char) : Bool :=
  c == '\t' || (0x20 ≤ c.toNat && c.toNat ≠ 0x7F)

def isUnescaped (c : Char) : Bool :=
  isPlain c && c != '"' && c != '\\'

def isLiteral (c : Char) : Bool :=
  isPlain c && c != '\''

def isHexDigit (c : Char) : Bool :=
  c.isDigit || ('a' ≤ c && c ≤ 'f') || ('A' ≤ c && c ≤ 'F')

def spaces : Reader Unit := do
  let _ ← takeWhile isSpace

def newline : Reader Unit :=
  literal ['\n'] <|> literal ['\r', '\n']

def comment : Reader Unit := do
  let _ ← char '#'
  let _ ← takeWhile isPlain

def lineEnd : Reader Unit :=
  newline <|> atEnd

def lineRest : Reader Unit := do
  spaces
  let _ ← Reader.optional comment
  lineEnd

def filler : Reader Unit := do
  spaces
  let _ ← many ((Reader.optional comment *> newline) *> spaces)

def hexValue (c : Char) : Nat :=
  if c.isDigit then c.toNat - '0'.toNat
  else if 'a' ≤ c ∧ c ≤ 'f' then c.toNat - 'a'.toNat + 10
  else c.toNat - 'A'.toNat + 10

def ofDigits (base : Nat) (digits : List Char) : Nat :=
  digits.foldl (fun n c => n * base + hexValue c) 0

/-- The character with a number of `n` hexadecimal digits. Not every number has a character. -/
def numbered (n : Nat) : Reader Char := do
  let code := ofDigits 16 (← exactly n isHexDigit)
  if code.isValidChar then pure (Char.ofNat code) else failure

def escaped : Reader Char := do
  let _ ← char '\\'
  match ← charWhere fun _ => true with
  | 'b' => pure '\x08'
  | 'f' => pure '\x0C'
  | 'n' => pure '\n'
  | 'r' => pure '\r'
  | 't' => pure '\t'
  | '"' => pure '"'
  | '\\' => pure '\\'
  | 'u' => numbered 4
  | 'U' => numbered 8
  | _ => failure

def basicString : Reader (List Char) := do
  let _ ← char '"'
  let parts ← many (takeWhile1 isUnescaped <|> List.singleton <$> escaped)
  let _ ← char '"'
  return parts.flatten

def literalString : Reader (List Char) := do
  let _ ← char '\''
  let body ← takeWhile isLiteral
  let _ ← char '\''
  return body

/-- A backslash at the end of a line, with all blanks up to the next character. -/
def lineContinuation : Reader (List Char) := do
  let _ ← char '\\'
  spaces
  newline
  let _ ← many (newline <|> (fun _ => ()) <$> takeWhile1 isSpace)
  return []

/-- One or two quotes inside a multi-line string: more would end it. -/
def innerQuotes (quote : Char) : Reader (List Char) := do
  let run ← takeWhile1 (· == quote)
  if run.length ≤ 2 then pure run else failure

/-- The quotes that end a multi-line string: three, after up to two that belong to it. -/
def closingQuotes (quote : Char) : Reader (List Char) := do
  let extra ← takeWhile (· == quote)
  if 3 ≤ extra.length ∧ extra.length ≤ 5 then pure (extra.drop 3) else failure

/-- A multi-line string; a newline right after the opening quotes does not count. -/
def multiLine (quote : Char) (part : Reader (List Char)) : Reader (List Char) := do
  literal [quote, quote, quote]
  let _ ← Reader.optional newline
  let parts ← many (part <|> (fun _ => ['\n']) <$> newline <|> innerQuotes quote)
  let last ← closingQuotes quote
  return parts.flatten ++ last

def multiLineBasic : Reader (List Char) :=
  multiLine '"' (takeWhile1 isUnescaped <|> lineContinuation <|> List.singleton <$> escaped)

def multiLineLiteral : Reader (List Char) :=
  multiLine '\'' (takeWhile1 isLiteral)

/-- **A string** in any of the four forms. -/
def string : Reader String :=
  String.ofList <$>
    (multiLineBasic <|> basicString <|> multiLineLiteral <|> literalString)

def isBare (c : Char) : Bool :=
  c.isAlphanum || c == '_' || c == '-'

def simpleKey : Reader String :=
  String.ofList <$> (basicString <|> literalString <|> takeWhile1 isBare)

/-- The names of a dotted key are fewer than this. -/
def keyLimit : Nat := 80

/-- **A key:** names with dots between them. -/
def key : Reader (List String) := do
  let names ← separated (spaces *> simpleKey <* spaces) (char '.')
  if names.length < keyLimit then pure names else failure

end DebugMap.Toml
