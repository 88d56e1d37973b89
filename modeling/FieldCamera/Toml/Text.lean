import FieldCamera.Text.Cut
import FieldCamera.Text.Hex
/-!
# Texts in TOML

A text stands between double quotes, where a backslash starts an escape, or between single quotes,
where every character stands for itself. Between three quotes it may run over several lines. The
readers here start behind the opening quotes and give the rest behind the closing ones.
-/

namespace FieldCamera.Toml

/-- Whether a character may stand in a line: a tab or anything but a control. -/
def isInLine (c : Char) : Bool :=
  c == '\t' || (0x20 ≤ c.toNat && c.toNat != 0x7F)

/-- What an escape of one letter stands for. -/
def plainEscape? (c : Char) : Option Char :=
  match c with
  | 'b' => some '\x08'
  | 't' => some '\t'
  | 'n' => some '\n'
  | 'f' => some '\x0c'
  | 'r' => some '\r'
  | '"' => some '"'
  | '\\' => some '\\'
  | _ => none

/-- The character with a code point. -/
def scalar? (n : Nat) : Option Char :=
  if n.isValidChar then some (Char.ofNat n) else none

/-- The end of a text between three quotes, behind those three: up to two quotes more belong to the
text. -/
def extraQuotes (quote : Char) : List Char → List Char × List Char
  | a :: b :: rest =>
    if a = quote ∧ b = quote then ([a, b], rest)
    else if a = quote then ([a], b :: rest)
    else ([], a :: b :: rest)
  | [a] => if a = quote then ([a], []) else ([], [a])
  | [] => ([], [])

/-- Where the reading of a text between double quotes stands. -/
inductive Escape where
  | outside
  /-- Behind a line's end that a backslash has taken away; blanks and line ends go with it. -/
  | skipping
  | started
  /-- Behind a backslash and blanks, before the end of the line. -/
  | lineEnd
  /-- Inside a code point of which `left + 1` digits are to come. -/
  | codePoint (left value : Nat)
  deriving DecidableEq, Repr

/-- A text between double quotes, or, with `lines`, between three of them. -/
def escapedText (lines : Bool) : Escape → List Char → Option (List Char × List Char)
  | _, [] => none
  | .codePoint left value, c :: cs =>
    match Text.hexValue? c with
    | none => none
    | some d =>
      match left with
      | 0 =>
        match scalar? (value * 16 + d), escapedText lines .outside cs with
        | some x, some (content, rest) => some (x :: content, rest)
        | _, _ => none
      | left + 1 => escapedText lines (.codePoint left (value * 16 + d)) cs
  | .started, c :: cs =>
    if c = 'u' then escapedText lines (.codePoint 3 0) cs
    else if c = 'U' then escapedText lines (.codePoint 7 0) cs
    else if lines ∧ c = '\n' then escapedText lines .skipping cs
    else if lines ∧ (c = ' ' ∨ c = '\t') then escapedText lines .lineEnd cs
    else
      match plainEscape? c with
      | some x => (escapedText lines .outside cs).map fun r => (x :: r.1, r.2)
      | none => none
  | .lineEnd, c :: cs =>
    if c = '\n' then escapedText lines .skipping cs
    else if c = ' ' ∨ c = '\t' then escapedText lines .lineEnd cs
    else none
  | state, c :: cs =>
    if state = .skipping ∧ (c = ' ' ∨ c = '\t' ∨ c = '\n') then escapedText lines .skipping cs
    else if c = '\\' then escapedText lines .started cs
    else if c = '"' ∧ ¬ lines then some ([], cs)
    else if c = '"' ∧ ['"', '"'].isPrefixOf cs then some (extraQuotes '"' (cs.drop 2))
    else if isInLine c ∨ (lines ∧ c = '\n') then
      (escapedText lines .outside cs).map fun r => (c :: r.1, r.2)
    else none

/-- A text between single quotes, or, with `lines`, between three of them. -/
def literalText (lines : Bool) : List Char → Option (List Char × List Char)
  | [] => none
  | c :: cs =>
    if c = '\'' ∧ ¬ lines then some ([], cs)
    else if c = '\'' ∧ ['\'', '\''].isPrefixOf cs then some (extraQuotes '\'' (cs.drop 2))
    else if isInLine c ∨ (lines ∧ c = '\n') then
      (literalText lines cs).map fun r => (c :: r.1, r.2)
    else none

/-- A text of several lines starts behind the line end that follows its quotes. -/
def dropLineEnd : List Char → List Char
  | '\n' :: cs => cs
  | cs => cs

/-- A text on one line, as it may also name a key. -/
def lineText? : List Char → Option (List Char × List Char)
  | '"' :: cs => escapedText false .outside cs
  | '\'' :: cs => literalText false cs
  | _ => none

/-- A text in any of the four forms. -/
def text? : List Char → Option (List Char × List Char)
  | '"' :: '"' :: '"' :: cs => escapedText true .outside (dropLineEnd cs)
  | '\'' :: '\'' :: '\'' :: cs => literalText true (dropLineEnd cs)
  | cs => lineText? cs

end FieldCamera.Toml
