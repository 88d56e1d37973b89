import FieldCamera.Toml
import FieldCamera.Toml.Moment
import FieldCamera.Toml.Number
import FieldCamera.Toml.Text
/-!
# Reading TOML

A document is read line by line into one table. A carriage return may stand only before a line
feed, and the two count as one line end; a byte order mark at the start is passed over. Readers take
what they read from the front of the characters and give the rest.
-/

namespace FieldCamera.Toml

abbrev Reader (α : Type) := List Char → Option (α × List Char)

/-- The document with a line feed at each line end. -/
def unifyLineEnds : List Char → Option (List Char)
  | '\r' :: '\n' :: cs => (unifyLineEnds cs).map ('\n' :: ·)
  | '\r' :: _ => none
  | c :: cs => (unifyLineEnds cs).map (c :: ·)
  | [] => some []

def isSpace (c : Char) : Bool :=
  c == ' ' || c == '\t'

def skipSpace (cs : List Char) : List Char :=
  cs.dropWhile isSpace

/-- Skips blanks, line ends and comments; `comment` holds inside a comment. -/
def skipLines (comment : Bool) : List Char → List Char
  | [] => []
  | c :: cs =>
    if c = '\n' then skipLines false cs
    else if comment then (if isInLine c then skipLines true cs else c :: cs)
    else if c = '#' then skipLines true cs
    else if isSpace c then skipLines false cs
    else c :: cs

/-- The rest behind a line that holds nothing more than blanks and a comment. -/
def endLine? (cs : List Char) : Option (List Char) :=
  let rest :=
    match skipSpace cs with
    | '#' :: cs => cs.dropWhile isInLine
    | cs => cs
  match rest with
  | '\n' :: cs => some cs
  | [] => some []
  | _ => none

def isKeyChar (c : Char) : Bool :=
  c.isAlphanum || c == '-' || c == '_'

/-- One name of a key, quoted or bare. -/
def name? : Reader String := fun cs =>
  match lineText? cs with
  | some (content, rest) => some (String.ofList content, rest)
  | none =>
    let bare := cs.takeWhile isKeyChar
    if bare = [] then none else some (String.ofList bare, cs.dropWhile isKeyChar)

/-- A key of at most `most` names with dots between them: the names before the last, and the
last. -/
def key? : Nat → Reader (List String × String)
  | 0, _ => none
  | most + 1, cs =>
    match name? (skipSpace cs) with
    | none => none
    | some (name, cs) =>
      match skipSpace cs with
      | '.' :: cs => (key? most cs).map fun r => ((name :: r.1.1, r.1.2), r.2)
      | cs => some (([], name), cs)

/-- The most names that a key may have, and the most tables and arrays in braces and brackets that
may stand in one another. -/
def deepest : Nat := 79

/-- A key with its value. -/
def pair? (value : Reader Value) : Reader ((List String × String) × Value) := fun cs =>
  match key? deepest cs with
  | some (key, '=' :: cs) => (value (skipSpace cs)).map fun r => ((key, r.1), r.2)
  | _ => none

/-- Array items behind the opening bracket up to and with the closing one. A comma may follow the
last item. -/
def items? (value : Reader Value) : Nat → Reader (List Value)
  | 0, _ => none
  | most + 1, cs =>
    match skipLines false cs with
    | ']' :: rest => some ([], rest)
    | cs =>
      match value cs with
      | none => none
      | some (v, cs) =>
        match skipLines false cs with
        | ',' :: cs => (items? value most cs).map fun r => (v :: r.1, r.2)
        | ']' :: cs => some ([v], cs)
        | _ => none

/-- The pairs of a table in braces, added to `t`, up to and with the closing brace. -/
def pairs? (value : Reader Value) : Nat → Table → Reader Table
  | 0, _, _ => none
  | most + 1, t, cs =>
    match pair? value cs with
    | none => none
    | some (((path, key), v), cs) =>
      match t.define path key v with
      | none => none
      | some t =>
        match skipSpace cs with
        | ',' :: cs => pairs? value most t cs
        | '\x7d' :: cs => some (t, cs)
        | _ => none

/-- The characters of numbers, dates, times and words. -/
def isScalarChar (c : Char) : Bool :=
  c.isAlphanum || c == '+' || c == '-' || c == '_' || c == '.' || c == ':'

/-- A value that is written without quotes or brackets. -/
def scalar (cs : List Char) : Option Value :=
  if cs = "true".toList then some (.boolean true)
  else if cs = "false".toList then some (.boolean false)
  else if isMoment cs then some .moment
  else
    match float? cs with
    | some x => some (.float x)
    | none => (integer? cs).map .integer

/-- The longest text of such a value at the front. A time may follow its date behind a blank. -/
def scalarText (cs : List Char) : List Char × List Char :=
  let first := cs.takeWhile isScalarChar
  match cs.dropWhile isScalarChar with
  | ' ' :: rest =>
    let second := rest.takeWhile isScalarChar
    if isDate first ∧ second ≠ [] then (first ++ ' ' :: second, rest.dropWhile isScalarChar)
    else (first, ' ' :: rest)
  | rest => (first, rest)

/-- A value with at most `depth` levels of brackets and braces, each with at most `most` items. -/
def value? (most : Nat) : Nat → Reader Value
  | depth, cs =>
    match cs with
    | '[' :: cs =>
      match depth with
      | 0 => none
      | depth + 1 => (items? (value? most depth) most cs).map fun r => (.array r.1, r.2)
    | '\x7b' :: cs =>
      match depth with
      | 0 => none
      | depth + 1 =>
        match skipSpace cs with
        | '\x7d' :: rest => some (.table .braces [], rest)
        | cs => (pairs? (value? most depth) most [] cs).map fun r => (.table .braces r.1, r.2)
    | cs =>
      match text? cs with
      | some (content, rest) => some (.text (String.ofList content), rest)
      | none =>
        let (word, rest) := scalarText cs
        (scalar word).map fun v => (v, rest)

/-- A header behind its opening brackets: the document with the table that it opens, the whole path
of that table, and the rest behind the line. -/
def header? (row : Bool) (t : Table) (cs : List Char) :
    Option (Table × List String × List Char) := do
  let ((path, key), cs) ← key? deepest cs
  let cs ← Text.dropStart? (if row then [']', ']'] else [']']) cs
  let cs ← endLine? cs
  let t ← if row then t.openRow path key else t.openTable path key
  some (t, path ++ [key], cs)

/-- The lines of a document, at most `most` of them, added to `t`. Pairs go to the table of the
header `under`. -/
def lines? (size : Nat) : Nat → List String → Table → List Char → Option Table
  | 0, _, _, _ => none
  | most + 1, under, t, cs =>
    match skipLines false cs with
    | [] => some t
    | '[' :: '[' :: cs =>
      match header? true t cs with
      | some (t, under, cs) => lines? size most under t cs
      | none => none
    | '[' :: cs =>
      match header? false t cs with
      | some (t, under, cs) => lines? size most under t cs
      | none => none
    | cs =>
      match pair? (value? size deepest) cs with
      | none => none
      | some (((path, key), v), cs) =>
        match t.defineWithin under path key v, endLine? cs with
        | some t, some cs => lines? size most under t cs
        | _, _ => none

/-- The table that a document describes, or `none` for a text that is no TOML. -/
def Table.ofText? (s : String) : Option Table :=
  let body :=
    match s.toList with
    | '\uFEFF' :: cs => cs
    | cs => cs
  match unifyLineEnds body with
  | some cs => lines? (cs.length + 1) (cs.length + 1) [] [] cs
  | none => none

end FieldCamera.Toml
