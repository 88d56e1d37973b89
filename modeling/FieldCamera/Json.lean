import FieldCamera.Text.Hex
import FieldCamera.Text.Utf8
/-!
# Writing JSON

Values and their two written forms: on one line without blanks, and over several lines with two
spaces for each level.
-/

namespace FieldCamera

inductive Json where
  | null
  /-- A number by its decimal text. -/
  | number (digits : String)
  | text (s : String)
  | object (members : List (String × Json))

namespace Json

def integer (n : Int) : Json :=
  number (toString n)

/-- Quotes, backslashes and controls are escaped, all else stands for itself. -/
def escapeChar (c : Char) : String :=
  if c = '"' then "\\\""
  else if c = '\\' then "\\\\"
  else if c = '\x08' then "\\b"
  else if c = '\x0c' then "\\f"
  else if c = '\n' then "\\n"
  else if c = '\r' then "\\r"
  else if c = '\t' then "\\t"
  else if c.toNat < 0x20 then "\\u" ++ Text.hexPadded 4 c.toNat
  else c.toString

def quote (s : String) : String :=
  "\"" ++ String.join (s.toList.map escapeChar) ++ "\""

mutual

/-- The form on one line. -/
def compact : Json → String
  | null => "null"
  | number digits => digits
  | text s => quote s
  | object members => "\x7b" ++ ",".intercalate (compactMembers members) ++ "\x7d"

def compactMembers : List (String × Json) → List String
  | [] => []
  | (name, value) :: rest => (quote name ++ ":" ++ compact value) :: compactMembers rest

end

def indent (level : Nat) : String :=
  String.ofList (List.replicate (2 * level) ' ')

mutual

/-- The form over several lines, for a value that stands `level` levels deep. -/
def prettyAt (level : Nat) : Json → String
  | null => "null"
  | number digits => digits
  | text s => quote s
  | object [] => "\x7b\x7d"
  | object (first :: rest) =>
    "\x7b\n" ++ ",\n".intercalate (prettyMembers (level + 1) (first :: rest)) ++ "\n" ++
      indent level ++ "\x7d"

def prettyMembers (level : Nat) : List (String × Json) → List String
  | [] => []
  | (name, value) :: rest =>
    (indent level ++ quote name ++ ": " ++ prettyAt level value) :: prettyMembers level rest

end

/-- The form over several lines. -/
def pretty (j : Json) : String :=
  prettyAt 0 j

end Json

end FieldCamera
