import FieldCamera.Text.Hex
import FieldCamera.Text.Printable
/-!
# Quoted text

Messages show foreign text between double quotes, so that every character of it can be told.
-/

namespace FieldCamera.Text

def quoteChar (c : Char) : String :=
  if c = '\u0000' then "\\0"
  else if c = '\t' then "\\t"
  else if c = '\n' then "\\n"
  else if c = '\r' then "\\r"
  else if c = '"' then "\\\""
  else if c = '\\' then "\\\\"
  else if isShown c then c.toString
  else "\\u\x7b" ++ hex c.toNat ++ "\x7d"

/-- Text between double quotes, with escapes for quotes, backslashes, line breaks, tabs, NUL and
every character that has no glyph of its own. -/
def quoted (s : String) : String :=
  "\"" ++ String.join (s.toList.map quoteChar) ++ "\""

end FieldCamera.Text
