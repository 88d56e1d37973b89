/-!
# Dates and times in TOML

A date, a time of day, or a date with a time, which may carry its offset from universal time.
-/

namespace FieldCamera.Toml

/-- A number of exactly `width` digits at the front. -/
def digits? : Nat → List Char → Option (List Char × List Char)
  | 0, cs => some ([], cs)
  | width + 1, c :: cs =>
    if c.isDigit then (digits? width cs).map fun r => (c :: r.1, r.2) else none
  | _ + 1, [] => none

/-- A number of exactly `width` digits between two bounds. -/
def numberIn? (width low high : Nat) (cs : List Char) : Option (Nat × List Char) :=
  match digits? width cs with
  | some (ds, rest) =>
    let n := ds.foldl (fun n d => n * 10 + (d.toNat - '0'.toNat)) 0
    if low ≤ n ∧ n ≤ high then some (n, rest) else none
  | none => none

/-- The rest behind a character. -/
def behind? (c : Char) : List Char → Option (List Char)
  | d :: cs => if d = c then some cs else none
  | [] => none

/-- The rest behind any of some characters. -/
def behindAny? (choice : List Char) : List Char → Option (List Char)
  | d :: cs => if d ∈ choice then some cs else none
  | [] => none

def isLeapYear (year : Nat) : Bool :=
  year % 4 == 0 && (year % 100 != 0 || year % 400 == 0)

def monthLength (year month : Nat) : Nat :=
  if month = 2 then (if isLeapYear year then 29 else 28)
  else if month = 4 ∨ month = 6 ∨ month = 9 ∨ month = 11 then 30
  else 31

/-- The rest behind a day of the calendar. -/
def behindDate? (cs : List Char) : Option (List Char) := do
  let (year, cs) ← numberIn? 4 0 9999 cs
  let cs ← behind? '-' cs
  let (month, cs) ← numberIn? 2 1 12 cs
  let cs ← behind? '-' cs
  let (_, cs) ← numberIn? 2 1 (monthLength year month) cs
  some cs

/-- The rest behind a time of day, its seconds perhaps with a fraction. -/
def behindTime? (cs : List Char) : Option (List Char) := do
  let (_, cs) ← numberIn? 2 0 23 cs
  let cs ← behind? ':' cs
  let (_, cs) ← numberIn? 2 0 59 cs
  let cs ← behind? ':' cs
  let (_, cs) ← numberIn? 2 0 60 cs
  match cs with
  | '.' :: c :: cs => if c.isDigit then some (cs.dropWhile Char.isDigit) else none
  | cs => some cs

/-- Whether a text is an offset from universal time, or empty. -/
def isOffset (cs : List Char) : Bool :=
  let hours : Option (List Char) := do
    let cs ← behindAny? ['+', '-'] cs
    let (_, cs) ← numberIn? 2 0 23 cs
    let cs ← behind? ':' cs
    let (_, cs) ← numberIn? 2 0 59 cs
    some cs
  cs == [] || behindAny? ['Z', 'z'] cs == some [] || hours == some []

/-- Whether a text is a date and nothing more. -/
def isDate (cs : List Char) : Bool :=
  behindDate? cs == some []

/-- Whether a text is a date, a time, or both. -/
def isMoment (cs : List Char) : Bool :=
  match behindDate? cs with
  | some [] => true
  | some rest =>
    match behindAny? ['T', 't', ' '] rest >>= behindTime? with
    | some rest => isOffset rest
    | none => false
  | none => behindTime? cs == some []

end FieldCamera.Toml
