import FieldCamera.Text.Quoted
/-!
# Socket addresses

An address and a port, as `a.b.c.d:port` or `[address]:port`. Four decimal numbers have no leading
zeros. The other form has eight groups of up to four hexadecimal digits, of which one run of zeros
may be left out at a double colon and the last two may be written as four decimal numbers; a zone
number may follow behind `%`.
-/

namespace FieldCamera

inductive SocketAddress where
  | v4 (octets : List Nat) (port : Nat)
  | v6 (groups : List Nat) (zone port : Nat)
  deriving DecidableEq, Repr

namespace SocketAddress

/-- The value of a digit in lower or upper case, below `radix`. -/
def digit? (radix : Nat) (c : Char) : Option Nat :=
  let n :=
    if c.isDigit then c.toNat - '0'.toNat
    else if 'a' ≤ c ∧ c ≤ 'z' then c.toNat - 'a'.toNat + 10
    else if 'A' ≤ c ∧ c ≤ 'Z' then c.toNat - 'A'.toNat + 10
    else radix
  if n < radix then some n else none

/-- The number at the front and what follows it. -/
def number? (radix : Nat) (maxDigits : Option Nat) (leadingZero : Bool) (bound : Nat)
    (cs : List Char) : Option (Nat × List Char) :=
  let digits := cs.takeWhile fun c => (digit? radix c).isSome
  let value := digits.foldl (fun n c => n * radix + (digit? radix c).getD 0) 0
  let tooMany := maxDigits.any (· < digits.length)
  let padded := !leadingZero && digits.head? == some '0' && 1 < digits.length
  if digits = [] ∨ tooMany ∨ padded ∨ bound ≤ value then none
  else some (value, cs.drop digits.length)

def expect? (c : Char) : List Char → Option (List Char)
  | x :: xs => if x = c then some xs else none
  | [] => none

def octet? (cs : List Char) : Option (Nat × List Char) :=
  number? 10 (some 3) false 256 cs

/-- Four decimal numbers between dots. -/
def octets? (cs : List Char) : Option (List Nat × List Char) := do
  let (a, cs) ← octet? cs
  let (b, cs) ← octet? (← expect? '.' cs)
  let (c, cs) ← octet? (← expect? '.' cs)
  let (d, cs) ← octet? (← expect? '.' cs)
  return ([a, b, c, d], cs)

/-- The colon between groups, which the first of a row does not need. -/
def separator? (first : Bool) (cs : List Char) : Option (List Char) :=
  if first then some cs else expect? ':' cs

/-- Reads at most `room` groups, and tells whether the last two were written as four decimal
numbers. -/
def groups (first : Bool) : Nat → List Char → List Nat × Bool × List Char
  | 0, cs => ([], false, cs)
  | room + 1, cs =>
    let embedded := if room = 0 then none else (separator? first cs).bind octets?
    match embedded with
    | some (octets, rest) =>
      match octets with
      | [a, b, c, d] => ([a * 256 + b, c * 256 + d], true, rest)
      | _ => ([], false, cs)
    | none =>
      match (separator? first cs).bind (number? 16 (some 4) true 65536) with
      | some (g, rest) =>
        let (gs, embedded, rest) := groups false room rest
        (g :: gs, embedded, rest)
      | none => ([], false, cs)

/-- The eight groups of an address. -/
def eightGroups? (cs : List Char) : Option (List Nat × List Char) :=
  let (front, embedded, cs) := groups true 8 cs
  if front.length = 8 then some (front, cs)
  else if embedded then none
  else do
    let cs ← expect? ':' (← expect? ':' cs)
    let (back, _, cs) := groups true (7 - front.length) cs
    return (front ++ List.replicate (8 - front.length - back.length) 0 ++ back, cs)

def port? (cs : List Char) : Option (Nat × List Char) := do
  number? 10 none true 65536 (← expect? ':' cs)

def v4? (cs : List Char) : Option (SocketAddress × List Char) := do
  let (octets, cs) ← octets? cs
  let (port, cs) ← port? cs
  return (v4 octets port, cs)

/-- The number behind a percent sign, zero without one. -/
def zone? (cs : List Char) : Option (Nat × List Char) :=
  match cs with
  | '%' :: cs => number? 10 none true 0x100000000 cs
  | cs => some (0, cs)

def v6? (cs : List Char) : Option (SocketAddress × List Char) := do
  let (groups, cs) ← eightGroups? (← expect? '[' cs)
  let (zone, cs) ← zone? cs
  let (port, cs) ← port? (← expect? ']' cs)
  return (v6 groups zone port, cs)

/-- The address that is the whole of a text. -/
def ofText? (s : String) : Option SocketAddress :=
  let whole : SocketAddress × List Char → Option SocketAddress
    | (a, []) => some a
    | _ => none
  ((v4? s.toList).bind whole).orElse fun _ => (v6? s.toList).bind whole

/-- Whether a text is an address with a port. -/
def isAddress (s : String) : Bool :=
  (ofText? s).isSome

/-- The length of the run of zeros at the front. -/
def zeroRun (groups : List Nat) : Nat :=
  (groups.takeWhile (· == 0)).length

/-- Start and length of the first longest run of zeros. -/
def longestZeros : Nat → List Nat → Nat × Nat
  | _, [] => (0, 0)
  | i, g :: gs =>
    let here := zeroRun (g :: gs)
    let (start, length) := longestZeros (i + 1) gs
    if length ≤ here then (i, here) else (start, length)

def colonText (groups : List Nat) : String :=
  ":".intercalate (groups.map Text.hex)

def dotText (octets : List Nat) : String :=
  ".".intercalate (octets.map toString)

/-- The text of eight groups, with the first longest run of two or more zeros left out. -/
def groupsText (groups : List Nat) : String :=
  let (start, length) := longestZeros 0 groups
  match groups with
  | [0, 0, 0, 0, 0, 0xFFFF, a, b] =>
    "::ffff:" ++ dotText [a / 256, a % 256, b / 256, b % 256]
  | _ =>
    if 1 < length then
      colonText (groups.take start) ++ "::" ++ colonText (groups.drop (start + length))
    else colonText groups

def text : SocketAddress → String
  | v4 octets port => dotText octets ++ ":" ++ toString port
  | v6 groups zone port =>
    let zone := if zone = 0 then "" else "%" ++ toString zone
    "[" ++ groupsText groups ++ zone ++ "]:" ++ toString port

end SocketAddress

end FieldCamera
