import FieldCamera.Json.Reading
/-!
# Skipping a JSON value

A value that nobody asked for is passed over without a look at its meaning: texts need not be
UTF-8, numbers may be of any size, and nesting may be of any depth. Only its form is checked. The
containers that are open are kept in a list.
-/

namespace FieldCamera.Json

inductive Container where
  | array
  | object
  deriving DecidableEq, Repr

def Container.closing : Container → UInt8
  | array => ']'.toUInt8
  | object => '\x7d'.toUInt8

/-- The digits at the front, of which there has to be one. -/
def skipDigits (bs : Bytes) : Except Fault Bytes :=
  match bs with
  | b :: rest => if isDigitByte b then .ok (rest.dropWhile isDigitByte) else .error .malformed
  | [] => .error .malformed

def skipExponent (bs : Bytes) : Except Fault Bytes :=
  match bs with
  | b :: rest =>
    if b = 'e'.toUInt8 ∨ b = 'E'.toUInt8 then
      match rest with
      | s :: digits =>
        if s = '+'.toUInt8 ∨ s = '-'.toUInt8 then skipDigits digits else skipDigits rest
      | [] => .error .malformed
    else .ok bs
  | [] => .ok []

def skipFraction (bs : Bytes) : Except Fault Bytes :=
  match bs with
  | b :: rest => if b = '.'.toUInt8 then skipDigits rest >>= skipExponent else skipExponent bs
  | [] => .ok []

/-- A number behind its sign. An integer part has no leading zeros. -/
def skipNumber (bs : Bytes) : Except Fault Bytes :=
  match bs with
  | b :: rest =>
    if b = '0'.toUInt8 then
      match rest with
      | d :: _ => if isDigitByte d then .error .malformed else skipFraction rest
      | [] => .ok []
    else skipDigits bs >>= skipFraction
  | [] => .error .malformed

def skipText (bs : Bytes) : Except Fault Bytes :=
  (textBytes true bs).map fun r => r.2

/-- The name of a member and its colon. -/
def skipName (bs : Bytes) : Except Fault Bytes := do
  let bs ← expect ['"'] (skipBlank bs)
  let bs ← skipText bs
  expect [':'] (skipBlank bs)

/-- What stands where a value may: a container to enter, or else the bytes behind the value. -/
def enter (bs : Bytes) : Except Fault (Option Container × Bytes) :=
  let plain (r : Except Fault Bytes) := r.map fun rest => ((none : Option Container), rest)
  match skipBlank bs with
  | [] => .error .truncated
  | b :: rest =>
    if b = 'n'.toUInt8 then plain (expect "ull".toList rest)
    else if b = 't'.toUInt8 then plain (expect "rue".toList rest)
    else if b = 'f'.toUInt8 then plain (expect "alse".toList rest)
    else if b = '-'.toUInt8 then plain (skipNumber rest)
    else if isDigitByte b then plain (skipNumber (b :: rest))
    else if b = '"'.toUInt8 then plain (skipText rest)
    else if b = '['.toUInt8 then .ok (some .array, rest)
    else if b = '\x7b'.toUInt8 then .ok (some .object, rest)
    else .error .malformed

/-- Leaves the containers that end behind a value: those that are still open when another value
follows, or `none` when all are left. -/
def leave : List Container → Bytes → Except Fault (Option (List Container) × Bytes)
  | [], bs => .ok (none, bs)
  | c :: outer, bs =>
    match skipBlank bs with
    | [] => .error .truncated
    | b :: rest =>
      if b = ','.toUInt8 then
        match c with
        | .array => .ok (some (c :: outer), rest)
        | .object => (skipName rest).map fun rest => (some (c :: outer), rest)
      else if b = c.closing then leave outer rest
      else .error .malformed

/-- One value, or the opening of one: where the next value stands, if there is one to skip. -/
def skipOne (open_ : List Container) (bs : Bytes) :
    Except Fault (Option (List Container) × Bytes) := do
  match ← enter bs with
  | (none, rest) => leave open_ rest
  | (some c, rest) =>
    match skipBlank rest with
    | [] => .error .truncated
    | b :: after =>
      if b = c.closing then leave open_ after
      else
        match c with
        | .array => .ok (some (c :: open_), b :: after)
        | .object => (skipName (b :: after)).map fun rest => (some (c :: open_), rest)

/-- Skips values and openings, at most as many as `room` has bytes. -/
def skipSome : Bytes → List Container → Bytes → Except Fault Bytes
  | [], _, _ => .error .malformed
  | _ :: room, open_, bs =>
    match skipOne open_ bs with
    | .error fault => .error fault
    | .ok (none, rest) => .ok rest
    | .ok (some open_, rest) => skipSome room open_ rest

/-- The bytes behind the value at the front. Each value takes a byte, so that there are no more of
them than bytes. -/
def skipValue (bs : Bytes) : Except Fault Bytes :=
  skipSome (0 :: bs) [] bs

end FieldCamera.Json
