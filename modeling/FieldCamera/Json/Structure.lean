import FieldCamera.Json.Skipping
/-!
# Reading structures and lists
-/

namespace FieldCamera.Json

/-- A member of a structure: its name, and how its value is read into the structure. -/
structure Member (σ : Type) where
  name : String
  read : σ → Reader σ

/-- The member that takes a value of one shape over into a structure. -/
def member {σ α : Type} (name : String) (value : Reader α) (put : σ → α → σ) : Member σ :=
  ⟨name, fun s bs => (value bs).map fun r => (put s r.1, r.2)⟩

/-- What stands before a possible element: the element, or the end of the container. -/
inductive Ahead where
  | element
  | close
  deriving DecidableEq, Repr

/-- Passes the comma before an element of an array other than the first. -/
def nextElement (first : Bool) (bs : Bytes) : Except Fault (Ahead × Bytes) :=
  match skipBlank bs with
  | [] => .error .truncated
  | b :: rest =>
    if b = ']'.toUInt8 then .ok (.close, rest)
    else if first then .ok (.element, b :: rest)
    else if b = ','.toUInt8 then
      match skipBlank rest with
      | [] => .error .truncated
      | c :: after =>
        if c = ']'.toUInt8 then .error .malformed else .ok (.element, c :: after)
    else .error .malformed

/-- Passes the comma before a member other than the first, and the opening quote of its name. -/
def nextMember (first : Bool) (bs : Bytes) : Except Fault (Ahead × Bytes) :=
  match skipBlank bs with
  | [] => .error .truncated
  | b :: rest =>
    if b = '\x7d'.toUInt8 then .ok (.close, rest)
    else if first then
      if b = '"'.toUInt8 then .ok (.element, rest) else .error .malformed
    else if b = ','.toUInt8 then
      match skipBlank rest with
      | [] => .error .truncated
      | c :: after => if c = '"'.toUInt8 then .ok (.element, after) else .error .malformed
    else .error .malformed

/-- The members of an object up to its end, at most as many as `room` has bytes. A known name may
come once; the value of any other is skipped. -/
def objectMembers {σ : Type} (members : List (Member σ)) :
    Bytes → List String → Bool → σ → Reader σ
  | [], _, _, _ => fun _ => .error .malformed
  | _ :: room, seen, first, s => fun bs => do
    match ← nextMember first bs with
    | (.close, rest) => .ok (s, rest)
    | (.element, rest) =>
      let (name, rest) ← openText rest
      match members.find? fun m => m.name == name with
      | none =>
        let rest ← skipValue (← expect [':'] (skipBlank rest))
        objectMembers members room seen false s rest
      | some member =>
        if seen.contains name then .error .mistyped
        else
          let (s, rest) ← member.read s (← expect [':'] (skipBlank rest))
          objectMembers members room (name :: seen) false s rest

/-- The members of a structure that is written as an array, which may end early. -/
def arrayMembers {σ : Type} : List (Member σ) → Bool → σ → Reader σ
  | [], _, s => fun bs =>
    match skipBlank bs with
    | [] => .error .truncated
    | b :: rest => if b = ']'.toUInt8 then .ok (s, rest) else .error .malformed
  | member :: members, first, s => fun bs => do
    match ← nextElement first bs with
    | (.close, rest) => .ok (s, rest)
    | (.element, rest) =>
      let (s, rest) ← member.read s rest
      arrayMembers members false s rest

/-- A structure whose absent members keep the values of `s`. Each member takes a byte, so that there
are no more of them than bytes. -/
def structured {σ : Type} (members : List (Member σ)) (s : σ) : Reader σ := fun bs =>
  match skipBlank bs with
  | [] => .error .truncated
  | b :: rest =>
    if b = '\x7b'.toUInt8 then objectMembers members (b :: rest) [] true s rest
    else if b = '['.toUInt8 then arrayMembers members true s rest
    else .error (mismatch (b :: rest))

/-- The elements of an array up to its end, at most as many as `room` has bytes. -/
def listElements {α : Type} (element : Reader α) : Bytes → Bool → Reader (List α)
  | [], _ => fun _ => .error .malformed
  | _ :: room, first => fun bs => do
    match ← nextElement first bs with
    | (.close, rest) => .ok ([], rest)
    | (.element, rest) =>
      let (x, rest) ← element rest
      let (xs, rest) ← listElements element room false rest
      .ok (x :: xs, rest)

/-- An array of values of one shape. Each of them takes a byte. -/
def list {α : Type} (element : Reader α) : Reader (List α) := fun bs =>
  match skipBlank bs with
  | [] => .error .truncated
  | b :: rest =>
    if b = '['.toUInt8 then listElements element (b :: rest) true rest
    else .error (mismatch (b :: rest))

/-- A value that is all there is, blanks apart. -/
def whole {α : Type} (value : Reader α) (bs : Bytes) : Except Fault α := do
  let (x, rest) ← value bs
  if skipBlank rest = [] then .ok x else .error .malformed

end FieldCamera.Json
