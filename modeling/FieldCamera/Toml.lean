/-!
# TOML values

What a TOML document holds, and the rules by which its lines may add to a table. A table can be
opened by a header once, but one that only stood on the way to another table can still be opened;
dotted keys add only to tables that dotted keys have made, and a table in braces is closed.
-/

namespace FieldCamera.Toml

/-- How a table has come about. -/
inductive Origin where
  /-- It is written in braces. -/
  | braces
  | header
  /-- It stood on the way of a header. -/
  | implied
  /-- It stood on the way of a dotted key. -/
  | dotted
  deriving DecidableEq, Repr

inductive Value where
  | text (s : String)
  | integer (n : Int)
  | float (x : Float)
  | boolean (b : Bool)
  /-- A date, a time, or both. -/
  | moment
  | array (items : List Value)
  | table (origin : Origin) (entries : List (String × Value))
  /-- Tables that headers in double brackets have added one by one. -/
  | rows (latest : List (String × Value)) (earlier : List (List (String × Value)))

/-- The entries of a table in the order in which they came. -/
abbrev Table := List (String × Value)

namespace Table

/-- Changes the entry of a key, or makes one. -/
def alter (key : String) (change : Option Value → Option Value) : Table → Option Table
  | [] => (change none).map fun v => [(key, v)]
  | e :: es =>
    if e.1 = key then (change (some e.2)).map fun v => (key, v) :: es
    else (alter key change es).map (e :: ·)

/-- Whether a table may stand on the way of a header (`implied`) or of a dotted key (`dotted`). -/
def isPassable (way : Origin) (origin : Origin) : Bool :=
  match way with
  | .dotted => origin == .implied || origin == .dotted
  | _ => origin != .braces

/-- Changes the table at the end of a path. Tables that are missing on the way are made, and of
rows the latest is meant. -/
def update (way : Origin) (change : Origin → Table → Option Table) :
    List String → Origin → Table → Option Table
  | [], origin, t => change origin t
  | key :: path, _, t =>
    t.alter key fun
      | none => (update way change path way []).map (.table way)
      | some (.table origin inner) =>
        if isPassable way origin then (update way change path origin inner).map (.table origin)
        else none
      | some (.rows latest earlier) =>
        (update way change path .header latest).map fun r => .rows r earlier
      | some _ => none

/-- Adds a value under a dotted key: the names before the last are `path`. -/
def define (path : List String) (key : String) (v : Value) (t : Table) : Option Table :=
  update .dotted
    (fun origin t =>
      if path = [] ∨ origin = .dotted then
        t.alter key fun
          | none => some v
          | some _ => none
      else none)
    path .header t

/-- Opens a table for a header in single brackets. -/
def openTable (path : List String) (key : String) (t : Table) : Option Table :=
  update .implied
    (fun _ t =>
      t.alter key fun
        | none => some (.table .header [])
        | some (.table .implied inner) => some (.table .header inner)
        | some _ => none)
    path .header t

/-- Adds a row for a header in double brackets. -/
def openRow (path : List String) (key : String) (t : Table) : Option Table :=
  update .implied
    (fun _ t =>
      t.alter key fun
        | none => some (.rows [] [])
        | some (.rows latest earlier) => some (.rows [] (latest :: earlier))
        | some _ => none)
    path .header t

/-- Adds a value under a dotted key to the table that a header has opened. -/
def defineWithin (header path : List String) (key : String) (v : Value) (t : Table) :
    Option Table :=
  update .implied (fun _ t => define path key v t) header .header t

end Table

end FieldCamera.Toml
