/-!
# TOML values

The values of a TOML document, and the rules by which headers and dotted keys build
tables: a table is defined once, a header may only define what was passed on the way to
another header, and dotted keys may only extend what dotted keys have made.
-/

namespace HexEditor.Toml

/-- How a table came into being. -/
inductive TableForm where
  /-- By a header of its own, or as the document. -/
  | defined
  /-- On the way to the table of a header. -/
  | passed
  /-- On the way to the value of a dotted key. -/
  | dotted
  /-- As a value in braces, which is never extended. -/
  | inlined
  deriving DecidableEq, Repr, Inhabited

inductive Value where
  | string (text : String)
  | integer (n : Int)
  | real (x : Float)
  | boolean (b : Bool)
  | datetime
  /-- A number outside the range that can be read. -/
  | tooLarge
  | array (elements : List Value)
  /-- Tables whose headers stand in double brackets. -/
  | tables (elements : List Value)
  | table (form : TableForm) (entries : List (String × Value))

instance : Inhabited Value := ⟨.datetime⟩

/-- The entries of a table in the order in which they were made. -/
abbrev Entries := List (String × Value)

namespace Entries

def get? (es : Entries) (key : String) : Option Value := (es.find? (·.1 == key)).map (·.2)

/-- Replaces the value of a key, or adds it behind the others. -/
def put (es : Entries) (key : String) (v : Value) : Entries :=
  if es.any (·.1 == key) then es.map fun e => if e.1 == key then (key, v) else e
  else es ++ [(key, v)]

end Entries

/-- What is to be done to a table, given how it came into being. -/
abbrev TableChange := TableForm → Entries → Option Entries

/-- Changes the table at the end of a path.  Tables that are missing on the way are made
in the form `fresh`; the last of several tables stands for all of them.  A path of
dotted keys does not enter a table that has a header. -/
def changeAt (fresh : TableForm) (change : TableChange) :
    List String → TableForm → Entries → Option Entries
  | [], form, es => change form es
  | key :: rest, _, es =>
    match es.get? key with
    | none => do return es.put key (.table fresh (← changeAt fresh change rest fresh []))
    | some (.table form inner) =>
      if form = .inlined ∨ (fresh = .dotted ∧ form = .defined) then none
      else do return es.put key (.table form (← changeAt fresh change rest form inner))
    | some (.tables elements) =>
      match elements.getLast? with
      | some (.table form inner) => do
        let last := Value.table form (← changeAt fresh change rest form inner)
        return es.put key (.tables (elements.dropLast ++ [last]))
      | _ => none
    | some _ => none

/-- Gives a dotted key a value.  A key is given a value once. -/
def assign (keys : List String) (v : Value) : TableChange := fun form es => do
  let path := keys.dropLast
  let key ← keys.getLast?
  let change : TableChange := fun form es =>
    if (form = .dotted ↔ path.isEmpty) ∨ (es.get? key).isSome then none
    else some (es.put key v)
  changeAt .dotted change path form es

/-- Defines the table of a header. -/
def defineTable (keys : List String) (es : Entries) : Option Entries := do
  let key ← keys.getLast?
  let change : TableChange := fun _ es =>
    match es.get? key with
    | none => some (es.put key (.table .defined []))
    | some (.table .passed inner) => some (es.put key (.table .defined inner))
    | some _ => none
  changeAt .passed change keys.dropLast .defined es

/-- Adds a table for a header in double brackets. -/
def appendTable (keys : List String) (es : Entries) : Option Entries := do
  let key ← keys.getLast?
  let change : TableChange := fun _ es =>
    match es.get? key with
    | none => some (es.put key (.tables [.table .defined []]))
    | some (.tables elements) => some (es.put key (.tables (elements ++ [.table .defined []])))
    | some _ => none
  changeAt .passed change keys.dropLast .defined es

end HexEditor.Toml
