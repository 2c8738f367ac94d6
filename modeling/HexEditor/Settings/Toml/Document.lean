import HexEditor.Settings.Toml.Scalar

/-!
# TOML documents

A document is read line by line: a line is blank, gives a key a value, or is the header
of the table to which the following keys belong.
-/

namespace HexEditor.Toml

/-- The characters behind blanks, line breaks and comments.  Each step passes one line,
of which there are at most `lines`. -/
def skipLines : Nat → List Char → List Char
  | 0, cs => cs
  | lines + 1, cs =>
    let rest := skipComment (skipSpaces cs)
    match lineBreak? rest with
    | some next => skipLines lines next
    | none => rest

/-- What reads something from the front of a text. -/
abbrev Reader (α : Type) := List Char → Option (α × List Char)

/-- The rest of an array, whose elements `read` reads; there are at most `limit` of
them.  Line breaks and comments may stand between the elements, and a comma behind the
last one. -/
def elements (read : Reader Value) : Nat → Reader (List Value)
  | 0, _ => none
  | limit + 1, cs =>
    match skipLines cs.length cs with
    | ']' :: cs => some ([], cs)
    | cs => do
      let (v, cs) ← read cs
      match skipLines cs.length cs with
      | ']' :: cs => return ([v], cs)
      | ',' :: cs => do
        let (vs, cs) ← elements read limit cs
        return (v :: vs, cs)
      | _ => none

/-- The rest of a table in braces, behind the pairs read so far; there are at most
`limit` more of them.  Line breaks and comments may stand wherever blanks may, except
within a key, and a comma may stand behind the last pair. -/
def pairs (read : Reader Value) : Nat → Entries → Reader Entries
  | 0, _, _ => none
  | limit + 1, es, cs =>
    match skipLines cs.length cs with
    | '\x7d' :: cs => some (es, cs)
    | cs => do
      let (key, cs) ← dottedKey cs
      match skipLines cs.length cs with
      | '=' :: cs => do
        let (v, cs) ← read (skipLines cs.length cs)
        let es ← assign key v .defined es
        match skipLines cs.length cs with
        | '\x7d' :: cs => return (es, cs)
        | ',' :: cs => pairs read limit es cs
        | _ => none
      | _ => none

/-- A value in which arrays and tables are nested at most `depth` deep. -/
def value : Nat → Reader Value
  | depth, '[' :: cs =>
    match depth with
    | 0 => none
    | depth + 1 =>
      (elements (value depth) (cs.length + 1) cs).map fun p => (.array p.1, p.2)
  | depth, '\x7b' :: cs =>
    match depth with
    | 0 => none
    | depth + 1 =>
      (pairs (value depth) (cs.length + 1) [] cs).map fun p => (.table .inlined p.1, p.2)
  | _, cs => scalar cs

/-- A document while it is read: its table, and the header of the current table. -/
structure Draft where
  root : Entries := []
  current : List String := []

def line (d : Draft) (cs : List Char) : Option (Draft × List Char) := do
  match skipSpaces cs with
  | '[' :: '[' :: cs =>
    let (key, cs) ← dottedKey cs
    match cs with
    | ']' :: ']' :: cs =>
      return ({ root := ← appendTable key d.root, current := key }, ← endLine? cs)
    | _ => none
  | '[' :: cs =>
    let (key, cs) ← dottedKey cs
    match cs with
    | ']' :: cs =>
      return ({ root := ← defineTable key d.root, current := key }, ← endLine? cs)
    | _ => none
  | cs =>
    match endLine? cs with
    | some next => return (d, next)
    | none =>
      let (key, cs) ← dottedKey cs
      match skipSpaces cs with
      | '=' :: cs =>
        let cs := skipSpaces cs
        let (v, cs) ← value maxDepth cs
        let root ← changeAt .passed (assign key v) d.current .defined d.root
        return ({ d with root }, ← endLine? cs)
      | _ => none

/-- Reads at most `limit` lines, up to the end of the text. -/
def lines (limit : Nat) (d : Draft) (cs : List Char) : Option Entries :=
  match limit, cs with
  | _, [] => some d.root
  | 0, _ => none
  | limit + 1, cs => do
    let (d, cs) ← line d cs
    lines limit d cs

/-- The table of a document; none when the text is malformed.  A byte order mark at the
front is left out. -/
def parse? (text : String) : Option Entries :=
  let cs := match text.toList with
    | '\uFEFF' :: cs => cs
    | cs => cs
  lines (cs.length + 1) {} cs

end HexEditor.Toml
