import HexEditor.Text.Hexadecimal

/-!
# Characters and strings of TOML

A reader takes characters from the front of a list and answers what it has read and
what is left, or nothing when the text is malformed.
-/

namespace HexEditor.Toml

/-- Whether a character separates words in a line. -/
def isSpace (c : Char) : Bool := c == ' ' || c == '\t'

def skipSpaces (cs : List Char) : List Char := cs.dropWhile isSpace

/-- Whether a character may stand in a comment or a string. -/
def isText (c : Char) : Bool := c == '\t' || (0x20 ≤ c.toNat && c.toNat ≠ 0x7F)

/-- The characters behind a line break, if there is one. -/
def lineBreak? : List Char → Option (List Char)
  | '\n' :: rest => some rest
  | '\r' :: '\n' :: rest => some rest
  | _ => none

/-- The characters behind a comment, if there is one. -/
def skipComment : List Char → List Char
  | '#' :: rest => rest.dropWhile isText
  | cs => cs

/-- The characters of the next line, when nothing but blanks and a comment is left of
this one. -/
def endLine? (cs : List Char) : Option (List Char) :=
  match skipComment (skipSpaces cs) with
  | [] => some []
  | cs => lineBreak? cs

/-- The character with a code, written as some hexadecimal digits. -/
def codePoint? (digits : List Char) : Option Char := do
  let n ← Hexadecimal.valueFrom? 0 digits
  if h : n.isValidChar then some (Char.ofNatAux n h) else none

/-- The character that a letter behind a backslash stands for. -/
def escape? : Char → Option Char
  | 'b' => some '\x08'
  | 't' => some '\t'
  | 'n' => some '\n'
  | 'f' => some '\x0c'
  | 'r' => some '\r'
  | 'e' => some '\x1b'
  | '"' => some '"'
  | '\\' => some '\\'
  | _ => none

/-- Puts a character in front of what has been read. -/
def cons (c : Char) (r : Option (List Char × List Char)) : Option (List Char × List Char) :=
  r.map fun p => (c :: p.1, p.2)

/-- The rest of a string between quotation marks. -/
def quoted : List Char → Option (List Char × List Char)
  | '"' :: rest => some ([], rest)
  | '\\' :: 'x' :: a :: b :: rest => do cons (← codePoint? [a, b]) (quoted rest)
  | '\\' :: 'u' :: a :: b :: c :: d :: rest => do
    cons (← codePoint? [a, b, c, d]) (quoted rest)
  | '\\' :: 'U' :: a :: b :: c :: d :: e :: f :: g :: h :: rest => do
    cons (← codePoint? [a, b, c, d, e, f, g, h]) (quoted rest)
  | '\\' :: c :: rest => do cons (← escape? c) (quoted rest)
  | c :: rest => if isText c && c ≠ '\\' then cons c (quoted rest) else none
  | [] => none

/-- The rest of a string between apostrophes. -/
def literal : List Char → Option (List Char × List Char)
  | '\'' :: rest => some ([], rest)
  | c :: rest => if isText c then cons c (literal rest) else none
  | [] => none

/-- The rest of a string of several lines between triple quotation marks; up to two
more quotation marks may stand right before the end.  Behind a backslash at the end of
a line, `trimming` leaves out everything up to the next visible character. -/
def quotedLines (trimming : Bool) : List Char → Option (List Char × List Char)
  | '"' :: '"' :: '"' :: '"' :: '"' :: rest => some (['"', '"'], rest)
  | '"' :: '"' :: '"' :: '"' :: rest => some (['"'], rest)
  | '"' :: '"' :: '"' :: rest => some ([], rest)
  | '\\' :: 'x' :: a :: b :: rest => do cons (← codePoint? [a, b]) (quotedLines false rest)
  | '\\' :: 'u' :: a :: b :: c :: d :: rest => do
    cons (← codePoint? [a, b, c, d]) (quotedLines false rest)
  | '\\' :: 'U' :: a :: b :: c :: d :: e :: f :: g :: h :: rest => do
    cons (← codePoint? [a, b, c, d, e, f, g, h]) (quotedLines false rest)
  | '\\' :: c :: rest =>
    match escape? c with
    | some c => cons c (quotedLines false rest)
    | none =>
      if (lineBreak? (skipSpaces (c :: rest))).isSome then quotedLines true (c :: rest) else none
  | '\r' :: '\n' :: rest =>
    if trimming then quotedLines true rest else cons '\n' (quotedLines false rest)
  | c :: rest =>
    if trimming && (isSpace c || c == '\n') then quotedLines true rest
    else if (isText c && c ≠ '\\') || c == '\n' then cons c (quotedLines false rest)
    else none
  | [] => none

/-- The rest of a string of several lines between triple apostrophes. -/
def literalLines : List Char → Option (List Char × List Char)
  | '\'' :: '\'' :: '\'' :: '\'' :: '\'' :: rest => some (['\'', '\''], rest)
  | '\'' :: '\'' :: '\'' :: '\'' :: rest => some (['\''], rest)
  | '\'' :: '\'' :: '\'' :: rest => some ([], rest)
  | '\r' :: '\n' :: rest => cons '\n' (literalLines rest)
  | c :: rest => if isText c || c == '\n' then cons c (literalLines rest) else none
  | [] => none

/-- The characters behind a line break at the front, which a string of several lines
leaves out. -/
def dropFirstBreak (cs : List Char) : List Char := (lineBreak? cs).getD cs

/-- A string of one of the four kinds; none when there is no quotation mark. -/
def string? : List Char → Option (Option (List Char × List Char))
  | '"' :: '"' :: '"' :: rest => some (quotedLines false (dropFirstBreak rest))
  | '"' :: rest => some (quoted rest)
  | '\'' :: '\'' :: '\'' :: rest => some (literalLines (dropFirstBreak rest))
  | '\'' :: rest => some (literal rest)
  | _ => none

/-! ## Keys -/

/-- Whether a character may stand in a key without quotation marks. -/
def isBare (c : Char) : Bool := c.isAlphanum || c == '_' || c == '-'

/-- One part of a dotted key. -/
def keyPart : List Char → Option (String × List Char)
  | '"' :: rest => (quoted rest).map fun p => (String.ofList p.1, p.2)
  | '\'' :: rest => (literal rest).map fun p => (String.ofList p.1, p.2)
  | cs =>
    match cs.takeWhile isBare with
    | [] => none
    | name => some (String.ofList name, cs.dropWhile isBare)

/-- A dotted key of at most `limit` parts. -/
def keyWithin (limit : Nat) (cs : List Char) : Option (List String × List Char) :=
  match limit with
  | 0 => none
  | limit + 1 => do
    let (part, cs) ← keyPart (skipSpaces cs)
    match skipSpaces cs with
    | '.' :: cs => do
      let (parts, cs) ← keyWithin limit cs
      return (part :: parts, cs)
    | cs => return ([part], cs)

/-- The greatest number of parts of a key, and the greatest depth to which arrays and
tables in braces may be nested. -/
def maxDepth : Nat := 80

def dottedKey (cs : List Char) : Option (List String × List Char) := keyWithin maxDepth cs

end HexEditor.Toml
