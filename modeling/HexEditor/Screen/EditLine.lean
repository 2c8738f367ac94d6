import HexEditor.Screen.Input
import HexEditor.Text.GlyphWidth
import HexEditor.Text.WordBreak

/-!
# Editing a line of text

A line is edited at its caret, which stands between two characters and may have drawn a
selection behind it.  Keys move the caret or change the text; typing and pasting replace
the selection.  The enter key ends the editing, and what comes after it in the same frame
is not seen any more.
-/

namespace HexEditor

/-- The caret of a line of text, at `head`.  The characters between `anchor` and `head`
are selected. -/
structure Caret where
  anchor : Nat
  head : Nat
  deriving DecidableEq, Repr, Inhabited

namespace Caret

/-- The caret at a place, with nothing selected. -/
def single (place : Nat) : Caret := ⟨place, place⟩

def first (c : Caret) : Nat := min c.anchor c.head

def last (c : Caret) : Nat := max c.anchor c.head

def isSingle (c : Caret) : Bool := c.anchor = c.head

def within (c : Caret) (length : Nat) : Caret := ⟨min c.anchor length, min c.head length⟩

end Caret

/-- A line of text with its caret. -/
structure EditLine where
  text : List Char
  caret : Caret
  deriving DecidableEq, Repr, Inhabited

namespace EditLine

/-- Replaces the characters from `first` up to, not including, `stop`.  The caret stands
behind what has been put in. -/
def replace (l : EditLine) (first stop : Nat) (new : List Char) : EditLine :=
  { text := l.text.take first ++ new ++ l.text.drop stop, caret := .single (first + new.length) }

def erase (l : EditLine) (first stop : Nat) : EditLine := l.replace first stop []

def insert (l : EditLine) (new : List Char) : EditLine :=
  l.replace l.caret.first l.caret.last new

/-- Removes the selection, or the characters between the caret and a place when nothing
is selected. -/
def eraseTo (l : EditLine) (place : Nat) : EditLine :=
  if l.caret.isSingle then l.erase (min place l.caret.head) (max place l.caret.head)
  else l.insert []

/-! ## Moving the caret -/

def byWords (held : HeldKeys) : Bool := held.alt || held.control

def leftPlace (l : EditLine) (held : HeldKeys) : Nat :=
  if byWords held then Text.previousBoundary l.text l.caret.head else l.caret.head - 1

def rightPlace (l : EditLine) (held : HeldKeys) : Nat :=
  if byWords held then Text.nextBoundary l.text l.caret.head
  else min (l.caret.head + 1) l.text.length

/-- The place to which a key moves the caret. -/
def target? (l : EditLine) (held : HeldKeys) : KeyName → Option Nat
  | .arrowLeft => some (l.leftPlace held)
  | .arrowRight => some (l.rightPlace held)
  | .arrowUp | .home => some 0
  | .arrowDown | .endOfLine => some l.text.length
  | _ => none

/-- The line after a key that only moves the caret.  An arrow without a modifier leaves a
selection at its end; with the shift key, the selection is drawn along. -/
def move? (l : EditLine) (held : HeldKeys) (name : KeyName) : Option EditLine :=
  let leaves := held = {} && !l.caret.isSingle
  if name = .letter 'A' && held.command then
    some { l with caret := ⟨0, l.text.length⟩ }
  else if name = .arrowLeft && leaves then some { l with caret := .single l.caret.first }
  else if name = .arrowRight && leaves then some { l with caret := .single l.caret.last }
  else (l.target? held name).map fun head =>
    { l with caret := ⟨if held.shift then l.caret.anchor else head, head⟩ }

/-- The line after a key that removes characters. -/
def remove? (l : EditLine) (held : HeldKeys) : KeyName → Option EditLine
  | .backspace => some (l.eraseTo (l.leftPlace held))
  | .delete => some (l.eraseTo (l.rightPlace held))
  | .letter 'H' => if held.control then some (l.erase (l.caret.head - 1) l.caret.head) else none
  | .letter 'K' => if held.control then some (l.erase l.caret.first l.text.length) else none
  | .letter 'U' => if held.control then some (l.erase 0 l.caret.last) else none
  | .letter 'W' =>
    if held.control then some (l.eraseTo (Text.previousBoundary l.text l.caret.head)) else none
  | _ => none

end EditLine

/-! ## Going back -/

/-- The lines to which going back leads, and those to which going forth leads again; the
nearest is the first. -/
structure EditHistory where
  past : List EditLine := []
  future : List EditLine := []
  deriving Repr, Inhabited

namespace EditHistory

/-- Remembers the line with which the editing begins. -/
def begin (h : EditHistory) (l : EditLine) : EditHistory :=
  if h.past.isEmpty then { h with past := [l] } else h

/-- Goes back to the last line that is remembered, if that is another one. -/
def undo (h : EditHistory) (l : EditLine) : EditLine × EditHistory :=
  match h.past with
  | [] => (l, h)
  | [p] => if p = l then (l, h) else (p, { h with future := l :: h.future })
  | p :: q :: rest =>
    if p = l then (q, ⟨q :: rest, p :: h.future⟩) else (p, { h with future := l :: h.future })

/-- Goes forth again.  What could be gone forth to is forgotten when the line has changed
meanwhile. -/
def redo (h : EditHistory) (l : EditLine) : EditLine × EditHistory :=
  if h.past.head?.any (· ≠ l) then (l, { h with future := [] })
  else match h.future with
    | [] => (l, h)
    | f :: rest => (f, ⟨f :: h.past, rest⟩)

end EditHistory

/-! ## Events -/

structure Editing where
  line : EditLine
  history : EditHistory := {}
  deriving Repr, Inhabited

namespace Editing

/-- Whether a key goes forth again. -/
def isRedo (held : HeldKeys) (name : KeyName) : Bool :=
  held.command && (name = .letter 'Y' || (name = .letter 'Z' && held.shift))

def isUndo (held : HeldKeys) (name : KeyName) : Bool := held.command && name = .letter 'Z'

def key (e : Editing) (held : HeldKeys) (name : KeyName) : Editing :=
  match e.line.move? held name with
  | some line => { e with line }
  | none =>
    if isRedo held name then
      let (line, history) := e.history.redo e.line
      { line, history }
    else if isUndo held name then
      let (line, history) := e.history.undo e.line
      { line, history }
    else { e with line := (e.line.remove? held name).getD e.line }

/-- What is pasted, in which line breaks become blanks. -/
def pasted (text : String) : List Char :=
  text.toList.map fun c => if c = '\r' || c = '\n' then ' ' else c

/-- Whether text stands for the enter key, which is seen as a key already. -/
def isLineBreak (text : String) : Bool := text = "\n" || text = "\r"

def step (e : Editing) : InputEvent → Editing
  | .key name true held => e.key held name
  | .text typed =>
    if typed.isEmpty || isLineBreak typed then e else { e with line := e.line.insert typed.toList }
  | .paste text =>
    if text.isEmpty then e else { e with line := e.line.insert (pasted text) }
  | .cut => if e.line.caret.isSingle then e else { e with line := e.line.insert [] }
  | _ => e

/-- Whether an event ends the editing. -/
def isEnd : InputEvent → Bool
  | .key .enter true held => !held.control && !held.command
  | _ => false

/-- The line after the events of a frame, up to the one that ends the editing. -/
def run (e : Editing) (events : List InputEvent) : Editing :=
  (events.takeWhile (!isEnd ·)).foldl step e

end Editing

end HexEditor
