import HexEditor.Cursor.State
import HexEditor.Grid.Cell
import HexEditor.Highlight.Region
import HexEditor.Memory.Image
import HexEditor.Plane.Layout

/-!
# Grid commands

Everything that can be asked of a grid, as data.  A listener is a script of commands
that the grid carries out on itself whenever its cursor has moved, so that commands
contain scripts of commands.
-/

namespace HexEditor

inductive Key where
  | up
  | down
  | left
  | right
  | pageUp
  | pageDown
  | space
  | text (c : Char)
  deriving DecidableEq, Repr, Inhabited

/-- The modifier keys held with a key. -/
structure Modifiers where
  /-- Extends the selection. -/
  shift : Bool := false
  ctrl : Bool := false
  deriving DecidableEq, Repr, Inhabited

/-- Where a grid reads and writes its bytes. -/
inductive ByteSource where
  /-- An image of the grid's own. -/
  | image (m : Image)
  /-- Every address holds its own low byte; writes are refused. -/
  | addressPattern
  /-- The project that the grid shows. -/
  | project

instance : Inhabited ByteSource := ⟨.addressPattern⟩

/-- The rectangles of the cursor in the two panes. -/
structure CursorMarks where
  bytes : Rect
  ascii : Rect
  pane : Pane
  phaseOn : Bool
  deriving Repr, Inhabited

inductive Command where
  | setRegion (source : ByteSource) (start size : Nat)
  | setMetrics (metrics : CellMetrics)
  | setCursor (addr : Nat) (pane : Option Pane) (nibble : Option Nibble)
  | moveBy (delta : Int) (extend : Bool)
  | press (p : Point) (extend : Bool)
  | drag (p : Point)
  | release
  | doubleClick
  | key (k : Key) (modifiers : Modifiers)
  | typeText (text : List Char)
  | setByte (value : UInt8)
  | setNibble (value : UInt8)
  | beginSelection
  | clearSelection
  | value (addr : Nat)
  | values (addr count : Nat)
  | focusIn (now : Nat)
  | focusOut
  | tick (now : Nat)
  | setAlwaysShow (on : Bool)
  | setBlinkInterval (interval : Nat)
  | setClassification (regions : List Region)
  | setSynchronized (regions : List Region)
  | setPatches (regions : List Region)
  | regionsUnder
  | rows (first stop : Nat)
  | marks
  | listen (name : String) (script : List Command)
  | takeLog

/-- What a grid calls when its cursor has moved. -/
inductive Listener where
  /-- Carries out a script and records what it answered under a name. -/
  | script (name : String) (commands : List Command)
  /-- Highlights the item around the cursor, and tells the group where the cursor is. -/
  | viewUpkeep

mutual

inductive Answer where
  | done
  | flag (b : Bool)
  | flags (bs : List Bool)
  | region (start stop rows : Nat)
  | layout (l : Layout)
  | value (v : Option UInt8)
  | values (vs : List (Option UInt8))
  | regions (rs : List Region)
  | rows (rs : List Row)
  | marks (m : Option CursorMarks)
  | log (calls : List ListenerCall)

/-- The record of one call of a script: where the cursor was after it, and what the
commands of the script answered. -/
inductive ListenerCall where
  | mk (name : String) (cursor : Nat) (moving : Bool) (selection : Option Span)
      (answers : List Answer)

end

end HexEditor
