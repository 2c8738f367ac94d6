import HexEditor.Grid.Motion

/-!
# Carrying out commands

A move that changes the address calls every listener once, in the order in which they
were added.  Listeners added meanwhile are not called for this move and come after the
others.

A listener runs while its move is still under way, so that no move of its own is taken
and it can never call listeners itself.  Scripts are therefore run with `Notify.never`,
and carrying out a command takes no recursion.
-/

namespace HexEditor

/-- Tells nobody.  It serves commands that cannot move the cursor. -/
def Notify.never : Notify := fun s => pure s

namespace Scene

def performWith (notify : Notify) (s : Scene) : Command → Checked (Answer × Scene)
  | .setRegion source start size => do
    let grid ← s.grid.setRegion source start size
    return (.region grid.sheet.start grid.sheet.stop grid.sheet.rowCount, { s with grid })
  | .setMetrics metrics =>
    let s := s.mapGrid (·.setMetrics metrics)
    return (.layout s.grid.sheet.layout, s)
  | .setCursor addr pane nibble => flag (s.setCursorWith notify addr pane nibble)
  | .moveBy delta extend => flag (s.moveByWith notify delta extend)
  | .press p extend => flag (s.pressWith notify p extend)
  | .drag p => flag (s.dragWith notify p)
  | .release => done (·.release)
  | .doubleClick => flag (s.doubleClickWith notify)
  | .key k modifiers => flag (s.keyWith notify k modifiers)
  | .typeText text => do
    let (used, s) ← s.typeTextWith notify text
    return (.flags used, s)
  | .setByte value => flag (s.setByteWith notify value)
  | .setNibble value => flag (s.setNibbleWith notify value)
  | .beginSelection => done (·.beginSelection)
  | .clearSelection => done (·.clearSelection)
  | .value addr => return (.value (← s.value addr), s)
  | .values addr count => return (.values (← (List.range' addr count).mapM s.value), s)
  | .focusIn now => done (·.focusIn now)
  | .focusOut => done (·.focusOut)
  | .tick now =>
    let (toggled, grid) := s.grid.tick now
    return (.flag toggled, { s with grid })
  | .setAlwaysShow on => done (·.setAlwaysShow on)
  | .setBlinkInterval interval => done (·.setBlinkInterval interval)
  | .setClassification regions => done (·.setClassification regions)
  | .setSynchronized regions => done (·.setSynchronized regions)
  | .setPatches regions => done (·.setPatches regions)
  | .regionsUnder => return (.regions s.grid.regionsUnder, s)
  | .rows first stop => return (.rows (← s.visibleRows first stop), s)
  | .marks => return (.marks s.grid.marks?, s)
  | .listen name script => done (·.listen (.script name script))
  | .takeLog => return (.log s.around.log, { s with around := { s.around with log := [] } })
where
  /-- A change of the grid that answers nothing. -/
  done (change : Grid → Grid) : Checked (Answer × Scene) := return (.done, s.mapGrid change)
  /-- An operation that answers whether it was taken. -/
  flag (result : Checked (Bool × Scene)) : Checked (Answer × Scene) := do
    let (b, s) ← result
    return (.flag b, s)

/-- Carries out a script, collecting the answers. -/
def performAllWith (notify : Notify) (s : Scene) : List Command → Checked (List Answer × Scene)
  | [] => return ([], s)
  | c :: rest => do
    let (answer, s) ← s.performWith notify c
    let (answers, s) ← s.performAllWith notify rest
    return (answer :: answers, s)

/-- Highlights the item around the cursor, if that is asked for. -/
def refreshHighlights (s : Scene) : Scene :=
  let regions :=
    if s.around.smart then ItemMap.highlights s.around.project.items s.grid.cursor.addr else []
  s.mapGrid (·.setClassification regions)

/-- Tells the group where the cursor is. -/
def publishCursor (s : Scene) : Scene :=
  let group := s.around.group.setCursor s.around.member s.grid.cursor.addr
  { s with around := { s.around with group } }

/-- Calls one listener. -/
def call (s : Scene) : Listener → Checked Scene
  | .script name commands => do
    let (answers, s) ← s.performAllWith .never commands
    let cursor := s.grid.cursor
    let record := ListenerCall.mk name cursor.addr cursor.moving cursor.selection? answers
    return { s with around := { s.around with log := s.around.log ++ [record] } }
  | .viewUpkeep => return s.refreshHighlights.publishCursor

/-- Calls all listeners.  The list is taken out of the grid meanwhile, so that listeners
added by a listener gather in an empty list, which is put behind the others. -/
def dispatch : Notify := fun s => do
  let called := s.grid.listeners
  let s ← called.foldlM call (s.mapGrid fun g => { g with listeners := [] })
  return s.mapGrid fun g => { g with listeners := called ++ g.listeners }

/-! ## The operations of a grid -/

/-- Carries out a command and calls the listeners for every move. -/
def perform (s : Scene) (c : Command) : Checked (Answer × Scene) := s.performWith dispatch c

def setCursor (s : Scene) (addr : Nat) (pane : Option Pane) (nibble : Option Nibble) :
    Checked (Bool × Scene) := s.setCursorWith dispatch addr pane nibble

/-- Moves the cursor by a signed number of bytes. -/
def moveBy (s : Scene) (delta : Int) (extend : Bool) : Checked (Bool × Scene) :=
  s.moveByWith dispatch delta extend

def press (s : Scene) (p : Point) (extend : Bool) : Checked (Bool × Scene) :=
  s.pressWith dispatch p extend

def drag (s : Scene) (p : Point) : Checked (Bool × Scene) := s.dragWith dispatch p

def doubleClick (s : Scene) : Checked (Bool × Scene) := s.doubleClickWith dispatch

def key (s : Scene) (k : Key) (modifiers : Modifiers) : Checked (Bool × Scene) :=
  s.keyWith dispatch k modifiers

end Scene

end HexEditor
