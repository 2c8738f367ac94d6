import HexEditor.Grid.Basic

/-!
# Moving the cursor

Every move goes through `setCursorWith`, which refuses a target outside the region and
any move while another one is under way.  When the address has changed, `notify` tells
the listeners; it is a parameter here, because what the listeners do is made of the
same operations.
-/

namespace HexEditor

/-- What happens in a scene when the cursor has moved. -/
abbrev Notify := Scene → Checked Scene

namespace Scene

/-- Moves the cursor, to a pane if one is given.  Answers whether the move was taken. -/
def setCursorWith (notify : Notify) (s : Scene) (addr : Nat) (pane : Option Pane)
    (nibble : Option Nibble) : Checked (Bool × Scene) := do
  if !s.grid.cursor.inBounds addr || s.grid.cursor.moving then return (false, s)
  let changed := s.grid.cursor.addr ≠ addr
  let blink := if s.grid.focused then s.grid.blink.restart s.around.now else s.grid.blink
  let cursor := { s.grid.cursor.place addr pane nibble with moving := true }
  let s := s.mapGrid fun g => { g with blink, cursor }
  let s ← if changed then notify (s.mapGrid Grid.updateActive) else pure s
  return (true, s.mapGrid fun g => { g with cursor := { g.cursor with moving := false } })

/-- The address at a signed distance from another, if it is one. -/
def target? (addr : Nat) (delta : Int) : Option Nat :=
  let sum := (addr : Int) + delta
  if 0 ≤ sum ∧ sum ≤ maxAddress then some sum.toNat else none

/-- Moves the cursor by a signed number of bytes.  An extending move selects from where
it began. -/
def moveByWith (notify : Notify) (s : Scene) (delta : Int) (extend : Bool) :
    Checked (Bool × Scene) :=
  let s := s.mapGrid (·.anchorFor extend)
  match target? s.grid.cursor.addr delta with
  | some addr => s.setCursorWith notify addr none none
  | none => return (false, s)

/-- The pointer is pressed at a point.  Answers whether it moved the cursor. -/
def pressWith (notify : Notify) (s : Scene) (p : Point) (extend : Bool) :
    Checked (Bool × Scene) := do
  match ← s.grid.sheet.hit? p with
  | none => return (false, s)
  | some (addr, pane) =>
    let s := s.mapGrid fun g => { g with pressed := true }.anchorFor extend
    s.setCursorWith notify addr (some pane) none

/-- The pointer is moved to a point.  While it is held down, that selects. -/
def dragWith (notify : Notify) (s : Scene) (p : Point) : Checked (Bool × Scene) := do
  if !s.grid.pressed then return (false, s)
  match ← s.grid.sheet.hit? p with
  | none => return (false, s)
  | some (addr, pane) =>
    (s.mapGrid (·.anchorFor true)).setCursorWith notify addr (some pane) none

/-- Selects the region under the cursor that starts nearest to it. -/
def doubleClickWith (notify : Notify) (s : Scene) : Checked (Bool × Scene) := do
  match s.grid.regionsUnder.head? with
  | none => return (false, s)
  | some region =>
    let s := s.mapGrid (·.clearSelection)
    let (_, s) ← s.setCursorWith notify region.last none none
    let s := s.mapGrid (·.beginSelection)
    let (_, s) ← s.setCursorWith notify region.addr none none
    return (true, s)

/-! ## Typing -/

/-- Writes a byte at the cursor and moves on to the next address. -/
def setByteWith (notify : Notify) (s : Scene) (value : UInt8) : Checked (Bool × Scene) := do
  let addr := s.grid.cursor.addr
  let (taken, s) ← s.write addr value
  if !taken then return (false, s)
  if addr < maxAddress then
    let (_, s) ← s.setCursorWith notify (addr + 1) none none
    return (true, s)
  return (true, s)

/-- Writes half a byte at the cursor.  After the high half the low half is next, after
the low half the high half of the next byte. -/
def setNibbleWith (notify : Notify) (s : Scene) (value : UInt8) : Checked (Bool × Scene) := do
  let addr := s.grid.cursor.addr
  let nibble := s.grid.cursor.nibble.getD .high
  let byte := (← s.value addr).getD 0
  let (taken, s) ← s.write addr (nibble.apply byte value)
  if !taken then return (false, s)
  let next := match nibble with
    | .high => addr
    | .low => addr + 1
  if next ≤ maxAddress then
    let (_, s) ← s.setCursorWith notify next none (some nibble.other)
    return (true, s)
  return (true, s)

/-- Types a character into the active pane.  Answers whether it could be used. -/
def typeCharWith (notify : Notify) (s : Scene) (c : Char) (modifiers : Modifiers) :
    Checked (Bool × Scene) := do
  if modifiers.ctrl then return (false, s)
  match s.grid.cursor.pane with
  | .ascii =>
    if c.toNat < 256 && isPrintable (UInt8.ofNat c.toNat) then
      let (_, s) ← s.setByteWith notify (UInt8.ofNat c.toNat)
      return (true, s)
    else return (false, s)
  | .bytes =>
    match Hexadecimal.value? c with
    | some digit =>
      let (_, s) ← s.setNibbleWith notify (UInt8.ofNat digit)
      return (true, s)
    | none => return (false, s)

/-- The distance by which a key moves the cursor. -/
def keyDelta? : Key → Option Int
  | .up => some (-16)
  | .down => some 16
  | .left => some (-1)
  | .right => some 1
  | .pageUp => some (-128)
  | .pageDown => some 128
  | .space | .text _ => none

/-- Handles a key.  Answers whether it could be used. -/
def keyWith (notify : Notify) (s : Scene) (k : Key) (modifiers : Modifiers) :
    Checked (Bool × Scene) := do
  match k with
  | .text c => s.typeCharWith notify c modifiers
  | .space =>
    if modifiers.ctrl then
      let pane := match s.grid.cursor.pane with
        | .bytes => Pane.ascii
        | .ascii => .bytes
      let (_, s) ← s.setCursorWith notify s.grid.cursor.addr (some pane) none
      return (true, s)
    else s.typeCharWith notify ' ' modifiers
  | k =>
    match keyDelta? k with
    | some delta =>
      let (_, s) ← s.moveByWith notify delta modifiers.shift
      return (true, s)
    | none => return (false, s)

/-- Types a text, one character after the other. -/
def typeTextWith (notify : Notify) (s : Scene) : List Char → Checked (List Bool × Scene)
  | [] => return ([], s)
  | c :: rest => do
    let (used, s) ← s.keyWith notify (.text c) {}
    let (more, s) ← s.typeTextWith notify rest
    return (used :: more, s)

end Scene

end HexEditor
