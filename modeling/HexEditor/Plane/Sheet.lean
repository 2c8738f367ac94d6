import HexEditor.Address
import HexEditor.Plane.Layout

/-!
# Sheets

A sheet lays out a region of addresses in rows of sixteen.  Its first row begins at a
multiple of sixteen, so that it may hold addresses below the region; those are never
shown and cannot be reached.
-/

namespace HexEditor

/-- A region of addresses, without its end, laid out in rows. -/
structure Sheet where
  start : Nat
  stop : Nat
  rowCount : Nat
  layout : Layout
  deriving Repr, Inhabited

namespace Sheet

/-- The number of rows that `size` bytes from `start` on take. -/
def rowsFor (start size : Nat) : Checked Nat :=
  if size = 0 then return 0
  else return ((← checkedAdd size (start % bytesPerRow)) + (bytesPerRow - 1)) / bytesPerRow

/-- The sheet of `size` bytes from `start` on.  It ends at the greatest address when
the region reaches further. -/
def create (start size : Nat) (metrics : CellMetrics) : Checked Sheet :=
  return { start
           stop := clampedAdd start size
           rowCount := ← rowsFor start size
           layout := .ofMetrics metrics }

/-- The sheet without addresses. -/
def blank (metrics : CellMetrics) : Sheet :=
  { start := 0, stop := 0, rowCount := 0, layout := .ofMetrics metrics }

def size (s : Sheet) : Nat := s.stop - s.start

def contains (s : Sheet) (addr : Nat) : Bool := s.start ≤ addr && addr < s.stop

theorem contains_iff {s : Sheet} {addr : Nat} :
    s.contains addr = true ↔ s.start ≤ addr ∧ addr < s.stop := by
  simp [contains]

def alignedStart (s : Sheet) : Nat := s.start - s.start % bytesPerRow

def rowCol (s : Sheet) (addr : Nat) : Nat × Nat :=
  let offset := addr - s.alignedStart
  (offset / bytesPerRow, offset % bytesPerRow)

def addrAt (s : Sheet) (row col : Nat) : Checked Nat :=
  checkedAdd (s.alignedStart + row * bytesPerRow) col

def rowAddr (s : Sheet) (row : Nat) : Checked Nat := s.addrAt row 0

/-- The addresses of the region that stand in the rows from `first` up to, not
including, `stop`. -/
def visibleSpan (s : Sheet) (first stop : Nat) : Checked (Option Span) := do
  if stop ≤ first ∨ s.size = 0 then return none
  let low := max (← s.rowAddr first) s.start
  let high := min ((← s.rowAddr stop) - 1) (s.stop - 1)
  return if low ≤ high then some ⟨low, high⟩ else none

/-! ## Pixels -/

def rowPixels (row : Nat) : Float32 := row.toUInt64.toFloat32

/-- The row at a point, unless it lies above the first or below the last one. -/
def rowAt? (s : Sheet) (p : Point) : Option Nat :=
  if !p.y.isFinite || p.y < 0 then none
  else
    let row := (p.y / s.layout.rowHeight).toUInt64.toNat
    if row < s.rowCount then some row else none

/-- The pane and the column at a horizontal position. -/
def slotAt? (s : Sheet) (x : Float32) : Option (Pane × Nat) :=
  match Layout.slotAt? x (s.layout.edges .bytes) with
  | some col => some (.bytes, col)
  | none => (Layout.slotAt? x (s.layout.edges .ascii)).map (.ascii, ·)

/-- The address and the pane at a point. -/
def hit? (s : Sheet) (p : Point) : Checked (Option (Nat × Pane)) := do
  match s.rowAt? p, s.slotAt? p.x with
  | some row, some (pane, col) =>
    let addr ← s.addrAt row col
    return if s.contains addr then some (addr, pane) else none
  | _, _ => return none

def rowCorner (s : Sheet) (row : Nat) : Point := ⟨0, rowPixels row * s.layout.rowHeight⟩

/-- The left top corner of a slot. -/
def slotCorner (s : Sheet) (row col : Nat) (pane : Pane) : Point :=
  ⟨s.layout.edge pane (col % bytesPerRow), (s.rowCorner row).y⟩

def corner (s : Sheet) (addr : Nat) (pane : Pane) : Point :=
  let (row, col) := s.rowCol addr
  s.slotCorner row col pane

/-- The rectangle of the slot of an address, half of the space on either side included. -/
def cellRect (s : Sheet) (addr : Nat) (pane : Pane) : Rect :=
  let corner := s.corner addr pane
  let space := s.layout.slotSpace pane
  .ofSize ⟨corner.x - space / 2, corner.y⟩ (s.layout.slotWidth pane + space)
    s.layout.rowHeight

def bounds (s : Sheet) : Rect :=
  ⟨{}, ⟨s.layout.maxX, rowPixels s.rowCount * s.layout.rowHeight⟩⟩

end Sheet

end HexEditor
