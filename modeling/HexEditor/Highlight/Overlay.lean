import HexEditor.Highlight.Region

/-!
# Overlays

An overlay holds three lists of regions, which change independently, and the list in
which they are painted: what the bytes mean, then what other views have selected, then
the patches.  Every painted region is marked when it meets the current span, which is
the selection or the cursor alone.
-/

namespace HexEditor

/-- The regions painted over a grid. -/
structure Overlay where
  classification : List Region := []
  synchronized : List Region := []
  patches : List Region := []
  /-- The regions in the order in which they are painted, with their marks. -/
  painted : List Region := []
  deriving Repr, Inhabited

namespace Overlay

/-- Marks the painted regions for a new span. -/
def updateActive (o : Overlay) (span : Span) : Overlay :=
  { o with painted := o.painted.map (.mark span) }

/-- Paints the three lists anew. -/
def rebuild (o : Overlay) (span : Span) : Overlay :=
  { o with painted := (o.classification ++ o.synchronized ++ o.patches).map (.mark span) }

/-- Replaces the regions that say what the bytes mean. -/
def setClassification (o : Overlay) (regions : List Region) (span : Span) : Overlay :=
  { o with classification := regions }.rebuild span

/-- Replaces the regions selected in other views. -/
def setSynchronized (o : Overlay) (regions : List Region) (span : Span) : Overlay :=
  { o with synchronized := regions }.rebuild span

/-- Replaces the regions of the patches. -/
def setPatches (o : Overlay) (regions : List Region) (span : Span) : Overlay :=
  { o with patches := regions }.rebuild span

def active (o : Overlay) : List Region := o.painted.filter (·.active)

/-- The painted regions that hold `addr`, nearest start first; regions that start at the
same address stay in painting order. -/
def under (o : Overlay) (addr : Nat) : List Region :=
  (o.painted.filter (·.contains addr)).mergeSort fun r s => addr - r.addr ≤ addr - s.addr

def isEmpty (o : Overlay) : Bool := o.painted.isEmpty

end Overlay

end HexEditor
