/-!
# The tab strip

Tabs are as wide as they would like to be, unless they do not fit side by side; then
all of them shrink by the same factor.
-/

namespace HexEditor.TabStrip

/-- The factor by which tabs of the given widths shrink to fit. -/
def scale (ideal : List Float32) (available : Float32) : Float32 :=
  let total := ideal.foldl (· + ·) 0
  if available < total && 0 < total then available / total else 1

def fit (ideal : List Float32) (available : Float32) : List Float32 :=
  ideal.map (· * scale ideal available)

end HexEditor.TabStrip
