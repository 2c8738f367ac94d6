import HexEditor.Editor.Basic

/-!
# Requests to the editor

What opens and closes tabs and chooses among them, as data.  Files come and go between two
requests, so that a request to load one brings the disk as it is then.
-/

namespace HexEditor

inductive EditorRequest where
  | load (disk : Disk) (path : String)
  | openSynchronizedView
  | closeTab (i : Nat)
  | selectTab (i : Nat)

namespace Editor

/-- The editor after a request. -/
def perform (e : Editor) : EditorRequest → Checked Editor
  | .load disk path => e.load disk path
  | .openSynchronizedView => e.openSynchronizedView
  | .closeTab i => return e.closeTab i
  | .selectTab i => return e.selectTab i

end Editor

end HexEditor
