import HexEditor.Patch.Error

/-!
# Errors of the editor

What the user is told when something was refused.
-/

namespace HexEditor

/-- Why an action of the user failed. -/
inductive EditorError where
  /-- The patch store refused a change. -/
  | patch (cause : PatchError)
  | emptyImage
  /-- A file could not be read, with the text of the operating system. -/
  | io (cause : String)
  deriving DecidableEq, Repr

def EditorError.message : EditorError → String
  | patch cause => "Error encountered during patch update:\n" ++ cause.message
  | emptyImage => "Memory image has no data"
  | io cause => "I/O error: " ++ cause

end HexEditor
