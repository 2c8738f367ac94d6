import HexEditor.View.Error

/-!
# Files

The files and the directories below the working directory, by their paths.  Parts of a
path are separated by slashes; empty parts, and parts that stay in place, mean nothing
unless the path begins with them.
-/

namespace HexEditor

/-- What stands at a path. -/
inductive DiskNode where
  | file (contents : List UInt8)
  | directory
  deriving Repr, Inhabited

/-- The files and directories by path. -/
structure Disk where
  nodes : List (String × DiskNode) := []
  deriving Repr, Inhabited

namespace Disk

/-- The parts of a path that mean something. -/
def parts (path : String) : List String :=
  (path.splitOn "/").filter fun part => part ≠ "" && part ≠ "."

/-- What a path can begin with: the root, the working directory, or a name in it. -/
inductive Anchor where
  | root
  | here
  | name
  deriving DecidableEq, Repr, Inhabited

def anchor (path : String) : Anchor :=
  match (path.splitOn "/").head? with
  | some "" => .root
  | some "." => .here
  | _ => .name

/-- Whether two paths are written in the same way, up to parts that mean nothing. -/
def samePath (p q : String) : Bool := anchor p == anchor q && parts p == parts q

/-- The last part of a path. -/
def fileName (path : String) : String :=
  match (parts path).getLast? with
  | none | some ".." => "Untitled"
  | some name => name

def leadsTo (path node : String) : Bool := anchor path ≠ .root && parts path == parts node

/-- Whether a path is passed on the way to something, so that a directory stands there. -/
def isPassed (d : Disk) (path : String) : Bool :=
  anchor path ≠ .root && d.nodes.any fun node => (parts path).isPrefixOf (parts node.1)

def read (d : Disk) (path : String) : Except EditorError (List UInt8) :=
  match d.nodes.find? (leadsTo path ·.1) with
  | some (_, .file contents) => .ok contents
  | some (_, .directory) => .error (.io "Is a directory (os error 21)")
  | none =>
    if d.isPassed path then .error (.io "Is a directory (os error 21)")
    else .error (.io "No such file or directory (os error 2)")

/-- Writes a file, or deletes it. -/
def write (d : Disk) (path : String) (contents : Option (List UInt8)) : Disk :=
  let others := d.nodes.filter (!leadsTo path ·.1)
  { nodes := others ++ contents.toList.map fun bytes => (path, .file bytes) }

end Disk

end HexEditor
