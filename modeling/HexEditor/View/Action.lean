import HexEditor.Highlight.Region

/-!
# Actions and menus

What the user can do with the bytes under the cursor and the selection, and the menu
that offers it.
-/

namespace HexEditor

/-- Something that the user can do in a view. -/
inductive ViewAction where
  | copy
  | paste
  | split (addr cut : Nat)
  /-- Asks for a comment on the patch at an address. -/
  | editComment (addr : Nat)
  | setComment (addr : Nat) (comment : Option String)
  | revert (addr : Nat)
  | mergeSelected
  | revertSelected
  deriving DecidableEq, Repr

namespace ViewAction

/-- Whether the user should confirm the action first. -/
def needsConfirmation : ViewAction → Bool
  | revertSelected => true
  | _ => false

/-- Whether the user has to enter a text first. -/
def needsInput : ViewAction → Bool
  | editComment _ => true
  | _ => false

end ViewAction

structure MenuItem where
  label : String
  action : ViewAction
  enabled : Bool := true
  deriving DecidableEq, Repr

inductive MenuEntry where
  | item (i : MenuItem)
  | submenu (title : String) (items : List MenuItem)
  | separator
  deriving DecidableEq, Repr

/-- A context menu: the entries from the top down. -/
abbrev ContextMenu := List MenuEntry

namespace ContextMenu

/-- The sections of a menu with a separator between any two that are not empty. -/
def ofSections (sections : List (List MenuEntry)) : ContextMenu :=
  (sections.filter (!·.isEmpty)).intersperse [.separator] |>.flatten

end ContextMenu

def plural (n : Nat) : String := if n = 1 then "" else "s"

def byteCount (n : Nat) : String := toString n ++ " byte" ++ plural n

/-- The action behind an entry of a region's menu. -/
def RegionAction.toViewAction (patchAddr cursor : Nat) : RegionAction → ViewAction
  | split => .split patchAddr cursor
  | setComment => .editComment patchAddr
  | revert => .revert patchAddr

def RegionMenu.toEntry (m : RegionMenu) (cursor : Nat) : MenuEntry :=
  .submenu m.title <| m.items.map fun i =>
    { label := i.1.label, action := i.1.toViewAction m.patchAddr cursor, enabled := i.2 }

end HexEditor
