import HexEditor.Editor.Window
import HexEditor.Plane.Outline
import HexEditor.Screen.Painting
import HexEditor.Screen.Scroll
import HexEditor.Screen.TabStrip
import HexEditor.Settings.Palette
import HexEditor.View.Request
import HexEditor.Proofs.Patch.ByteMap
import HexEditor.Proofs.Patch.Commute
import HexEditor.Proofs.Patch.Corrupt
import HexEditor.Proofs.Patch.MergeRun
import HexEditor.Proofs.Patch.Notification
import HexEditor.Proofs.Patch.SplitMerge
import HexEditor.Proofs.Screen.Sight
import HexEditor.Proofs.View.Echo
import HexEditor.Proofs.View.Edge
import HexEditor.Proofs.Grid.Command
import HexEditor.Proofs.Grid.Given
import HexEditor.Proofs.Grid.Consistency
import HexEditor.Proofs.Grid.Listeners
import HexEditor.Proofs.Grid.Selecting
import HexEditor.Proofs.Grid.DoubleClick
import HexEditor.Proofs.View.Settling
import HexEditor.Proofs.View.HexEntry
import HexEditor.Proofs.View.Menu
import HexEditor.Proofs.View.SelectedPatches
import HexEditor.Proofs.View.Clipboard
import HexEditor.Proofs.Plane.Outline
import HexEditor.Proofs.Editor.Tabs
import HexEditor.Proofs.Memory.Strings
import HexEditor.Proofs.Memory.Segments
import HexEditor.Proofs.Grid.Highlighting
import HexEditor.Proofs.View.Highlighting
import HexEditor.Proofs.Cursor.Cadence
import HexEditor.Proofs.Text.AddressEntry
import HexEditor.Proofs.Editor.Scrolling
import HexEditor.Proofs.Editor.Docket
import HexEditor.Proofs.Plane.Cell
import HexEditor.Proofs.Sync.Record
import HexEditor.Proofs.Editor.Keyboard
