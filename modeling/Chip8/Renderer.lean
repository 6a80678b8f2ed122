import Chip8.Platform

/-!
# Chip8.Renderer — where pictures go

A renderer keeps the resolution of the pictures, a title, and the number of changed pictures it has
received.  A headless one does no more.  A windowed one also draws: every call on the window is
kept, the newest first.  A picture is packed colours, four bytes a pixel; it is drawn only when it
has changed and the resolution is not empty, and is stretched to the size of the window.
-/

namespace Chip8

/-- Why a window cannot be opened. -/
inductive RendererFault where
  | tooNarrow
  deriving DecidableEq

namespace RendererFault

/-- The wording of a refusal. -/
def message : RendererFault → String
  | tooNarrow => "Window width must be at least 2 pixels."

end RendererFault

/-- A call on the window. -/
inductive WindowCall where
  | init
  | setMode (width height : Int)
  | setCaption (text : String)
  | fromBuffer (picture : Array UInt8) (width height : Int)
  | stretch (width height : Int)
  | blit
  | flip
  | quit
  deriving DecidableEq

/-- A renderer; `window` is the size of its window, if it has one. -/
structure Renderer where
  window : Option (Int × Int)
  scale : Int
  title : Option String
  refreshes : Nat
  width : Int
  height : Int
  calls : List WindowCall

namespace Renderer

/-- A renderer without a window. -/
def headless (scale : Option Int) : Renderer where
  window := none
  scale := scale.getD 1
  title := none
  refreshes := 0
  width := 0
  height := 0
  calls := []

/-- The width of a window whose width is not given. -/
def defaultWidth : Int := 512

/-- A renderer with a window of that width, half as high as wide.  The window carries the name of
the program until the first title. -/
def windowed (scale : Option Int) : Except RendererFault Renderer :=
  let width := scale.getD defaultWidth
  if width < 2 then .error .tooNarrow
  else
    .ok { headless (some width) with
      window := some (width, width / 2)
      calls := [.setMode width (width / 2), .setCaption Platform.appName, .init] }

/-- Makes calls on the window, in order, if there is one. -/
def call (r : Renderer) (calls : List WindowCall) : Renderer :=
  match r.window with
  | none => r
  | some _ => { r with calls := calls.reverse ++ r.calls }

/-- Sets the resolution of the pictures to come. -/
def setResolution (r : Renderer) (width height : Int) : Renderer := { r with width, height }

/-- Sets the title. -/
def setTitle (r : Renderer) (title : String) : Renderer :=
  { r.call [.setCaption title] with title := some title }

/-- The calls that show a picture in a window. -/
def drawing (r : Renderer) (picture : Array UInt8) : List WindowCall :=
  match r.window with
  | none => []
  | some (width, height) =>
    [.fromBuffer picture r.width r.height, .stretch width height, .blit, .flip]

/-- Receives a picture. -/
@[inline] def refresh (r : Renderer) (picture : Array UInt8) (changed : Bool) : Renderer :=
  if changed then
    let r := if r.width ≠ 0 ∧ r.height ≠ 0 then r.call (r.drawing picture) else r
    { r with refreshes := r.refreshes + 1 }
  else r

/-- Closes the window. -/
def shutdown (r : Renderer) : Renderer := r.call [.quit]

end Renderer

end Chip8
