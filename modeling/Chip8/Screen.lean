import Chip8.Cells
import Chip8.Platform
import Chip8.Text.Numeral

/-!
# Chip8.Screen — the picture that sprites are drawn on

A screen holds `width * height` pixels, row after row, each lit or unlit.  Programs only toggle
pixels.  The edge mode says what becomes of a point beyond the right or the bottom edge:

* `linear`: the point is counted on into the following row; past the last row it is refused;
* `clip`: the point is dropped;
* `wrap`: the point comes back in at the opposite edge.

A list of points is plotted only after every one of them has been located, so a sprite that is
refused leaves the picture as it was.
-/

namespace Chip8

/-- What becomes of points beyond the edges. -/
inductive EdgeMode where
  | linear
  | clip
  | wrap
  deriving DecidableEq

namespace EdgeMode

/-- All modes, the default first. -/
def all : List EdgeMode := [linear, clip, wrap]

/-- The name by which users choose a mode. -/
def name : EdgeMode → String
  | linear => "linear"
  | clip => "clip"
  | wrap => "wrap"

/-- The mode with that name. -/
def ofName? (name : String) : Option EdgeMode := all.find? (·.name == name)

end EdgeMode

/-- Why a screen cannot be made, or a point cannot be used. -/
inductive ScreenFault where
  | unknownEdge (name : String)
  /-- No signed word of 64 bits holds the number of bytes in a picture. -/
  | tooLarge
  | noRoom
  | negativeSize
  | outside (x y width height : Int)
  /-- A point cannot wrap around a screen without columns or without rows. -/
  | noExtent
  | cell (fault : CellFault)
  deriving DecidableEq

namespace ScreenFault

/-- The wording of a refusal. -/
def message : ScreenFault → String
  | unknownEdge name => "Unknown edge mode '" ++ name ++ "'"
  | tooLarge => CellFault.indexTooWide.message
  | noRoom => ""
  | negativeSize => "negative count"
  | outside x y width height =>
    "Pixel (" ++ Numeral.decimal x ++ ", " ++ Numeral.decimal y ++ ") lies outside the " ++
      Numeral.decimal width ++ "x" ++ Numeral.decimal height ++ " framebuffer"
  | noExtent => "integer modulo by zero"
  | cell fault => fault.message

end ScreenFault

/-- A screen of `width` columns and `height` rows. -/
structure Screen (width height : Int) where
  edge : EdgeMode
  lit : Vector Bool (width * height).toNat
  /-- Whether the picture may differ from the one last shown. -/
  changed : Bool
  deriving DecidableEq

namespace Screen

variable {width height : Int}

/-- An unlit screen; it counts as changed, so that it is shown once. -/
def blank (edge : EdgeMode) : Screen width height :=
  ⟨edge, Vector.replicate (width * height).toNat false, true⟩

/-- A screen of any size, with the edge mode of that name.  The name is looked at first.  A pixel
takes four bytes; the bytes must be counted by a signed word of 64 bits, and no more than `room` of
them can be had at once. -/
def create (room : Int) (edge : String) (width height : Int) :
    Except ScreenFault (Screen width height) :=
  match EdgeMode.ofName? edge with
  | none => .error (.unknownEdge edge)
  | some edge =>
    if ¬ Cells.FitsWord (width * height * 4) then .error .tooLarge
    else if width * height < 0 then .error .negativeSize
    else if room < width * height * 4 then .error .noRoom
    else .ok (blank edge)

/-- Turns every pixel off. -/
def clear (s : Screen width height) : Screen width height :=
  { s with lit := Vector.replicate (width * height).toNat false, changed := true }

/-! ## Points -/

/-- Counts a point off along the rows. -/
def place (width height x y : Int) : Except ScreenFault (Option Int) :=
  if width * height ≤ y * width + x then .error (.outside x y width height)
  else .ok (some (y * width + x))

/-- Where the point of column `x` and row `y` lies, as a signed index; `none` for a dropped one. -/
def locate (s : Screen width height) (x y : Int) : Except ScreenFault (Option Int) :=
  match s.edge with
  | .linear => place width height x y
  | .clip => if width ≤ x ∨ height ≤ y then .ok none else place width height x y
  | .wrap =>
    if width = 0 ∨ height = 0 then .error .noExtent
    else place width height (x.fmod width) (y.fmod height)

/-- Toggles one point.  Answers whether a lit pixel went out; `none` for a dropped point. -/
def toggle (s : Screen width height) (x y : Int) :
    Except ScreenFault (Screen width height × Option Bool) :=
  match s.locate x y with
  | .error fault => .error fault
  | .ok none => .ok (s, none)
  | .ok (some spot) =>
    match Cells.resolve (width * height).toNat spot with
    | .error fault => .error (.cell fault)
    | .ok k => .ok ({ s with lit := s.lit.set k (!s.lit[k]), changed := true }, s.lit[k])

/-- Whether the pixel of column `x` and row `y` is lit, whatever the edge mode. -/
def isLit (s : Screen width height) (x y : Int) : Except ScreenFault Bool :=
  match Cells.resolve (width * height).toNat (y * width + x) with
  | .error fault => .error (.cell fault)
  | .ok k => .ok (s.lit[k])

/-! ## Sprites -/

/-- The first refusal among the points. -/
def locateEach (s : Screen width height) : List (Int × Int) → Except ScreenFault Unit
  | [] => .ok ()
  | (x, y) :: points =>
    match s.locate x y with
    | .error fault => .error fault
    | .ok _ => s.locateEach points

/-- Toggles the points in turn, up to the first that is refused, and keeps what was toggled before
it.  Answers whether any lit pixel went out on the way, and with the refusal. -/
def toggleEach (s : Screen width height) :
    List (Int × Int) → Screen width height × Bool × Option ScreenFault
  | [] => (s, false, none)
  | (x, y) :: points =>
    match s.toggle x y with
    | .error fault => (s, false, some fault)
    | .ok (s, out) =>
      let r := s.toggleEach points
      (r.1, out == some true || r.2.1, r.2.2)

/-- Locates all points, and then toggles them; a point that cannot be located keeps all others from
being toggled. -/
def plot (s : Screen width height) (points : List (Int × Int)) :
    Screen width height × Bool × Option ScreenFault :=
  match s.locateEach points with
  | .error fault => (s, false, some fault)
  | .ok () => s.toggleEach points

/-! ## The whole picture -/

/-- No pixel is lit. -/
def isBlank (s : Screen width height) : Bool := s.lit.all (!·)

/-- The four bytes of a pixel's packed colour. -/
def pixelBytes (lit : Bool) : Array UInt8 := Array.replicate 4 (if lit then 0xFF else 0)

/-- The picture as packed colours, row after row. -/
def bytes (s : Screen width height) : Array UInt8 := s.lit.toArray.flatMap pixelBytes

end Screen

end Chip8
