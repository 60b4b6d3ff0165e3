/-
Points, rectangles and the two questions asked of them: whether a closed rectangle covers a
point, and whether a half-open one holds it. Coordinates are doubles and every question is decided
by their own order, so a rectangle with its edges the wrong way round, or with an edge that is not
a number, covers nothing.
-/

namespace PointerRouting

/-- A position in the coordinates of one root. -/
structure Point where
  x : Float
  y : Float
  deriving DecidableEq, Inhabited

/-- A displacement: how far a wheel turned or a gesture went along each axis. -/
structure Delta where
  dx : Float
  dy : Float
  deriving DecidableEq, Inhabited

/-- The width and the height of a rectangle, of either sign. -/
structure Size where
  width : Float
  height : Float
  deriving DecidableEq, Inhabited

/-- A rectangle given by its edges, in whatever order they were given. -/
structure Rect where
  x0 : Float
  y0 : Float
  x1 : Float
  y1 : Float
  deriving DecidableEq, Inhabited

namespace Rect

/-- The rectangle of no extent at the origin. -/
def origin : Rect := ⟨0, 0, 0, 0⟩

/-- The rectangle of the given size with `center` in its middle. -/
def around (center : Point) (size : Size) : Rect :=
  let halfWidth := 0.5 * size.width
  let halfHeight := 0.5 * size.height
  ⟨center.x - halfWidth, center.y - halfHeight, center.x + halfWidth, center.y + halfHeight⟩

/-- Whether `p` lies between the edges, all four edges included. -/
def covers (r : Rect) (p : Point) : Bool :=
  r.x0 ≤ p.x && p.x ≤ r.x1 && r.y0 ≤ p.y && p.y ≤ r.y1

/-- Whether `p` lies between the edges, the far edges `x1` and `y1` excluded: rectangles laid side
by side hold each point at most once. -/
def holds (r : Rect) (p : Point) : Bool :=
  r.x0 ≤ p.x && p.x < r.x1 && r.y0 ≤ p.y && p.y < r.y1

end Rect

namespace Delta

/-- A component below this magnitude counts as none: ten times the distance from one to the next
double. -/
def negligible : Float := 10.0 / 4503599627370496.0

/-- Whether the displacement has no horizontal component to speak of. -/
def isVertical (d : Delta) : Bool := -negligible < d.dx && d.dx < negligible

/-- The displacement with its two axes exchanged. -/
def transpose (d : Delta) : Delta := ⟨d.dy, d.dx⟩

end Delta

end PointerRouting
