/-
Counting the presses of a multi-click. A press continues the run of the one before it when it
falls in the rectangle that one left behind and comes within the interval in force now; otherwise
it opens a run of its own. Neither which button is pressed nor what is held matters.

Times are counts of a unit the host agrees on with its rule. A press that is dated before the
one it follows counts as simultaneous with it.
-/
import PointerRouting.Geometry
import PointerRouting.Button

namespace PointerRouting

/-- How near in time and place two presses must be to belong together. -/
structure ClickRule where
  /-- The longest time from one press to the next. -/
  interval : Nat
  /-- The size of the rectangle around a press in which the next one must fall. -/
  area : Size
  deriving DecidableEq

namespace ClickRule

/-- The rule used where the platform has none: half a second in milliseconds, and a square of
four units. -/
def standard : ClickRule := ⟨500, ⟨4, 4⟩⟩

instance : Inhabited ClickRule := ⟨standard⟩

end ClickRule

/-- A press of a button, at a time and a place. -/
structure Press where
  time : Nat
  position : Point
  button : Button
  deriving DecidableEq, Inhabited

/-- What is remembered of the presses so far. -/
structure Clicks where
  /-- The length of the current run. -/
  count : Nat := 0
  /-- The time of the last press. -/
  time : Nat := 0
  /-- Where the next press must fall to continue the run. -/
  area : Rect := Rect.origin
  /-- The button of the last press. -/
  button : Option Button := none
  deriving DecidableEq

namespace Clicks

/-- The memory in which no press has been made. -/
def fresh : Clicks := {}

instance : Inhabited Clicks := ⟨fresh⟩

/-- The longest run that is told from longer ones: the largest 32-bit word. -/
def countLimit : Nat := UInt32.size - 1

/-- Whether a press at this time and place continues the current run. -/
def continues (c : Clicks) (rule : ClickRule) (press : Press) : Bool :=
  c.area.covers press.position && press.time - c.time ≤ rule.interval

/-- The memory after a press; its `count` is the length of the run the press ends. -/
def press (c : Clicks) (rule : ClickRule) (press : Press) : Clicks :=
  let before := if c.continues rule press then c.count else 0
  { count := min (before + 1) countLimit
    time := press.time
    area := Rect.around press.position rule.area
    button := some press.button }

end Clicks

end PointerRouting
