/-
What a report asks of a device. The buttons held after it decide between a press that begins a
hold, a release that ends one, and a change of buttons within a hold, which counts as a move.
-/
import PointerRouting.Event

namespace PointerRouting

/-- What is to be done about a report. -/
inductive Action where
  /-- A hold begins with this button. -/
  | press (button : Button)
  /-- A hold ends with this button. -/
  | release (button : Button)
  /-- The pointer moved, or a button changed while others are held. -/
  | move
  /-- An event of this payload is sent and nothing else changes. -/
  | send (payload : Payload)
  /-- The pointer is no longer over the surface. -/
  | leave
  deriving DecidableEq

/-- How far a wheel scrolls. With shift held and nothing else, a vertical turn scrolls
sideways. -/
def scroll (delta : Delta) (modifiers : Modifiers) : Delta :=
  if modifiers = Modifiers.shift && delta.isVertical then delta.transpose else delta

/-- The action a report asks for. -/
def Report.action (r : Report) : Action :=
  match r.kind with
  | .down button => if 1 < r.buttons.count then .move else .press button
  | .up button => if r.buttons.count = 0 then .release button else .move
  | .move => .move
  | .wheel delta => .send (.wheel (scroll delta r.modifiers))
  | .magnify delta => .send (.magnify delta)
  | .rotate delta => .send (.rotate delta)
  | .swipe delta => .send (.swipe delta)
  | .leave | .frameDown => .leave

end PointerRouting
