/-
What goes in and what comes out. A `Report` is what a device tells of its pointer; an `Event` is
what an element is told. Both carry the same `Details`, so that an event can always be traced to
the report, or to the stored details, that caused it.
-/
import PointerRouting.Geometry
import PointerRouting.Button
import PointerRouting.Identity

namespace PointerRouting

/-! ## Reports -/

/-- What a report tells. -/
inductive ReportKind where
  | down (button : Button)
  | up (button : Button)
  | move
  | wheel (delta : Delta)
  | magnify (delta : Delta)
  | rotate (delta : Delta)
  | swipe (delta : Delta)
  /-- The pointer left the surface. -/
  | leave
  /-- A button went down on the frame around the surface. -/
  | frameDown
  deriving DecidableEq, Inhabited

/-- One report of a device about its pointer in one root. -/
structure Report where
  kind : ReportKind
  device : DeviceId
  root : RootId
  time : Nat
  position : Point
  modifiers : Modifiers := Flags.empty
  /-- The buttons held after what is reported. -/
  buttons : Buttons := Flags.empty
  /-- The positions passed since the move reported before. -/
  samples : List Point := []
  deriving DecidableEq

/-! ## Details -/

/-- The button, if any, whose state a report changed. -/
inductive ButtonChange where
  | pressed (button : Button)
  | released (button : Button)
  | none
  deriving DecidableEq, Inhabited

/-- The change a kind of report stands for. -/
def ReportKind.buttonChange : ReportKind → ButtonChange
  | .down b => .pressed b
  | .up b => .released b
  | _ => .none

/-- Where and when the pointer was, and what was held. -/
structure Details where
  position : Point
  time : Nat
  buttons : Buttons := Flags.empty
  change : ButtonChange := .none
  modifiers : Modifiers := Flags.empty
  deriving DecidableEq, Inhabited

namespace Details

/-- The details of a report. -/
def ofReport (r : Report) : Details :=
  { position := r.position
    time := r.time
    buttons := r.buttons
    change := r.kind.buttonChange
    modifiers := r.modifiers }

/-- A pointer at a place and time with nothing held. -/
def bare (position : Point) (time : Nat) : Details := { position, time }

end Details

/-! ## Events -/

/-- The kinds of events. -/
inductive EventKind where
  | pressed
  | released
  | moved
  | wheel
  | magnify
  | rotate
  | swipe
  | enter
  | leave
  deriving DecidableEq, Inhabited

/-- A kind of event with what it tells. -/
inductive Payload where
  /-- A first button went down, as the press of that number in its run. -/
  | pressed (button : Button) (clicks : Nat)
  /-- The last button went up. -/
  | released (button : Button)
  /-- The pointer moved through `samples`, or a button changed beside others that stay held. -/
  | moved (samples : List Point)
  | wheel (delta : Delta)
  | magnify (delta : Delta)
  | rotate (delta : Delta)
  | swipe (delta : Delta)
  /-- The pointer came to be over the element or something within it. -/
  | enter
  /-- The pointer stopped being so. -/
  | leave
  deriving DecidableEq, Inhabited

/-- The kind alone. -/
def Payload.kind : Payload → EventKind
  | .pressed .. => .pressed
  | .released _ => .released
  | .moved _ => .moved
  | .wheel _ => .wheel
  | .magnify _ => .magnify
  | .rotate _ => .rotate
  | .swipe _ => .swipe
  | .enter => .enter
  | .leave => .leave

/-- An event for the element `target`. -/
structure Event (K : Type) where
  payload : Payload
  target : K
  pointer : PointerIdentity
  root : RootId
  details : Details
  deriving DecidableEq

/-- The kind of an event. -/
def Event.kind {K : Type} (e : Event K) : EventKind := e.payload.kind

end PointerRouting
