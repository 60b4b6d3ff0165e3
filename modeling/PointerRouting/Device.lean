/-
A device: one pointer, the presses it has made, and where it was last. `process` takes a report
about the pointer, finds the element it concerns on a surface, and sends that element the event.

The element is the one that has captured the pointer, or else the one under the pointer. A press
that begins a hold always goes to the element under the pointer and lets it capture the pointer;
the release that ends the hold goes to whoever has it then, and lets go of it. Hovering follows
the element under the pointer alone, after every move, and never for a touch.
-/
import PointerRouting.Action
import PointerRouting.Click
import PointerRouting.Fault
import PointerRouting.Pointer
import PointerRouting.Surface

namespace PointerRouting

/-- A source of reports about one pointer. -/
structure Device (K : Type) where
  id : DeviceId
  pointer : Pointer K
  /-- The last position reported, and the root in whose coordinates it is. -/
  position : Option (RootId × Point) := none
  clicks : Clicks := Clicks.fresh
  rule : ClickRule := ClickRule.standard
  disposed : Bool := false
  deriving DecidableEq

/-- What came of a report. -/
inductive Outcome (K : Type) where
  /-- An event of this kind was sent to `target`, which or an ancestor of which may have handled
  it. -/
  | routed (kind : EventKind) (target : K) (handled : Bool)
  /-- There was no element to send an event to. -/
  | noTarget
  /-- The pointer left the surface. -/
  | left
  /-- The device has been disposed of; the report was ignored. -/
  | stale
  deriving DecidableEq

namespace Outcome

variable {K : Type}

/-- The kind of the event sent. -/
def kind : Outcome K → Option EventKind
  | routed kind _ _ => some kind
  | _ => none

/-- The element the event was sent to. -/
def target : Outcome K → Option K
  | routed _ target _ => some target
  | _ => none

/-- Whether an element handled the event. -/
def handled : Outcome K → Bool
  | routed _ _ handled => handled
  | _ => false

/-- Whether the report was ignored. -/
def isStale : Outcome K → Bool
  | stale => true
  | _ => false

end Outcome

/-- The outcome of a report with the device and the surface after it. -/
structure Handling (σ K : Type) where
  outcome : Outcome K
  device : Device K
  surface : Surface σ K

namespace Device

variable {σ K : Type}

/-- A device that has reported nothing. -/
def ofPointer (id : DeviceId) (pointer : PointerIdentity) (rule : ClickRule) : Device K :=
  { id, pointer := { info := pointer }, rule }

/-- Hands the pointer of the device to `target`; with the element that had captured it before. -/
def capture (d : Device K) (target : Option K) : Option K × Device K :=
  let (before, pointer) := d.pointer.capture target
  (before, { d with pointer })

/-- Disposes of the pointer and leaves the device itself in use. -/
def disposePointer (d : Device K) : Device K := { d with pointer := d.pointer.dispose }

/-- Disposes of the device with its pointer. -/
def dispose (d : Device K) : Device K := { d.disposePointer with disposed := true }

/-- Counts multi-clicks under another rule from now on. -/
def setRule (d : Device K) (rule : ClickRule) : Device K := { d with rule }

/-- Answers the removal of `element` from the tree; see `Pointer.detach`. -/
def detach [DecidableEq K] (d : Device K) (parentOf : K → Option K) (limit : Nat) (element : K)
    (formerParent : Option K) : Option (Bool × Device K) :=
  (d.pointer.detach parentOf limit element formerParent).map fun (changed, pointer) =>
    (changed, { d with pointer })

/-! ## Processing a report -/

variable [Host σ K]

/-- The event a report makes of a payload for an element. -/
def event (d : Device K) (s : Stage σ K) (r : Report) (payload : Payload) (target : K) : Event K :=
  { payload, target, pointer := d.pointer.info, root := Host.root s.host
    details := Details.ofReport r }

/-- Lets the event of a report bubble from `target`. -/
def send (d : Device K) (limit : Nat) (s : Stage σ K) (r : Report) (payload : Payload)
    (target : K) : Option (Outcome K × Stage σ K) :=
  (s.bubble limit (d.event s r payload target)).map fun (response, s) =>
    (.routed payload.kind target (response = .handled), s)

/-- The element that a report concerns: who has captured the pointer, or what is under it. -/
def targetOf (d : Device K) (s : Stage σ K) (r : Report) : Option K :=
  d.pointer.captured.or (Host.hitTest s.host r.position)

/-- Lets the event of a report bubble from the element it concerns, if there is one. -/
def route (d : Device K) (limit : Nat) (s : Stage σ K) (r : Report) (payload : Payload) :
    Option (Outcome K × Stage σ K) :=
  match d.targetOf s r with
  | none => some (.noTarget, s)
  | some target => d.send limit s r payload target

/-- Begins a hold: the element under the pointer captures it and is sent the press. A press over
nothing counts for nothing and leaves the pointer with whoever has it. -/
def press (d : Device K) (limit : Nat) (s : Surface σ K) (r : Report) (button : Button) :
    Option (Handling σ K) :=
  match Host.hitTest s.host r.position with
  | none => some ⟨.noTarget, d, s⟩
  | some target =>
    let clicks := d.clicks.press d.rule ⟨r.time, r.position, button⟩
    let d := { (d.capture (some target)).2 with clicks }
    (d.send limit s.toStage r (.pressed button clicks.count) target).map
      fun (outcome, stage) => ⟨outcome, d, { s with toStage := stage }⟩

/-- Ends a hold: the release is sent, under the name of the button last pressed, and the pointer
let go of. -/
def release (d : Device K) (limit : Nat) (s : Surface σ K) (r : Report) (button : Button) :
    Option (Handling σ K) :=
  (d.route limit s.toStage r (.released (d.clicks.button.getD button))).map
    fun (outcome, stage) => ⟨outcome, (d.capture none).2, { s with toStage := stage }⟩

variable [DecidableEq K]

/-- Sends a move, then puts the pointer over the element that was under it before. -/
def move (d : Device K) (limit : Nat) (s : Surface σ K) (r : Report) : Option (Handling σ K) :=
  let hit := Host.hitTest s.host r.position
  match d.route limit s.toStage r (.moved r.samples) with
  | none => none
  | some (outcome, stage) =>
    let s := { s with toStage := stage }
    if d.pointer.info.kind = .touch then some ⟨outcome, d, s⟩
    else
      (s.hoverAt limit d.pointer.info (Details.ofReport r) hit).map
        fun (_, s) => ⟨outcome, d, s⟩

omit [DecidableEq K] in
/-- Forgets where the pointer was and ends its hovering, at the place where it was last in this
root. -/
def leave (d : Device K) (s : Surface σ K) (r : Report) : Handling σ K :=
  let position :=
    match d.position with
    | some (root, position) => if root = r.root then position else r.position
    | none => r.position
  let details := { Details.ofReport r with position }
  ⟨.left, { d with position := none }, s.endHover d.pointer.info.id details⟩

/-- Does what a report asks for. -/
def perform (d : Device K) (limit : Nat) (s : Surface σ K) (r : Report) :
    Option (Handling σ K) :=
  let placed := { d with position := some (r.root, r.position) }
  match r.action with
  | .press button => placed.press limit s r button
  | .release button => placed.release limit s r button
  | .move => placed.move limit s r
  | .send payload =>
    (placed.route limit s.toStage r payload).map
      fun (outcome, stage) => ⟨outcome, placed, { s with toStage := stage }⟩
  | .leave => some (d.leave s r)

/-- Processes a report on the surface of its root. A device that has been disposed of ignores
every report, also one that names another root. -/
def process (d : Device K) (limit : Nat) (s : Surface σ K) (r : Report) :
    Except Fault (Handling σ K) :=
  if d.disposed then .ok ⟨.stale, d, s⟩
  else if s.root ≠ r.root then .error .otherRoot
  else
    match d.perform limit s r with
    | none => .error .endlessWalk
    | some handling => .ok handling

/-! ## Changes of the scene -/

/-- Where the pointer hovers on a surface, if a change of the scene within `area` concerns it: its
last position, given in this root and covered by the area. -/
def hoverPosition (d : Device K) (root : RootId) (area : Rect) : Option Point :=
  if d.disposed || d.pointer.info.kind = .touch then none
  else
    match d.position with
    | none => none
    | some (last, position) =>
      if last = root && area.covers position then some position else none

/-- Answers a change of what is drawn within `area`: if the pointer is there, it comes to be over
the element that is under it now. With whether that is another than before. -/
def sceneChanged (d : Device K) (limit : Nat) (s : Surface σ K) (area : Rect) :
    Option (Bool × Surface σ K) :=
  match d.hoverPosition s.root area with
  | none => some (false, s)
  | some position =>
    let details :=
      match s.hover.details d.pointer.info.id with
      | some details => { details with position }
      | none => Details.bare position 0
    let hit := Host.hitTest s.host position
    (s.hoverAt limit d.pointer.info details hit).map fun (before, s) => (before ≠ hit, s)

end Device

end PointerRouting
