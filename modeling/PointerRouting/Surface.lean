/-
A surface: the host of one root, the record of its deliveries, and what the pointers are over in
it. Every change of what a pointer is over is told to the elements concerned, each of them alone
and whatever it answers. The elements are told after the change is stored, so nothing they do to
the tree can alter whom the change concerns.
-/
import PointerRouting.Host
import PointerRouting.Hover

namespace PointerRouting

/-- A host with its deliveries and its hovering pointers. -/
structure Surface (σ K : Type) extends Stage σ K where
  hover : Hover K := Hover.empty

namespace Surface

variable {σ K : Type} [Host σ K]

/-- The root of the surface. -/
def root (s : Surface σ K) : RootId := Host.root s.host

/-- Tells the elements concerned of transitions, in order. -/
def announce (s : Surface σ K) (pointer : PointerIdentity) (details : Details)
    (transitions : List (Transition K)) : Surface σ K :=
  { s with toStage := s.deliverEach (transitions.map (·.event pointer s.root details)) }

/-- Tells the elements of an entry that its pointer has left them, under the given details. -/
def announceLeave (s : Surface σ K) (entry : HoverEntry K) (details : Details) : Surface σ K :=
  s.announce entry.pointer details (Transition.leaveAll entry.path)

/-- The path from the root down to `target`, empty if there is no target. -/
def pathTo (s : Surface σ K) (limit : Nat) (target : Option K) : Option (List K) :=
  match target with
  | none => some []
  | some node => Tree.lineage (Host.parentOf s.host) limit node

variable [DecidableEq K]

/-- Puts a pointer over `target`; with what it was over before. If that is the same element only
the stored details change, even where the path to it has become another. -/
def hoverAt (s : Surface σ K) (limit : Nat) (pointer : PointerIdentity) (details : Details)
    (target : Option K) : Option (Option K × Surface σ K) :=
  let before := s.hover.deepest pointer.id
  if before = target then
    some (before, { s with hover := s.hover.refresh pointer.id details })
  else
    (s.pathTo limit target).map fun path =>
      let (hover, transitions) := s.hover.setPath pointer details path
      (before, { s with hover }.announce pointer details transitions)

omit [DecidableEq K] in
/-- Ends the hovering of one pointer, under the given details. -/
def endHover (s : Surface σ K) (id : PointerId) (details : Details) : Surface σ K :=
  match s.hover.entries[id]? with
  | none => s
  | some entry => { s with hover := s.hover.forget id }.announceLeave entry details

omit [DecidableEq K] in
/-- Ends the hovering of every pointer whose entry satisfies a test, each under its own stored
details, in ascending order of the pointers. -/
def endHoverWhere (s : Surface σ K) (test : HoverEntry K → Bool) : Surface σ K :=
  (s.hover.select test).foldl (fun s entry => s.announceLeave entry entry.details)
    { s with hover := s.hover.reject test }

omit [DecidableEq K] in
/-- Ends the hovering of every pointer. -/
def endAllHover (s : Surface σ K) : Surface σ K := s.endHoverWhere fun _ => true

/-- Answers the removal of `element` from the tree: every pointer over it, or over something that
lay below it, stops hovering. With the number of those pointers. -/
def detach (s : Surface σ K) (element : K) : Nat × Surface σ K :=
  let test (entry : HoverEntry K) : Bool := element ∈ entry.path
  ((s.hover.select test).length, s.endHoverWhere test)

end Surface

end PointerRouting
