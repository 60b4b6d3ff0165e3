/-
A host played from a script: a tree laid out in rectangles, whose elements handle the kinds of
events they are listed for and edit the scene when they are told of one. `Session.trace` plays
commands, requests to a session of such hosts and edits of its scenes from outside, one after
another.
-/
import PointerRouting.Session

namespace PointerRouting

/-- A change of a scene. -/
inductive Edit (K : Type) where
  /-- Gives an element a parent, or none. -/
  | link (node : K) (parent : Option K)
  /-- Replaces the element hit where no region is. -/
  | backdrop (node : Option K)
  /-- Replaces the regions. -/
  | regions (regions : List (Rect × K))
  /-- Lists an element for a kind of event. -/
  | handle (node : K) (kind : EventKind)
  /-- Takes an element off the list for a kind of event. -/
  | unhandle (node : K) (kind : EventKind)
  deriving DecidableEq

/-- What an element does to its scene when it is told of an event of some kind. -/
structure Reaction (K : Type) where
  node : K
  kind : EventKind
  edits : List (Edit K)
  deriving DecidableEq

/-- A host played from a script. -/
structure Scene (K : Type) where
  root : RootId
  /-- Each element that has a parent, with its parent. -/
  links : List (K × K) := []
  /-- The places where elements are hit; a later one lies above an earlier one. -/
  regions : List (Rect × K) := []
  /-- The element hit where no region is. -/
  backdrop : Option K := none
  /-- The elements listed for the kinds of events they handle. -/
  handles : List (K × EventKind) := []
  reactions : List (Reaction K) := []
  deriving DecidableEq

namespace Scene

variable {K : Type}

/-- The element hit at a point. -/
def hitTest (s : Scene K) (p : Point) : Option K :=
  match s.regions.findRev? fun (area, _) => area.holds p with
  | some (_, node) => some node
  | none => s.backdrop

variable [DecidableEq K]

/-- The parent of an element. -/
def parentOf (s : Scene K) (node : K) : Option K := s.links.lookup node

/-- The scene in which `node` has the given parent, or none. -/
def link (s : Scene K) (node : K) (parent : Option K) : Scene K :=
  let others := s.links.filter (·.1 ≠ node)
  { s with
    links := match parent with
      | none => others
      | some parent => (node, parent) :: others }

/-- The scene after an edit. -/
def edit (s : Scene K) : Edit K → Scene K
  | .link node parent => s.link node parent
  | .backdrop node => { s with backdrop := node }
  | .regions regions => { s with regions }
  | .handle node kind => { s with handles := s.handles ++ [(node, kind)] }
  | .unhandle node kind => { s with handles := s.handles.filter (· ≠ (node, kind)) }

/-- What is reported of an edit: the former parent of an element that is linked. -/
def reportOf (s : Scene K) : Edit K → Answer K
  | .link node _ => .node (s.parentOf node)
  | _ => .done

/-- Whether an element handles a kind of event. -/
def responseOf (s : Scene K) (node : K) (kind : EventKind) : Response :=
  if (node, kind) ∈ s.handles then .handled else .passed

/-- The edits an element makes when it is told of a kind of event. -/
def editsOf (s : Scene K) (node : K) (kind : EventKind) : List (Edit K) :=
  (s.reactions.filter fun r => r.node = node ∧ r.kind = kind).flatMap (·.edits)

instance : Host (Scene K) K where
  root := Scene.root
  parentOf := Scene.parentOf
  hitTest := Scene.hitTest
  respond s node event :=
    (s.responseOf node event.kind, (s.editsOf node event.kind).foldl Scene.edit s)

end Scene

/-- A request to a session of scenes, or an edit of one of them. -/
inductive Command (K : Type) where
  | request (step : Step K)
  | edit (surface : Nat) (edit : Edit K)
  deriving DecidableEq

namespace Session

variable {K : Type} [DecidableEq K]

/-- Carries out a command. -/
def command (limit : Nat) (s : Session (Scene K) K) :
    Command K → Except Fault (Answer K × Session (Scene K) K)
  | .request step => s.step limit step
  | .edit surface edit => s.onSurface surface fun scene =>
    some (scene.host.reportOf edit, { scene with host := scene.host.edit edit })

/-- What each of some commands comes to: its answer, and the session after it with the deliveries
it caused and no others. -/
def trace (limit : Nat) : Session (Scene K) K → List (Command K) →
    List (Except Fault (Answer K) × Session (Scene K) K)
  | _, [] => []
  | s, c :: cs =>
    let s := s.forgetDeliveries
    match s.command limit c with
    | .ok (answer, s) => (.ok answer, s) :: trace limit s cs
    | .error fault => (.error fault, s) :: trace limit s cs

end Session

end PointerRouting
