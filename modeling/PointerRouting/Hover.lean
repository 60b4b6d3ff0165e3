/-
What each pointer is over. For every pointer that hovers, the tracker stores the elements from the
root down to the one it is over, as they were when it came there, and the details of what last
confirmed it. Storing a new path yields the transitions that lead from the old one to it: the
elements that only the old one has are left, deepest first, then those that only the new one has
are entered, deepest first.
-/
import PointerRouting.Event

namespace PointerRouting

/-- A change of what a pointer is over. -/
inductive Transition (K : Type) where
  | enter (node : K)
  | leave (node : K)
  deriving DecidableEq

namespace Transition

variable {K : Type}

/-- The element entered or left. -/
def node : Transition K → K
  | .enter n => n
  | .leave n => n

/-- What the element is told. -/
def payload : Transition K → Payload
  | .enter _ => .enter
  | .leave _ => .leave

/-- The event that tells the element of the change. -/
def event (t : Transition K) (pointer : PointerIdentity) (root : RootId) (details : Details) :
    Event K :=
  { payload := t.payload, target := t.node, pointer, root, details }

/-- The two paths without the elements they share at their beginning. -/
def dropShared [DecidableEq K] : List K → List K → List K × List K
  | a :: old, b :: new => if a = b then dropShared old new else (a :: old, b :: new)
  | old, new => (old, new)

/-- The departure from every element of a path, deepest first. -/
def leaveAll (path : List K) : List (Transition K) := path.reverse.map leave

/-- The arrival at every element of a path, deepest first. -/
def enterAll (path : List K) : List (Transition K) := path.reverse.map enter

/-- The transitions from one path to another. -/
def between [DecidableEq K] (old new : List K) : List (Transition K) :=
  let (left, entered) := dropShared old new
  leaveAll left ++ enterAll entered

end Transition

/-- What is stored for a pointer that hovers. -/
structure HoverEntry (K : Type) where
  pointer : PointerIdentity
  details : Details
  /-- The elements it is over, from the root down. -/
  path : List K
  deriving DecidableEq

/-- What each pointer is over, by the number of the pointer. -/
structure Hover (K : Type) where
  entries : Std.ExtTreeMap PointerId (HoverEntry K) := ∅

namespace Hover

variable {K : Type}

/-- The tracker of a surface that no pointer hovers over. -/
def empty : Hover K := {}

instance : Inhabited (Hover K) := ⟨empty⟩

/-- The elements a pointer is over, from the root down; none if it does not hover. -/
def path (h : Hover K) (id : PointerId) : List K :=
  match h.entries[id]? with
  | none => []
  | some entry => entry.path

/-- The deepest element a pointer is over. -/
def deepest (h : Hover K) (id : PointerId) : Option K := (h.path id).getLast?

/-- The details of what last confirmed that a pointer hovers. -/
def details (h : Hover K) (id : PointerId) : Option Details := h.entries[id]?.map (·.details)

/-- Whether no pointer hovers. -/
def isEmpty (h : Hover K) : Bool := h.entries.isEmpty

/-- Whether some pointer is over `node` or something that lay below it when it came there. -/
def isOver [DecidableEq K] (h : Hover K) (node : K) : Bool :=
  h.entries.toList.any fun (_, entry) => node ∈ entry.path

/-- Replaces the details stored for a pointer, if it hovers. -/
def refresh (h : Hover K) (id : PointerId) (details : Details) : Hover K :=
  { entries := h.entries.modify id fun entry => { entry with details } }

/-- Forgets a pointer. -/
def forget (h : Hover K) (id : PointerId) : Hover K := { entries := h.entries.erase id }

/-- Stores the path a pointer is over, with the transitions that lead to it from the path stored
before. A pointer over nothing is forgotten. -/
def setPath [DecidableEq K] (h : Hover K) (pointer : PointerIdentity) (details : Details)
    (path : List K) : Hover K × List (Transition K) :=
  let after :=
    if path.isEmpty then h.forget pointer.id
    else { entries := h.entries.insert pointer.id { pointer, details, path } }
  (after, Transition.between (h.path pointer.id) path)

/-! ## Paths after a change -/

theorem path_empty (id : PointerId) : (empty : Hover K).path id = [] := by
  simp [path, empty]

theorem path_forget (h : Hover K) (id other : PointerId) :
    (h.forget id).path other = if id = other then [] else h.path other := by
  unfold path forget
  rw [Std.ExtTreeMap.getElem?_erase]
  by_cases he : id = other
  · simp [he]
  · simp [he, Std.LawfulEqCmp.compare_eq_iff_eq]

theorem path_refresh (h : Hover K) (id other : PointerId) (details : Details) :
    (h.refresh id details).path other = h.path other := by
  unfold path refresh
  rw [Std.ExtTreeMap.getElem?_modify]
  by_cases he : id = other
  · subst he
    rcases h.entries[id]? with _ | entry <;> simp
  · simp [he, Std.LawfulEqCmp.compare_eq_iff_eq]

theorem path_setPath [DecidableEq K] (h : Hover K) (pointer : PointerIdentity)
    (details : Details) (path : List K) (other : PointerId) :
    (h.setPath pointer details path).1.path other =
      if pointer.id = other then path else h.path other := by
  cases path with
  | nil => exact path_forget h pointer.id other
  | cons a rest =>
    simp only [setPath, Hover.path, List.isEmpty_cons, Bool.false_eq_true, if_false]
    rw [Std.ExtTreeMap.getElem?_insert]
    by_cases he : pointer.id = other
    · simp [he]
    · simp [he, Std.LawfulEqCmp.compare_eq_iff_eq]

/-! ## Groups of pointers -/

/-- The entries that satisfy a test, in ascending order of their pointers. -/
def select (h : Hover K) (test : HoverEntry K → Bool) : List (HoverEntry K) :=
  (h.entries.toList.map Prod.snd).filter test

/-- The tracker without the entries that satisfy a test. -/
def reject (h : Hover K) (test : HoverEntry K → Bool) : Hover K :=
  { entries := h.entries.filter fun _ entry => !test entry }

end Hover

end PointerRouting
