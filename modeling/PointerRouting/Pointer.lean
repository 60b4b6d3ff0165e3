/-
A pointer and the element that has captured it. An element that captures a pointer receives what
the pointer does wherever it goes, until it lets go of it or leaves the tree. A pointer that has
been disposed of is captured by nothing and cannot be captured again.
-/
import PointerRouting.Identity
import PointerRouting.Tree

namespace PointerRouting

/-- A pointer, what has captured it, and whether it has been disposed of. -/
structure Pointer (K : Type) where
  info : PointerIdentity
  captured : Option K := none
  disposed : Bool := false
  deriving DecidableEq

namespace Pointer

variable {K : Type}

/-- Hands the pointer to `target`, or to nobody; with the element that had captured it before.
Neither happens once the pointer has been disposed of. -/
def capture (p : Pointer K) (target : Option K) : Option K × Pointer K :=
  if p.disposed then (none, p) else (p.captured, { p with captured := target })

/-- Lets go of the pointer for good. -/
def dispose (p : Pointer K) : Pointer K := { (p.capture none).2 with disposed := true }

/-- Answers the removal of `element` from the tree: a pointer captured by it or from within it
goes to `formerParent`. With whether that was so. -/
def detach [DecidableEq K] (p : Pointer K) (parentOf : K → Option K) (limit : Nat)
    (element : K) (formerParent : Option K) : Option (Bool × Pointer K) :=
  match p.captured with
  | none => some (false, p)
  | some owner =>
    (Tree.isWithin parentOf element limit owner).map fun within =>
      if within then (true, (p.capture formerParent).2) else (false, p)

end Pointer

end PointerRouting
