/-
What can be wrong with a request, as opposed to what can come of one.
-/

namespace PointerRouting

/-- Why a request was refused. A refused request changes nothing. -/
inductive Fault where
  /-- A report names another root than the surface it was brought to. -/
  | otherRoot
  /-- A walk along parent links did not end within its limit. -/
  | endlessWalk
  /-- A session has no surface of that number. -/
  | noSurface (index : Nat)
  /-- A session has no device of that number. -/
  | noDevice (index : Nat)
  deriving DecidableEq

/-- The fault in words. -/
def Fault.message : Fault → String
  | .otherRoot => "raw event processed against another root"
  | .endlessWalk => "the parent links do not end"
  | .noSurface index => s!"no surface {index}"
  | .noDevice index => s!"no device {index}"

end PointerRouting
