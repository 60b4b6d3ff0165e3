/-
Who takes part: roots, devices and pointers, each known by a number. Roots and pointers are
ordered by their numbers, so that a map keyed by them lists its entries in ascending order.
-/
import Std.Data.ExtTreeMap

namespace PointerRouting

/-- A source of reports. -/
structure DeviceId where
  number : Nat
  deriving DecidableEq, Inhabited

/-- A root: a tree of elements with coordinates of its own, such as a window. -/
structure RootId where
  number : Nat
  deriving DecidableEq, Inhabited

/-- A pointer; zero is the number of none. -/
structure PointerId where
  number : Nat
  number_pos : 0 < number
  deriving DecidableEq

instance : Inhabited PointerId := ⟨⟨1, Nat.one_pos⟩⟩

/-! ## Order by number -/

namespace RootId

theorem number_injective {a b : RootId} (h : a.number = b.number) : a = b := by
  cases a; cases b; exact congrArg RootId.mk h

instance : Ord RootId := ⟨fun a b => compare a.number b.number⟩

instance : Std.TransOrd RootId := inferInstanceAs (Std.TransCmp (compareOn RootId.number))

instance : Std.LawfulEqOrd RootId where
  eq_of_compare h := number_injective (Std.LawfulEqOrd.eq_of_compare (α := Nat) h)

end RootId

namespace PointerId

theorem number_injective {a b : PointerId} (h : a.number = b.number) : a = b := by
  cases a; cases b; simpa using h

instance : Ord PointerId := ⟨fun a b => compare a.number b.number⟩

instance : Std.TransOrd PointerId := inferInstanceAs (Std.TransCmp (compareOn PointerId.number))

instance : Std.LawfulEqOrd PointerId where
  eq_of_compare h := number_injective (Std.LawfulEqOrd.eq_of_compare (α := Nat) h)

end PointerId

/-! ## Pointers -/

/-- What a pointer physically is. A touch exists only while it is in contact, so it never
hovers. -/
inductive PointerKind where
  | mouse
  | touch
  | pen
  deriving DecidableEq, Inhabited

/-- A pointer as events name it. -/
structure PointerIdentity where
  id : PointerId
  kind : PointerKind
  /-- Whether it is the first of its kind. -/
  primary : Bool
  deriving DecidableEq, Inhabited

/-- A supply of pointer numbers, each one more than the last. -/
structure PointerSupply where
  /-- The number given last, zero before the first. -/
  last : Nat := 0
  deriving DecidableEq, Inhabited

namespace PointerSupply

/-- The largest number there is, a 64-bit word; it is given over and over once it is reached. -/
def limit : Nat := UInt64.size - 1

/-- The next number, and the supply without it. -/
def allocate (supply : PointerSupply) : PointerId × PointerSupply :=
  let next := min (supply.last + 1) limit
  (⟨next, Nat.lt_min.2 ⟨Nat.succ_pos _, by decide⟩⟩, ⟨next⟩)

end PointerSupply

end PointerRouting
