/-
Sets of flags kept in one byte. `known` is the byte of the flags that have a name; a set read from
outside may hold others, which every operation but `truncate` and `complement` lets through.
-/

namespace PointerRouting

/-- A set of flags, of which those in `known` have a name. -/
structure Flags (known : UInt8) where
  bits : UInt8
  deriving DecidableEq, Inhabited

namespace Flags

variable {known : UInt8}

/-- The set of no flag. -/
def empty : Flags known := ⟨0⟩

/-- The set of all flags that have a name. -/
def all : Flags known := ⟨known⟩

/-- Whether no flag is set. -/
def isEmpty (s : Flags known) : Bool := s.bits == 0

/-- Whether every flag that has a name is set. -/
def isAll (s : Flags known) : Bool := known ||| s.bits == s.bits

/-- Whether every flag of `t` is set in `s`. -/
def contains (s t : Flags known) : Bool := s.bits &&& t.bits == t.bits

/-- Whether some flag is set in both. -/
def intersects (s t : Flags known) : Bool := s.bits &&& t.bits != 0

/-- The flags of either set. -/
def union (s t : Flags known) : Flags known := ⟨s.bits ||| t.bits⟩

/-- The flags of both sets. -/
def inter (s t : Flags known) : Flags known := ⟨s.bits &&& t.bits⟩

/-- The flags of `s` that are not in `t`. -/
def diff (s t : Flags known) : Flags known := ⟨s.bits &&& ~~~t.bits⟩

/-- The flags of exactly one of the sets. -/
def symmDiff (s t : Flags known) : Flags known := ⟨s.bits ^^^ t.bits⟩

/-- The flags of `s` that have a name. -/
def truncate (s : Flags known) : Flags known := ⟨s.bits &&& known⟩

/-- The flags with a name that are not in `s`. -/
def complement (s : Flags known) : Flags known := (⟨~~~s.bits⟩ : Flags known).truncate

/-- The set with the given bits, if all of them have a name. -/
def ofBits? (bits : UInt8) : Option (Flags known) :=
  if bits &&& ~~~known = 0 then some ⟨bits⟩ else none

/-- The number of flags set, with a name or without. -/
def count (s : Flags known) : Nat := (List.range 8).countP fun i => s.bits.toNat.testBit i

end Flags

end PointerRouting
