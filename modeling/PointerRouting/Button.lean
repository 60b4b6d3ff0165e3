/-
Pointer buttons, the sets of buttons held down, and the modifier keys of the keyboard.
-/
import PointerRouting.Flags

namespace PointerRouting

/-- A button of a pointer. -/
inductive Button where
  | left
  | middle
  | right
  | x1
  | x2
  deriving DecidableEq, Inhabited

/-- The buttons held down; the five that have a name take the five lowest bits. -/
abbrev Buttons := Flags 31

namespace Button

/-- Every button, in the order of the bits. -/
def all : List Button := [left, middle, right, x1, x2]

/-- The set of this button alone. -/
def flag : Button → Buttons
  | left => ⟨1⟩
  | middle => ⟨2⟩
  | right => ⟨4⟩
  | x1 => ⟨8⟩
  | x2 => ⟨16⟩

end Button

/-- Whether `b` is held. -/
def Flags.holds (s : Buttons) (b : Button) : Bool := s.contains b.flag

/-- The held buttons that have a name, in the order of the bits. -/
def Flags.pressed (s : Buttons) : List Button := Button.all.filter s.holds

/-- The modifier keys held; the four that have a name take the four lowest bits. -/
abbrev Modifiers := Flags 15

namespace Modifiers

def shift : Modifiers := ⟨1⟩

def control : Modifiers := ⟨2⟩

def alt : Modifiers := ⟨4⟩

/-- The key that bears the mark of the platform. -/
def command : Modifiers := ⟨8⟩

end Modifiers

end PointerRouting
