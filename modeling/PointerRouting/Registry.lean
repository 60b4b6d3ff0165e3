/-
Which device was last at work in each root, so that one device alone answers a change of what a
root shows.
-/
import PointerRouting.Device

namespace PointerRouting

/-- The device last at work in each root, by the number of the root. -/
structure Registry where
  last : Std.ExtTreeMap RootId DeviceId := ∅

namespace Registry

/-- The registry of no work at all. -/
def empty : Registry := {}

instance : Inhabited Registry := ⟨empty⟩

/-- Records that a device was at work in a root. -/
def record (g : Registry) (root : RootId) (device : DeviceId) : Registry :=
  { last := g.last.insert root device }

/-- Records the device and the root that a report names, unless the report was ignored. -/
def note {K : Type} (g : Registry) (r : Report) (outcome : Outcome K) : Registry :=
  if outcome.isStale then g else g.record r.root r.device

/-- The device last at work in a root. -/
def active (g : Registry) (root : RootId) : Option DeviceId := g.last[root]?

/-- Forgets every root in which `device` was last at work. -/
def removeDevice (g : Registry) (device : DeviceId) : Registry :=
  { last := g.last.filter fun _ other => other ≠ device }

/-- Forgets a root. -/
def removeRoot (g : Registry) (root : RootId) : Registry := { last := g.last.erase root }

/-- Whether no root is known. -/
def isEmpty (g : Registry) : Bool := g.last.isEmpty

/-! ## Who is active after a change -/

theorem active_empty (root : RootId) : empty.active root = none := by
  simp [active, empty]

theorem active_record (g : Registry) (root other : RootId) (device : DeviceId) :
    (g.record root device).active other = if root = other then some device else g.active other := by
  unfold active record
  rw [Std.ExtTreeMap.getElem?_insert]
  simp only [Std.LawfulEqCmp.compare_eq_iff_eq]

theorem active_removeRoot (g : Registry) (root other : RootId) :
    (g.removeRoot root).active other = if root = other then none else g.active other := by
  unfold active removeRoot
  rw [Std.ExtTreeMap.getElem?_erase]
  simp only [Std.LawfulEqCmp.compare_eq_iff_eq]

theorem active_removeDevice (g : Registry) (device : DeviceId) (root : RootId) :
    (g.removeDevice device).active root = (g.active root).filter (· ≠ device) := by
  unfold active removeDevice
  rw [Std.ExtTreeMap.getElem?_filter]
  rcases g.last[root]? with _ | other <;> simp [Option.pfilter, Option.filter]

end Registry

end PointerRouting
