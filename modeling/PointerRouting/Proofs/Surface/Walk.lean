/-
Walks that come to their end. Where every walk up a tree ends and telling elements leaves the tree
as it is, whatever a device or a tracker does on a surface comes to one result under every limit
from some bound on (`Returns`), whatever the elements answer: an event bubbles no further than the
walk from its target leads, and the lineage of a target is such a walk itself.
-/
import PointerRouting.Proofs.Stage.Climb
import PointerRouting.Proofs.Surface.Touch
import PointerRouting.Proofs.Tree.Ancestry

namespace PointerRouting

variable {σ K : Type}

/-- Under every limit from some bound on, this is one and the same result. -/
def Returns {α : Type} (f : Nat → Option α) : Prop :=
  ∃ a bound, ∀ limit, bound ≤ limit → f limit = some a

theorem returns_some {α : Type} (a : α) : Returns fun _ => some a := ⟨a, 0, fun _ _ => rfl⟩

/-- One step after another returns if the first does and the second does whatever the first returns.
-/
theorem Returns.bind {α β : Type} {f : Nat → Option α} {g : Nat → α → Option β} (h : Returns f)
    (hg : ∀ limit a, f limit = some a → Returns (g · a)) :
    Returns fun limit => (f limit).bind (g limit) := by
  obtain ⟨a, bound, hf⟩ := h
  obtain ⟨b, larger, hb⟩ := hg bound a (hf bound le_rfl)
  refine ⟨b, max bound larger, fun limit hle => ?_⟩
  show (f limit).bind (g limit) = some b
  rw [hf limit (by omega), Option.bind_some]
  exact hb limit (by omega)

theorem Returns.map {α β : Type} {f : Nat → Option α} (h : Returns f) (g : α → β) :
    Returns fun limit => (f limit).map g := by
  obtain ⟨a, bound, hf⟩ := h
  refine ⟨g a, bound, fun limit hle => ?_⟩
  show (f limit).map g = some (g a)
  rw [hf limit hle, Option.map_some]

/-! ## Trees -/

/-- Where there are no cycles the walk up from any node comes to its end. -/
theorem Tree.Acyclic.returns_lineage {parentOf : K → Option K} (h : Tree.Acyclic parentOf)
    (node : K) : Returns fun limit => Tree.lineage parentOf limit node := by
  obtain ⟨bound, path, hpath⟩ := h.lineage node
  exact ⟨path, bound, fun limit hle => Tree.lineage_mono hle hpath⟩

theorem Tree.Acyclic.returns_isWithin [DecidableEq K] {parentOf : K → Option K}
    (h : Tree.Acyclic parentOf) (ancestor node : K) :
    Returns fun limit => Tree.isWithin parentOf ancestor limit node := by
  obtain ⟨bound, path, hpath⟩ := h.lineage node
  have hwithin := Tree.isWithin_of_lineage parentOf ancestor bound node path hpath
  exact ⟨_, bound, fun limit hle =>
    Tree.isWithin_mono parentOf ancestor bound limit node _ hle hwithin⟩

/-! ## Surfaces -/

variable [Host σ K] {l : Layout K}

/-- An event bubbles no further than the walk up from its node leads. -/
theorem Stage.returns_bubbleFrom (hl : Tree.Acyclic l.parentOf) (event : Event K) (node : K)
    {s : Stage σ K} (hs : Host.Keeps s.host l) :
    Returns fun limit => Stage.bubbleFrom event limit node s := by
  obtain ⟨bound, path, hpath⟩ := hl.lineage node
  obtain ⟨response, t, hend⟩ := Stage.exists_bubbleFrom event hs.linksIn hpath
  exact ⟨(response, t), bound, fun limit hle =>
    Stage.bubbleFrom_mono event bound limit node s (response, t) hle hend⟩

variable [DecidableEq K]

/-- To put a pointer over an element takes one walk, from that element up. -/
theorem Surface.returns_hoverAt {a : Surface σ K} (hl : Tree.Acyclic l.parentOf)
    (ha : Host.Keeps a.host l) (pointer : PointerIdentity) (details : Details)
    (target : Option K) : Returns fun limit => a.hoverAt limit pointer details target := by
  unfold hoverAt
  dsimp only
  split
  · exact returns_some _
  · refine Returns.map ?_ _
    unfold pathTo
    rcases target with _ | node
    · exact returns_some _
    · rw [ha.parentOf]
      exact hl.returns_lineage node

namespace Device

omit [DecidableEq K] in
theorem returns_send {s : Stage σ K} (hl : Tree.Acyclic l.parentOf) (hs : Host.Keeps s.host l)
    (d : Device K) (r : Report) (payload : Payload) (target : K) :
    Returns fun limit => d.send limit s r payload target :=
  (Stage.returns_bubbleFrom hl (d.event s r payload target) target hs).map _

omit [DecidableEq K] in
theorem returns_dispatch {s : Stage σ K} (hl : Tree.Acyclic l.parentOf)
    (hs : Host.Keeps s.host l) (d : Device K) (r : Report) :
    Returns fun limit => d.dispatch limit s r := by
  unfold dispatch
  rcases d.message (Host.hitTest s.host r.position) r with _ | ⟨payload, target⟩
  · exact returns_some _
  · exact returns_send hl hs d r payload target

theorem returns_follow {a : Surface σ K} (hl : Tree.Acyclic l.parentOf)
    (ha : Host.Keeps a.host l) (d : Device K) (hit : Option K) (r : Report) :
    Returns fun limit => d.follow limit a hit r := by
  unfold follow
  cases r.action with
  | move =>
    dsimp only
    split
    · exact returns_some a
    · exact (Surface.returns_hoverAt hl ha _ _ hit).map _
  | press _ | release _ | send _ | leave => exact returns_some _

theorem returns_perform {a : Surface σ K} (hl : Tree.Acyclic l.parentOf)
    (ha : Host.Keeps a.host l) (d : Device K) (r : Report) :
    Returns fun limit => d.perform limit a r := by
  have hperform : (fun limit => d.perform limit a r) = _ :=
    funext fun limit => d.perform_eq limit a r
  rw [hperform]
  refine (returns_dispatch hl ha d r).bind fun limit sent hsent => ?_
  have hnext := (touches_dispatch hsent).keeps ha
  exact (returns_follow hl hnext d _ r).map _

/-- A device that is in use comes to an answer to every report that names the root of the surface.
-/
theorem exists_process {a : Surface σ K} (hl : Tree.Acyclic l.parentOf)
    (ha : Host.Keeps a.host l) {d : Device K} (hlive : d.disposed = false) {r : Report}
    (hroot : r.root = a.root) :
    ∃ handling bound, ∀ limit, bound ≤ limit → d.process limit a r = .ok handling := by
  obtain ⟨handling, bound, hperform⟩ := returns_perform hl ha d r
  refine ⟨handling, bound, fun limit hle => ?_⟩
  have hat : d.perform limit a r = some handling := hperform limit hle
  rw [process, hlive, if_neg Bool.false_ne_true, if_neg (by simp [hroot]), hat]

theorem returns_sceneChanged {a : Surface σ K} (hl : Tree.Acyclic l.parentOf)
    (ha : Host.Keeps a.host l) (d : Device K) (area : Rect) :
    Returns fun limit => d.sceneChanged limit a area := by
  unfold sceneChanged
  rcases d.hoverPosition a.root area with _ | position
  · exact returns_some _
  · exact (Surface.returns_hoverAt hl ha _ _ _).map _

omit [Host σ K] in
theorem returns_detach {parentOf : K → Option K} (h : Tree.Acyclic parentOf) (d : Device K)
    (element : K) (formerParent : Option K) :
    Returns fun limit => d.detach parentOf limit element formerParent := by
  refine Returns.map ?_ _
  unfold Pointer.detach
  rcases d.pointer.captured with _ | owner
  · exact returns_some _
  · exact (h.returns_isWithin element owner).map _

end Device

end PointerRouting
