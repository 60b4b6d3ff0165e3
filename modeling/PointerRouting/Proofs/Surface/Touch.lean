/-
What a pointer can reach. Whatever a device does on a surface touches its own pointer only: every
event told is an event of that pointer, and what is stored for the other pointers stays as it was.
This holds of any host, whatever its elements answer or do.
-/
import PointerRouting.Proofs.Device.Phases
import PointerRouting.Proofs.Stage.Manner
import PointerRouting.Proofs.Surface.Change

namespace PointerRouting

variable {σ K : Type} [Host σ K]

namespace Surface

/-! ## What concerns one pointer -/

/-- The surface `s` becomes `t` by something that concerns the pointer `p` alone. -/
structure Touches (p : PointerId) (s t : Surface σ K) : Prop where
  told : ∃ ds, s.Told ds t.toStage ∧ ∀ d ∈ ds, d.event.pointer.id = p
  kept : ∀ q, q ≠ p → t.hover.entries[q]? = s.hover.entries[q]?
  filed : s.hover.Filed → t.hover.Filed

theorem touches_refl (p : PointerId) (s : Surface σ K) : s.Touches p s where
  told := ⟨[], rfl, by simp⟩
  kept _ _ := rfl
  filed := id

theorem Touches.trans {p : PointerId} {s m t : Surface σ K} (h : s.Touches p m)
    (h' : m.Touches p t) : s.Touches p t where
  told := by
    obtain ⟨ds, hds, hp⟩ := h.told
    obtain ⟨es, hes, hp'⟩ := h'.told
    refine ⟨ds ++ es, hds.append hes, fun d hd => ?_⟩
    rcases List.mem_append.1 hd with hd | hd
    · exact hp d hd
    · exact hp' d hd
  kept q hq := (h'.kept q hq).trans (h.kept q hq)
  filed hs := h'.filed (h.filed hs)

theorem Touches.steady {p : PointerId} {s t : Surface σ K} (h : s.Touches p t)
    (hs : Host.Steady s.host) : Host.Steady t.host := by
  obtain ⟨ds, hds, -⟩ := h.told
  rw [hds.host]
  exact hs.told _

/-- Whatever a pointer does, the host stays one that keeps its layout. -/
theorem Touches.keeps {p : PointerId} {s t : Surface σ K} {l : Layout K} (h : s.Touches p t)
    (hs : Host.Keeps s.host l) : Host.Keeps t.host l := by
  obtain ⟨ds, hds, -⟩ := h.told
  rw [hds.host]
  exact hs.told _

/-- To tell elements of events of a pointer touches that pointer alone. -/
theorem touches_told {p : PointerId} {s : Surface σ K} {stage : Stage σ K} {ds : List (Delivery K)}
    (hds : s.Told ds stage) (hp : ∀ d ∈ ds, d.event.pointer.id = p) :
    s.Touches p { s with toStage := stage } where
  told := ⟨ds, hds, hp⟩
  kept _ _ := rfl
  filed := id

theorem touches_announce (s : Surface σ K) (pointer : PointerIdentity) (details : Details)
    (transitions : List (Transition K)) :
    s.Touches pointer.id (s.announce pointer details transitions) := by
  obtain ⟨ds, hds, hann⟩ := s.announces_announce pointer details transitions
  refine touches_told hds fun d hd => ?_
  obtain ⟨t, -, he⟩ := hann.event_of_mem hd
  rw [he]
  rfl

theorem touches_hover {p : PointerId} {s : Surface σ K} {hover : Hover K}
    (hkept : ∀ q, q ≠ p → hover.entries[q]? = s.hover.entries[q]?)
    (hfiled : s.hover.Filed → hover.Filed) : s.Touches p { s with hover } where
  told := ⟨[], rfl, by simp⟩
  kept := hkept
  filed := hfiled

/-- To end the hovering of a pointer touches the pointer that it is stored under. -/
theorem touches_endHover {s : Surface σ K} (hf : s.hover.Filed) (id : PointerId)
    (details : Details) : s.Touches id (s.endHover id details) := by
  unfold endHover
  rcases he : s.hover.entries[id]? with _ | entry
  · exact touches_refl id s
  · have hforget : s.Touches id { s with hover := s.hover.forget id } := by
      refine touches_hover (fun q hq => ?_) (s.hover.keeps_forget id).filed
      rw [Hover.entries_forget, if_neg (Ne.symm hq)]
    refine hforget.trans ?_
    -- the departures are told under the pointer that is stored, which is the one it is filed under
    have htold := touches_announce { s with hover := s.hover.forget id } entry.pointer details
      (Transition.leaveAll entry.path)
    rw [hf.id id entry he] at htold
    exact htold

variable [DecidableEq K]

theorem touches_hoverAt {s t : Surface σ K} {limit : Nat} {pointer : PointerIdentity}
    {details : Details} {target before : Option K}
    (h : s.hoverAt limit pointer details target = some (before, t)) : s.Touches pointer.id t := by
  rcases (hoverAt_cases h).2 with ⟨-, rfl⟩ | ⟨-, path, -, rfl⟩
  · refine touches_hover (fun q hq => ?_) (s.hover.keeps_refresh pointer.id details).filed
    rw [Hover.entries_refresh, if_neg (Ne.symm hq)]
  · have hset : s.Touches pointer.id
        { s with hover := (s.hover.setPath pointer details path).1 } := by
      refine touches_hover (fun q hq => ?_) fun hs => hs.setPath pointer details path
      rw [Hover.entries_setPath, if_neg (Ne.symm hq)]
    exact hset.trans (touches_announce _ pointer details _)

end Surface

/-! ## What a device touches -/

namespace Device

theorem touches_dispatch {d : Device K} {limit : Nat} {s : Surface σ K} {stage : Stage σ K}
    {r : Report} {outcome : Outcome K}
    (h : d.dispatch limit s.toStage r = some (outcome, stage)) :
    s.Touches d.pointer.info.id { s with toStage := stage } := by
  rcases dispatch_cases h with ⟨-, -, rfl⟩ | ⟨payload, target, response, -, hb, -⟩
  · exact Surface.touches_refl _ s
  · obtain ⟨ds, hds, hevent⟩ := Stage.told_bubble hb
    refine Surface.touches_told hds fun e he => ?_
    rw [hevent e he]
    rfl

variable [DecidableEq K]

theorem touches_follow {d : Device K} {limit : Nat} {s t : Surface σ K} {hit : Option K}
    {r : Report} (hf : s.hover.Filed) (h : d.follow limit s hit r = some t) :
    s.Touches d.pointer.info.id t := by
  rcases follow_cases h with ⟨-, -, before, hhover⟩ | ⟨-, rfl⟩ | ⟨-, -, rfl⟩
  · exact Surface.touches_hoverAt hhover
  · exact Surface.touches_endHover hf ..
  · exact Surface.touches_refl _ t

/-- A report touches the pointer of the device that processes it. -/
theorem touches_process {d : Device K} {limit : Nat} {s : Surface σ K} {r : Report}
    {handling : Handling σ K} (hf : s.hover.Filed) (h : d.process limit s r = .ok handling) :
    s.Touches d.pointer.info.id handling.surface := by
  rcases phases_of_process h with ⟨-, rfl⟩ | ⟨-, -, _, _, _, hsent, hfollow, rfl⟩
  · exact Surface.touches_refl _ s
  · exact (touches_dispatch hsent).trans (touches_follow hf hfollow)

/-- So does a change of the scene that the device is told of. -/
theorem touches_sceneChanged {d : Device K} {limit : Nat} {s t : Surface σ K} {area : Rect}
    {changed : Bool} (h : d.sceneChanged limit s area = some (changed, t)) :
    s.Touches d.pointer.info.id t := by
  rcases sceneChanged_cases h with ⟨-, -, rfl⟩ | ⟨_, _, -, hhover, -⟩
  · exact Surface.touches_refl _ t
  · exact Surface.touches_hoverAt hhover

end Device

end PointerRouting
