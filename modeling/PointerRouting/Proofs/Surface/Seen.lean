/-
What one pointer sees of a surface: the manner of the host, the entry of that pointer and the
deliveries of its events. On a steady host whatever a device does can be done on what its pointer
sees instead, with the same result (`process_seenBy`, `sceneChanged_seenBy`), and whatever touches
another pointer does not show there at all (`Touches.seenBy`).
-/
import PointerRouting.Proofs.Surface.Touch

namespace PointerRouting

variable {σ K : Type} [Host σ K]

/-! ## Views -/

/-- The tracker with the entry of one pointer and no other. -/
def Hover.only (h : Hover K) (p : PointerId) : Hover K :=
  { entries := h.entries.filter fun id _ => id = p }

/-- What the pointer `p` sees of a stage. -/
def Stage.seenBy (p : PointerId) (s : Stage σ K) : Stage (Manner K) K where
  host := Host.manner s.host
  log := s.log.filter (·.event.pointer.id = p)

/-- What the pointer `p` sees of a surface. -/
def Surface.seenBy (p : PointerId) (s : Surface σ K) : Surface (Manner K) K where
  toStage := s.toStage.seenBy p
  hover := s.hover.only p

/-- What the pointer `p` sees of a report that has been processed. -/
def Handling.seenBy (p : PointerId) (h : Handling σ K) : Handling (Manner K) K where
  outcome := h.outcome
  device := h.device
  surface := h.surface.seenBy p

/-! ## Trackers -/

namespace Hover

variable {p : PointerId}

/-- Of the entries of a tracker one pointer sees its own. -/
theorem entries_only (h : Hover K) (p id : PointerId) :
    (h.only p).entries[id]? = if id = p then h.entries[id]? else none := by
  rw [only, Std.ExtTreeMap.getElem?_filter']
  by_cases hid : id = p <;> cases h.entries[id]? <;> simp [Option.filter, hid]

theorem only_congr {h h' : Hover K} (he : h.entries[p]? = h'.entries[p]?) :
    h.only p = h'.only p := by
  refine ext_entries fun id => ?_
  rw [entries_only, entries_only]
  split
  · rename_i hid
    rw [hid, he]
  · rfl

theorem path_only (h : Hover K) (p : PointerId) : (h.only p).path p = h.path p := by
  rw [path, path, entries_only, if_pos rfl]

theorem deepest_only (h : Hover K) (p : PointerId) : (h.only p).deepest p = h.deepest p := by
  rw [deepest, deepest, path_only]

theorem details_only (h : Hover K) (p : PointerId) : (h.only p).details p = h.details p := by
  rw [details, details, entries_only, if_pos rfl]

theorem only_refresh (h : Hover K) (p : PointerId) (details : Details) :
    (h.refresh p details).only p = (h.only p).refresh p details := by
  refine ext_entries fun id => ?_
  rw [entries_only, entries_refresh, entries_refresh, entries_only, entries_only]
  by_cases hid : id = p
  · simp [hid]
  · simp [hid, Ne.symm hid]

theorem only_forget (h : Hover K) (p : PointerId) :
    (h.forget p).only p = (h.only p).forget p := by
  refine ext_entries fun id => ?_
  rw [entries_only, entries_forget, entries_forget, entries_only]
  by_cases hid : id = p
  · simp [hid]
  · simp [hid, Ne.symm hid]

/-- What a pointer sees of a tracker decides the path it stores there and the transitions between
that and the old one. -/
theorem setPath_only [DecidableEq K] (h : Hover K) (pointer : PointerIdentity)
    (details : Details) (path : List K) :
    (h.only pointer.id).setPath pointer details path =
      ((h.setPath pointer details path).1.only pointer.id,
        (h.setPath pointer details path).2) := by
  have hstored : ((h.only pointer.id).setPath pointer details path).1 =
      (h.setPath pointer details path).1.only pointer.id := by
    refine ext_entries fun id => ?_
    rw [entries_only, entries_setPath, entries_setPath, entries_only]
    by_cases hid : id = pointer.id
    · simp [hid]
    · simp [hid, Ne.symm hid]
  have hcrossed : ((h.only pointer.id).setPath pointer details path).2 =
      (h.setPath pointer details path).2 := by
    show Transition.between _ path = Transition.between _ path
    rw [path_only]
  exact Prod.ext hstored hcrossed

end Hover

/-! ## Telling -/

variable {p : PointerId}

namespace Stage

/-- An event of the pointer is delivered on what the pointer sees as it is on the stage. -/
theorem seenBy_deliver {s : Stage σ K} (hs : Host.Steady s.host) {event : Event K}
    (hp : event.pointer.id = p) (node : K) :
    (s.seenBy p).deliver node event =
      ((s.deliver node event).1, (s.deliver node event).2.seenBy p) := by
  have hlog : ∀ d : Delivery K, d.event = event →
      (s.log ++ [d]).filter (·.event.pointer.id = p) =
        s.log.filter (·.event.pointer.id = p) ++ [d] := by
    rintro d rfl
    rw [List.filter_append, List.filter_cons_of_pos (by simpa using hp), List.filter_nil]
  unfold deliver seenBy
  dsimp only
  rw [hlog _ rfl, (hs.respond node event).2]
  rfl

theorem seenBy_deliverEach : ∀ {s : Stage σ K} {events : List (Event K)}, Host.Steady s.host →
    (∀ e ∈ events, e.pointer.id = p) →
      (s.seenBy p).deliverEach events = (s.deliverEach events).seenBy p
  | _, [], _, _ => rfl
  | s, event :: events, hs, hp => by
    obtain ⟨hfirst, hrest⟩ := List.forall_mem_cons.1 hp
    rw [deliverEach_cons, deliverEach_cons, seenBy_deliver hs hfirst]
    exact seenBy_deliverEach (hs.respond event.target event).1 hrest

/-- It also bubbles there as it does on the stage, since the links are the same. -/
theorem seenBy_bubbleFrom (event : Event K) (hp : event.pointer.id = p) :
    ∀ (limit : Nat) (node : K) {s : Stage σ K}, Host.Steady s.host →
      bubbleFrom event limit node (s.seenBy p) =
        (bubbleFrom event limit node s).map fun (response, t) => (response, t.seenBy p)
  | 0, _, _, _ => rfl
  | limit + 1, node, s, hs => by
    unfold bubbleFrom
    rw [seenBy_deliver hs hp]
    have hnext : Host.Steady (s.deliver node event).2.host := (hs.respond node event).1
    rcases hd : s.deliver node event with ⟨_ | _, t⟩
    · rfl
    · rw [hd] at hnext
      have hparent : Host.parentOf (t.seenBy p).host node = Host.parentOf t.host node := rfl
      dsimp only
      rw [hparent]
      rcases Host.parentOf t.host node with _ | parent
      · rfl
      · exact seenBy_bubbleFrom event hp limit parent hnext

end Stage

namespace Surface

theorem seenBy_announce {s : Surface σ K} (hs : Host.Steady s.host) {pointer : PointerIdentity}
    (hp : pointer.id = p) (details : Details) (transitions : List (Transition K)) :
    (s.seenBy p).announce pointer details transitions =
      (s.announce pointer details transitions).seenBy p := by
  have hevents : ∀ e ∈ transitions.map (·.event pointer s.root details), e.pointer.id = p := by
    intro e he
    obtain ⟨t, -, rfl⟩ := List.mem_map.1 he
    exact hp
  exact congrArg (Surface.mk · (s.hover.only p)) (Stage.seenBy_deliverEach hs hevents)

/-- The departures are told under the pointer that is stored, which is the one it is filed under. -/
theorem seenBy_endHover {s : Surface σ K} (hs : Host.Steady s.host) (hf : s.hover.Filed)
    (details : Details) :
    (s.seenBy p).endHover p details = (s.endHover p details).seenBy p := by
  unfold endHover
  have hentry : (s.seenBy p).hover.entries[p]? = s.hover.entries[p]? := by
    show (s.hover.only p).entries[p]? = _
    rw [Hover.entries_only, if_pos rfl]
  rw [hentry]
  rcases he : s.hover.entries[p]? with _ | entry
  · rfl
  · dsimp only
    have hforget : ({ s.seenBy p with hover := (s.seenBy p).hover.forget p } : Surface _ K) =
        ({ s with hover := s.hover.forget p } : Surface σ K).seenBy p := by
      show Surface.mk _ ((s.hover.only p).forget p) = Surface.mk _ ((s.hover.forget p).only p)
      rw [Hover.only_forget]
      rfl
    rw [hforget]
    exact seenBy_announce (s := { s with hover := s.hover.forget p }) hs (hf.id p entry he) _ _

/-- What touches another pointer does not show in what `p` sees. -/
theorem Touches.seenBy {q : PointerId} {s t : Surface σ K} (h : s.Touches q t) (hq : p ≠ q)
    (hs : Host.Steady s.host) : t.seenBy p = s.seenBy p := by
  obtain ⟨ds, hds, hevents⟩ := h.told
  have hhost : Host.manner t.host = Host.manner s.host := by
    rw [hds.host, hs]
  have hlog : t.log.filter (·.event.pointer.id = p) = s.log.filter (·.event.pointer.id = p) := by
    have hnone : ds.filter (·.event.pointer.id = p) = [] := by
      rw [List.filter_eq_nil_iff]
      intro d hd he
      have hdp := of_decide_eq_true he
      exact hq (hdp.symm.trans (hevents d hd))
    rw [hds.log, List.filter_append, hnone, List.append_nil]
  show Surface.mk (Stage.mk _ _) _ = Surface.mk (Stage.mk _ _) _
  rw [hhost, hlog, Hover.only_congr (h.kept p hq)]

variable [DecidableEq K]

/-- A pointer that is put over an element looks at its own entry and at the links, and at nothing
else of the surface. -/
theorem seenBy_hoverAt {s : Surface σ K} (hs : Host.Steady s.host) (limit : Nat)
    (pointer : PointerIdentity) (details : Details) (target : Option K) :
    (s.seenBy pointer.id).hoverAt limit pointer details target =
      (s.hoverAt limit pointer details target).map fun (before, t) =>
        (before, t.seenBy pointer.id) := by
  unfold hoverAt
  have hdeepest : (s.seenBy pointer.id).hover.deepest pointer.id = s.hover.deepest pointer.id :=
    s.hover.deepest_only pointer.id
  dsimp only
  rw [hdeepest]
  split
  · show some (_, Surface.mk _ ((s.hover.only pointer.id).refresh pointer.id details)) = _
    rw [← Hover.only_refresh]
    rfl
  · have hpath : (s.seenBy pointer.id).pathTo limit target = s.pathTo limit target := rfl
    rw [hpath, Option.map_map]
    congr 1
    funext path
    have hset : (s.seenBy pointer.id).hover.setPath pointer details path = _ :=
      s.hover.setPath_only pointer details path
    dsimp only [Function.comp_apply]
    rw [hset]
    exact congrArg (Prod.mk _) (seenBy_announce
      (s := { s with hover := (s.hover.setPath pointer details path).1 }) hs rfl details _)

end Surface

/-! ## Devices -/

namespace Device

theorem seenBy_send {d : Device K} (hp : d.pointer.info.id = p) {s : Stage σ K}
    (hs : Host.Steady s.host) (limit : Nat) (r : Report) (payload : Payload) (target : K) :
    d.send limit (s.seenBy p) r payload target =
      (d.send limit s r payload target).map fun (outcome, t) => (outcome, t.seenBy p) := by
  have hbubble : (s.seenBy p).bubble limit (d.event (s.seenBy p) r payload target) = _ :=
    Stage.seenBy_bubbleFrom (d.event s r payload target) hp limit target hs
  unfold send
  rw [hbubble, Option.map_map, Option.map_map]
  rfl

theorem seenBy_dispatch {d : Device K} (hp : d.pointer.info.id = p) {s : Stage σ K}
    (hs : Host.Steady s.host) (limit : Nat) (r : Report) :
    d.dispatch limit (s.seenBy p) r =
      (d.dispatch limit s r).map fun (outcome, t) => (outcome, t.seenBy p) := by
  unfold dispatch
  have hhit : Host.hitTest (s.seenBy p).host r.position = Host.hitTest s.host r.position := rfl
  rw [hhit]
  rcases d.message (Host.hitTest s.host r.position) r with _ | ⟨payload, target⟩
  · rfl
  · exact seenBy_send hp hs limit r payload target

variable [DecidableEq K]

theorem seenBy_follow {d : Device K} (hp : d.pointer.info.id = p) {s : Surface σ K}
    (hs : Host.Steady s.host) (hf : s.hover.Filed) (limit : Nat) (hit : Option K) (r : Report) :
    d.follow limit (s.seenBy p) hit r = (d.follow limit s hit r).map (·.seenBy p) := by
  subst hp
  unfold follow
  cases r.action with
  | move =>
    dsimp only
    split
    · rfl
    · rw [Surface.seenBy_hoverAt hs, Option.map_map, Option.map_map]
      rfl
  | leave => exact congrArg some (Surface.seenBy_endHover hs hf _)
  | press _ | release _ | send _ => rfl

/-- A device does with a report on what its pointer sees what it does on the surface. -/
theorem process_seenBy {d : Device K} (hp : d.pointer.info.id = p) {s : Surface σ K}
    (hs : Host.Steady s.host) (hf : s.hover.Filed) (limit : Nat) (r : Report) :
    d.process limit (s.seenBy p) r = (d.process limit s r).map (Handling.seenBy p) := by
  have hperform : d.perform limit (s.seenBy p) r =
      (d.perform limit s r).map (Handling.seenBy p) := by
    have hdispatch := seenBy_dispatch hp hs limit r (s := s.toStage)
    rw [perform_eq, perform_eq]
    dsimp only
    rw [show d.dispatch limit (s.seenBy p).toStage r = _ from hdispatch]
    rcases hsent : d.dispatch limit s.toStage r with _ | ⟨outcome, stage⟩
    · rfl
    · -- what is sent leaves the host steady, so the hovering follows alike
      have hsteady := (touches_dispatch hsent).steady hs
      have hfollow := seenBy_follow hp hsteady hf limit (Host.hitTest s.host r.position) r
      have hmap := congrArg (Option.map fun surface : Surface (Manner K) K =>
        (⟨outcome, d.next (Host.hitTest s.host r.position) r, surface⟩ : Handling _ K)) hfollow
      rw [Option.map_map] at hmap
      simp only [Option.map_some, Option.bind_some, Option.map_map]
      exact hmap
  have hroot : (s.seenBy p).root = s.root := rfl
  unfold process
  rw [hperform, hroot]
  split
  · rfl
  · split
    · rfl
    · rcases d.perform limit s r with _ | handling
      · rfl
      · rfl

theorem sceneChanged_seenBy {d : Device K} (hp : d.pointer.info.id = p) {s : Surface σ K}
    (hs : Host.Steady s.host) (limit : Nat) (area : Rect) :
    d.sceneChanged limit (s.seenBy p) area =
      (d.sceneChanged limit s area).map fun (changed, t) => (changed, t.seenBy p) := by
  subst hp
  have hroot : (s.seenBy d.pointer.info.id).root = s.root := rfl
  have hdetails : (s.seenBy d.pointer.info.id).hover.details d.pointer.info.id =
      s.hover.details d.pointer.info.id := s.hover.details_only _
  unfold sceneChanged
  rw [hroot, hdetails]
  rcases d.hoverPosition s.root area with _ | position
  · rfl
  · dsimp only
    rw [Surface.seenBy_hoverAt hs, Option.map_map, Option.map_map]
    rfl

end Device

end PointerRouting
