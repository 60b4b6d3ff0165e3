/-
Arrivals and departures balance. In every run that begins with an empty tracker, whatever elements
answer and however the tree changes meanwhile, the events that tell an element of the arrivals and
departures of one pointer take turns and begin with an arrival; and the pointer is over the element
exactly when the last of them was one. Each change adds turns that lead from whether the old path
of the pointer has the element to whether the new one has.
-/
import PointerRouting.Proofs.Surface.Run
import PointerRouting.Scene

namespace PointerRouting

variable {σ K : Type} [DecidableEq K]

/-- The transitions of the pointer `p` that the element `n` is told of, in order. -/
def crossings (p : PointerId) (n : K) (log : List (Delivery K)) : List (Transition K) :=
  (transitionsOf p log).filter (·.node = n)

theorem crossings_append (p : PointerId) (n : K) (log more : List (Delivery K)) :
    crossings p n (log ++ more) = crossings p n log ++ crossings p n more := by
  rw [crossings, transitionsOf_append, List.filter_append]
  rfl

variable [Host σ K]

namespace Surface

/-- Whatever happens, the crossings it adds take turns between the paths before and after it. -/
theorem takeTurns_of_after {s t : Surface σ K} {happening : Happening σ K}
    (hs : s.hover.Proper) (h : s.after happening = some t) (p : PointerId) (n : K) :
    ∃ more, crossings p n t.log = crossings p n s.log ++ more ∧
      Transition.TakeTurns (decide (n ∈ s.hover.path p)) more (decide (n ∈ t.hover.path p)) := by
  rcases change_of_after hs.toFiled h with ⟨host, -, rfl⟩ | ⟨ds, hds⟩
  · exact ⟨[], (List.append_nil _).symm, rfl⟩
  · refine ⟨crossings p n ds, ?_, ?_⟩
    · rw [hds.told.log, crossings_append]
    · rw [crossings, hds.transitions]
      exact Transition.takeTurns_between (hs.nodup p) ((hds.proper hs).nodup p) n

theorem takeTurns_of_run (p : PointerId) (n : K) :
    ∀ {s t : Surface σ K} {happenings : List (Happening σ K)}, s.hover.Proper →
      Transition.TakeTurns false (crossings p n s.log) (decide (n ∈ s.hover.path p)) →
      s.run happenings = some t →
      Transition.TakeTurns false (crossings p n t.log) (decide (n ∈ t.hover.path p))
  | _, _, [], _, hturns, h => by cases h; exact hturns
  | _, _, _ :: _, hs, hturns, h => by
    obtain ⟨m, hm, hrest⟩ := run_cons.1 h
    obtain ⟨more, hmore, hnext⟩ := takeTurns_of_after hs hm p n
    refine takeTurns_of_run p n (proper_of_after hs hm) ?_ hrest
    rw [hmore]
    exact hturns.append hnext

end Surface

/-- In a run that begins with an empty tracker the arrivals and departures of a pointer that an
element is told of alternate and begin with an arrival, and the pointer is over the element exactly
when the last of them was an arrival. -/
theorem enter_and_leave_take_turns {host : σ} {happenings : List (Happening σ K)}
    {s : Surface σ K} (h : Surface.run { host } happenings = some s) (p : PointerId) (n : K) :
    (crossings p n s.log).IsChain (· ≠ ·) ∧ (crossings p n s.log).head? ≠ some (.leave n) ∧
      (n ∈ s.hover.path p ↔ (crossings p n s.log).getLast? = some (.enter n)) := by
  have hstart : Transition.TakeTurns false (crossings p n []) (decide (n ∈ Hover.empty.path p)) := by
    rw [Hover.path_empty]
    rfl
  have hturns := Surface.takeTurns_of_run p n Hover.proper_empty hstart h
  refine ⟨hturns.isChain, hturns.head? n, ?_⟩
  -- these are crossings of `n` alone, so the last of them names it
  have hnode : ∀ t, (crossings p n s.log).getLast? = some t → t.node = n := fun t ht => by
    simpa using (List.mem_filter.1 (List.mem_of_getLast? ht)).2
  rcases hturns.getLast? with ⟨hnil, hf⟩ | ⟨m, hm, hf⟩ | ⟨m, hm, hf⟩
  · rw [hnil]
    simpa using hf
  · obtain rfl : m = n := hnode _ hm
    simpa [hm] using hf
  · rw [hm]
    simpa using hf

/-- A mouse comes to be over `2`, which lies in `1`, then over `1` alone, which leaves the tree
once `2` lies in it no more. -/
theorem mouse_crosses_one :
    let mouse : PointerIdentity := ⟨⟨1, Nat.one_pos⟩, .mouse, true⟩
    let device : Device Nat := .ofPointer ⟨1⟩ mouse .standard
    let scene : Scene Nat := { root := ⟨1⟩, links := [(2, 1), (1, 0)], backdrop := some 2 }
    let move : Report := { kind := .move, device := ⟨1⟩, root := ⟨1⟩, time := 0, position := ⟨0, 0⟩ }
    ∃ s, Surface.run { host := scene } [.process device 3 move,
        .become { scene with links := [(1, 0)], backdrop := some 1 }, .process device 3 move,
        .detach 1] = some s ∧
      crossings mouse.id 1 s.log = [.enter 1, .leave 1] ∧
      (crossings mouse.id 1 s.log).IsChain (· ≠ ·) ∧
      (crossings mouse.id 1 s.log).head? ≠ some (.leave 1) ∧
      (1 ∈ s.hover.path mouse.id ↔ (crossings mouse.id 1 s.log).getLast? = some (.enter 1)) := by
  intro mouse device scene move
  obtain ⟨s, hs, hcrossings⟩ := Option.map_eq_some_iff.1 (by decide :
    (Surface.run { host := scene } [.process device 3 move,
      .become { scene with links := [(1, 0)], backdrop := some 1 }, .process device 3 move,
      .detach 1]).map (fun s => crossings mouse.id 1 s.log) = some [.enter 1, .leave 1])
  exact ⟨s, hs, hcrossings, enter_and_leave_take_turns hs mouse.id 1⟩

end PointerRouting
