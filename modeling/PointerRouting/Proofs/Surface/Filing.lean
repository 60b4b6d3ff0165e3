/-
How the tracker files what it stores. Of every pointer that has an entry, and of no other, it knows
the details and where it is; a tracker that is empty is one that has no pointer anywhere, and no
element under one (`Hover.Filed.isEmpty_iff_deepest`, `Hover.Filed.isEmpty_iff_isOver`). Whenever
entries go, each departure that is told names the number that its entry was filed under
(`Surface.Evicts`).

None of this holds of any tracker whatever. It rests on the entries being filed under the numbers of
their pointers and having paths that are not empty, which every operation keeps up
(`tracker_is_filed`): also the storing of a path, whatever list that is.
-/
import PointerRouting.Proofs.Surface.Difference
import PointerRouting.Proofs.Surface.Ending

namespace PointerRouting

variable {σ K : Type}

/-! ## What an entry amounts to -/

namespace Hover

variable {h : Hover K}

theorem Filed.path_ne_nil_iff (hf : h.Filed) (id : PointerId) :
    h.path id ≠ [] ↔ ∃ entry : HoverEntry K, h.entries[id]? = some entry := by
  rcases he : h.entries[id]? with _ | entry
  · simp [path_of_no_entry he]
  · simp [path_of_entry he, hf.nonempty id entry he]

theorem isSome_deepest_iff (h : Hover K) (id : PointerId) :
    (h.deepest id).isSome = true ↔ h.path id ≠ [] := by
  rw [deepest, List.getLast?_isSome]

/-- In a filed tracker a pointer has details just if it is over something. -/
theorem Filed.isSome_details_iff (hf : h.Filed) (id : PointerId) :
    (h.details id).isSome = true ↔ (h.deepest id).isSome = true := by
  rw [details, Option.isSome_map, Option.isSome_iff_exists, isSome_deepest_iff,
    hf.path_ne_nil_iff]

theorem isEmpty_iff (h : Hover K) :
    h.isEmpty = true ↔ ∀ id : PointerId, h.entries[id]? = none := by
  rw [isEmpty, Std.ExtTreeMap.isEmpty_iff]
  constructor
  · intro he id
    rw [he]
    exact Std.ExtTreeMap.getElem?_empty
  · intro hn
    exact Std.ExtTreeMap.ext_getElem? fun id => (hn id).trans Std.ExtTreeMap.getElem?_empty.symm

theorem Filed.isEmpty_iff_deepest (hf : h.Filed) :
    h.isEmpty = true ↔ ∀ id, h.deepest id = none := by
  rw [isEmpty_iff]
  refine forall_congr' fun id => ?_
  rw [← Option.not_isSome_iff_eq_none, ← Option.not_isSome_iff_eq_none, isSome_deepest_iff,
    hf.path_ne_nil_iff, Option.isSome_iff_exists]

/-- A filed tracker is empty just if no element is hovered. -/
theorem Filed.isEmpty_iff_isOver [DecidableEq K] (hf : h.Filed) :
    h.isEmpty = true ↔ ∀ n, h.isOver n = false := by
  rw [isEmpty_iff]
  constructor
  · intro hn n
    rw [Bool.eq_false_iff, Ne, isOver_iff]
    rintro ⟨id, entry, he, -⟩
    rw [hn id] at he
    cases he
  · intro hn id
    rcases he : h.entries[id]? with _ | entry
    · rfl
    · -- an entry has a path, and the pointer is over the first element of that
      obtain ⟨n, hmem⟩ := List.exists_mem_of_ne_nil entry.path (hf.nonempty id entry he)
      have hover := (h.isOver_iff n).2 ⟨id, entry, he, hmem⟩
      rw [hn n] at hover
      cases hover

/-- The entries that satisfy a test, with the numbers they are filed under, in ascending order. -/
def group (h : Hover K) (test : HoverEntry K → Bool) : List (PointerId × HoverEntry K) :=
  h.entries.toList.filter (test ·.2)

theorem mem_group {test : HoverEntry K → Bool} {x : PointerId × HoverEntry K} :
    x ∈ h.group test ↔ h.entries[x.1]? = some x.2 ∧ test x.2 = true := by
  rw [group, List.mem_filter, Std.ExtTreeMap.mem_toList_iff_getElem?_eq_some]

theorem map_group (h : Hover K) (test : HoverEntry K → Bool) :
    (h.group test).map Prod.snd = h.select test := by
  rw [select, List.filter_map]
  rfl

end Hover

/-! ## Entries that go -/

variable [Host σ K]

namespace Surface

/-- The entries `gone` are removed and no other, and of each in turn the elements of its path are
told, deepest first, that the pointer it was filed under has left. -/
structure Evicts (s : Surface σ K) (gone : List (PointerId × HoverEntry K)) (t : Surface σ K) :
    Prop where
  filed : ∀ x ∈ gone, s.hover.entries[x.1]? = some x.2
  entries : ∀ id : PointerId, t.hover.entries[id]? =
    if id ∈ gone.map Prod.fst then none else s.hover.entries[id]?
  told : ∃ ds, s.Told ds t.toStage ∧
    ds.map (fun d => (d.event.pointer.id, d.node, d.event.payload)) =
      gone.flatMap fun x => x.2.path.reverse.map fun n => (x.1, n, .leave)

theorem told_announceLeave (s : Surface σ K) (entry : HoverEntry K) (details : Details) :
    ∃ ds, s.Told ds (s.announceLeave entry details).toStage ∧
      ds.map (fun d => (d.event.pointer.id, d.node, d.event.payload)) =
        entry.path.reverse.map fun n => (entry.pointer.id, n, .leave) := by
  obtain ⟨ds, hds, hann⟩ :=
    s.announces_announce entry.pointer details (Transition.leaveAll entry.path)
  have hmap := congrArg (List.map fun x => (x.2.pointer.id, x.1, x.2.payload)) hann
  rw [Transition.leaveAll, List.map_map, List.map_map, List.map_map] at hmap
  exact ⟨ds, hds, hmap⟩

theorem told_group : ∀ (group : List (PointerId × HoverEntry K)) (s : Surface σ K),
    (∀ x ∈ group, x.2.pointer.id = x.1) →
      ∃ ds, s.Told ds ((group.map Prod.snd).foldl
          (fun s entry => s.announceLeave entry entry.details) s).toStage ∧
        ds.map (fun d => (d.event.pointer.id, d.node, d.event.payload)) =
          group.flatMap fun x => x.2.path.reverse.map fun n => (x.1, n, .leave)
  | [], _, _ => ⟨[], rfl, rfl⟩
  | (id, entry) :: group, s, hids => by
    obtain ⟨hid, hids⟩ := List.forall_mem_cons.1 hids
    obtain ⟨ds, hds, hmap⟩ := s.told_announceLeave entry entry.details
    obtain ⟨es, hes, hmore⟩ := told_group group (s.announceLeave entry entry.details) hids
    refine ⟨ds ++ es, hds.append hes, ?_⟩
    rw [List.map_append, hmap, hmore, List.flatMap_cons, hid]

theorem evicts_endHover {s : Surface σ K} (hf : s.hover.Filed) (id : PointerId)
    (details : Details) :
    s.Evicts (s.hover.entries[id]?.map (id, ·)).toList (s.endHover id details) := by
  unfold endHover
  rcases he : s.hover.entries[id]? with _ | entry
  · exact ⟨by simp, by simp, [], rfl, rfl⟩
  · obtain ⟨ds, hds, hmap⟩ :=
      told_announceLeave { s with hover := s.hover.forget id } entry details
    refine ⟨by simpa using he, fun other => ?_, ds, hds, ?_⟩
    · exact (Hover.entries_forget ..).trans (by simp [eq_comm])
    · rw [hmap, hf.id id entry he]
      simp

/-- To end the hovering of a group tells each of its paths from the deepest element up, in the order
of the pointers. -/
theorem evicts_endHoverWhere {s : Surface σ K} (hf : s.hover.Filed) (test : HoverEntry K → Bool) :
    s.Evicts (s.hover.group test) (s.endHoverWhere test) := by
  have hids : ∀ x ∈ s.hover.group test, x.2.pointer.id = x.1 := fun x hx =>
    hf.id x.1 x.2 (Hover.mem_group.1 hx).1
  obtain ⟨ds, hds, hmap⟩ :=
    told_group (s.hover.group test) { s with hover := s.hover.reject test } hids
  rw [Hover.map_group] at hds
  refine ⟨fun x hx => (Hover.mem_group.1 hx).1, fun id => ?_, ds, hds, hmap⟩
  rw [hover_endHoverWhere, Hover.entries_reject]
  have hmem : id ∈ (s.hover.group test).map Prod.fst ↔
      ∃ entry : HoverEntry K, s.hover.entries[id]? = some entry ∧ test entry = true := by
    simp [Hover.mem_group]
  simp only [hmem]
  rcases s.hover.entries[id]? with _ | entry
  · simp
  · cases htest : test entry <;> simp [Option.filter, htest]

end Surface

/-! ## Every tracker that can come about -/

/-- On every surface that can come about, whatever paths have been stored and whatever hosts there
have been: each entry is filed under the number of its pointer and has a path that is not empty. So
the details stored for a pointer are there just if it is over something, and just if its path is not
empty; and the tracker is empty just if no pointer is over anything, and just if none is over any
element. Ending the hovering of a pointer, of all of them, or of those over an element that is
removed takes away the entries concerned, and what is told of it names the pointers they were filed
under. Where every walk up the tree ends, a pointer can be put over anything, and all this holds
again. -/
theorem tracker_is_filed [DecidableEq K] {s : Surface σ K} (hs : s.Reached) :
    (∀ (id : PointerId) (entry : HoverEntry K), s.hover.entries[id]? = some entry →
      entry.path ≠ [] ∧ entry.pointer.id = id) ∧
    (∀ id, ((s.hover.details id).isSome = true ↔ (s.hover.deepest id).isSome = true) ∧
      ((s.hover.deepest id).isSome = true ↔ s.hover.path id ≠ [])) ∧
    (s.hover.isEmpty = true ↔ ∀ id, s.hover.deepest id = none) ∧
    (s.hover.isEmpty = true ↔ ∀ n, s.hover.isOver n = false) ∧
    (∀ id details,
      s.Evicts (s.hover.entries[id]?.map (id, ·)).toList (s.endHover id details)) ∧
    s.Evicts s.hover.entries.toList s.endAllHover ∧
    (∀ element, ∃ gone, s.detach element = (gone.length, (s.detach element).2) ∧
      s.Evicts gone (s.detach element).2 ∧
      ∀ x, x ∈ gone ↔ s.hover.entries[x.1]? = some x.2 ∧ element ∈ x.2.path) ∧
    (Tree.Acyclic (Host.parentOf s.host) → ∀ pointer details target, ∃ t bound,
      (∀ limit, bound ≤ limit →
        s.hoverAt limit pointer details target = some (s.hover.deepest pointer.id, t)) ∧
      t.Reached) := by
  have hf := hs.filed
  refine ⟨fun id entry he => ⟨hf.nonempty id entry he, hf.id id entry he⟩,
    fun id => ⟨hf.isSome_details_iff id, s.hover.isSome_deepest_iff id⟩, hf.isEmpty_iff_deepest,
    hf.isEmpty_iff_isOver, Surface.evicts_endHover hf, ?_, fun element => ?_,
    fun hacyclic pointer details target => ?_⟩
  · have hall : (s.hover.group fun _ => true) = s.hover.entries.toList := List.filter_true _
    rw [← hall]
    exact Surface.evicts_endHoverWhere hf fun _ => true
  · refine ⟨s.hover.group (element ∈ ·.path), ?_, Surface.evicts_endHoverWhere hf _, fun x => ?_⟩
    · rw [Surface.detach, ← Hover.map_group, List.length_map]
    · rw [Hover.mem_group, decide_eq_true_iff]
  · obtain ⟨t, bound, hreturn, -⟩ := Surface.exists_hoverAt hacyclic pointer details target
    have hafter : s.after (.hoverAt bound pointer details target) = some t := by
      rw [Surface.after, hreturn bound (Nat.le_refl bound)]
      rfl
    exact ⟨t, bound, hreturn, hs.happened hafter⟩

/-- A path that has `4` twice is stored for a mouse, one that ends in it for a pen, and an empty one
for the mouse of another. The mouse leaves `4` as often as its path has it. -/
theorem mouse_leaves_four_twice :
    let pen : PointerIdentity := ⟨⟨1, Nat.one_pos⟩, .pen, true⟩
    let mouse : PointerIdentity := ⟨⟨2, Nat.two_pos⟩, .mouse, true⟩
    let other : PointerIdentity := ⟨⟨3, by decide⟩, .mouse, false⟩
    let details := Details.bare ⟨0, 0⟩ 0
    let scene : Scene Nat := { root := ⟨1⟩, links := [(4, 2)] }
    let hover : Hover Nat := (((Hover.empty.setPath mouse details [4, 4]).1.setPath
      pen details [2, 4]).1.setPath other details []).1
    let s : Surface (Scene Nat) Nat := { host := scene, hover }
    let told (t : Surface (Scene Nat) Nat) : List (Nat × Nat) :=
      t.log.map fun d => (d.event.pointer.id.number, d.node)
    s.Reached ∧ s.hover.isEmpty = false ∧ s.hover.isOver 4 = true ∧
      s.hover.details other.id = none ∧ told s.endAllHover = [(1, 4), (1, 2), (2, 4), (2, 4)] ∧
      (s.detach 2).1 = 1 ∧ told (s.detach 2).2 = [(1, 4), (1, 2)] ∧
      s.Evicts s.hover.entries.toList s.endAllHover ∧
      (s.hover.isEmpty = true ↔ ∀ n, s.hover.isOver n = false) := by
  intro pen mouse other details scene hover s told
  have hs : s.Reached :=
    .stored other details [] (.stored pen details [2, 4] (.stored mouse details [4, 4] (.start scene)))
  obtain ⟨-, -, -, hover', -, hall, -, -⟩ := tracker_is_filed hs
  exact ⟨hs, by decide +kernel, by decide +kernel, by decide +kernel, by decide +kernel,
    by decide +kernel, by decide +kernel, hall, hover'⟩

end PointerRouting
