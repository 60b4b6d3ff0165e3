/-
The ways to end hovering. Putting a pointer over nothing ends its hovering just as if that had been
asked for; ending the hovering of a group of pointers is ending that of each of them under its own
stored details, in ascending order, one after the other, although they are all forgotten before the
first of them is told (`endHoverWhere_eq`). So a group is told the same whatever order a list of its
pointers has before it is sorted, and whatever order they came in (`endings_agree`).

The two ways of a group differ in the tracker as it is while elements are told, and agree since
nobody looks at it then: telling an element depends on the host alone.
-/
import PointerRouting.Proofs.Surface.Run
import PointerRouting.Scene

namespace PointerRouting

variable {σ K : Type}

/-! ## Groups in ascending order -/

/-- Pointers in ascending order of their numbers. -/
def PointerId.ascending (ids : List PointerId) : List PointerId :=
  ids.mergeSort fun a b => a.number ≤ b.number

namespace Hover

variable {h : Hover K} {test : HoverEntry K → Bool} {ids : List PointerId}

/-- The pointers whose entries satisfy a test. -/
def pointers (h : Hover K) (test : HoverEntry K → Bool) : List PointerId :=
  (h.entries.toList.filter (test ·.2)).map (·.1)

theorem mem_pointers (id : PointerId) : id ∈ h.pointers test ↔
    ∃ entry : HoverEntry K, h.entries[id]? = some entry ∧ test entry = true := by
  simp [pointers, Std.ExtTreeMap.mem_toList_iff_getElem?_eq_some]

theorem ascending_pointers (h : Hover K) (test : HoverEntry K → Bool) :
    (h.pointers test).Pairwise fun a b => a.number < b.number := by
  rw [pointers, List.pairwise_map]
  refine (Std.ExtTreeMap.ordered_keys_toList.sublist List.filter_sublist).imp fun hab => ?_
  exact Nat.compare_eq_lt.1 hab

/-- Whatever order the pointers are listed in, sorting brings them into that of their entries. -/
theorem ascending_of_perm (hids : ids.Perm (h.pointers test)) :
    PointerId.ascending ids = h.pointers test := by
  have hsorted : (PointerId.ascending ids).Pairwise fun a b => a.number ≤ b.number := by
    refine (List.pairwise_mergeSort ?_ ?_ ids).imp fun hab => of_decide_eq_true hab
    · intro a b c hab hbc
      exact decide_eq_true (Nat.le_trans (of_decide_eq_true hab) (of_decide_eq_true hbc))
    · intro a b
      simp [Nat.le_total]
  exact List.Perm.eq_of_pairwise
    (fun _ _ _ _ hab hba => PointerId.number_injective (Nat.le_antisymm hab hba)) hsorted
    ((h.ascending_pointers test).imp Nat.le_of_lt) ((List.mergeSort_perm ids _).trans hids)

theorem entries_foldl_forget : ∀ (ids : List PointerId) (h : Hover K) (id : PointerId),
    (ids.foldl forget h).entries[id]? = if id ∈ ids then none else h.entries[id]?
  | [], _, _ => rfl
  | first :: ids, h, id => by
    rw [List.foldl_cons, entries_foldl_forget ids (h.forget first) id, entries_forget]
    by_cases hfirst : first = id <;> by_cases hid : id ∈ ids <;> simp [hfirst, hid, eq_comm]

theorem foldl_forget_pointers (h : Hover K) (test : HoverEntry K → Bool) :
    (h.pointers test).foldl forget h = h.reject test := by
  refine ext_entries fun id => ?_
  rw [entries_foldl_forget, entries_reject]
  simp only [mem_pointers]
  rcases h.entries[id]? with _ | entry
  · simp
  · cases htest : test entry <;> simp [Option.filter, htest]

end Hover

/-! ## One after another -/

variable [Host σ K]

namespace Surface

/-- Ends the hovering of one pointer under the details stored for it. -/
def endOwn (s : Surface σ K) (id : PointerId) : Surface σ K :=
  match s.hover.details id with
  | none => s
  | some details => s.endHover id details

/-- Ends the hovering of some pointers one after another. -/
def endEach (s : Surface σ K) (ids : List PointerId) : Surface σ K := ids.foldl endOwn s

theorem endOwn_of_entry {s : Surface σ K} {id : PointerId} {entry : HoverEntry K}
    (he : s.hover.entries[id]? = some entry) :
    s.endOwn id = { s with hover := s.hover.forget id }.announceLeave entry entry.details := by
  rw [endOwn, Hover.details, he]
  dsimp only [Option.map_some]
  rw [endHover, he]

/-- Pointers may be forgotten all at once before the first of them is told. -/
theorem endEach_eq : ∀ (items : List (PointerId × HoverEntry K)) (s : Surface σ K),
    (items.map (·.1)).Nodup → (∀ x ∈ items, s.hover.entries[x.1]? = some x.2) →
      s.endEach (items.map (·.1)) =
        (items.map (·.2)).foldl (fun s entry => s.announceLeave entry entry.details)
          { s with hover := (items.map (·.1)).foldl Hover.forget s.hover }
  | [], _, _, _ => rfl
  | (id, entry) :: items, s, hd, hs => by
    obtain ⟨hid, hd⟩ := List.nodup_cons.1 hd
    obtain ⟨he, hs⟩ := List.forall_mem_cons.1 hs
    let next : Surface σ K :=
      { s with hover := s.hover.forget id }.announceLeave entry entry.details
    have hnext : ∀ x ∈ items, next.hover.entries[x.1]? = some x.2 := by
      intro x hx
      have hother : id ≠ x.1 := fun he => hid (List.mem_map.2 ⟨x, hx, he.symm⟩)
      rw [← hs x hx]
      exact (Hover.entries_forget ..).trans (if_neg hother)
    show (s.endOwn id).endEach (items.map (·.1)) = _
    rw [endOwn_of_entry he, endEach_eq items next hd hnext]
    -- telling the elements of one entry asks nothing of the tracker
    rfl

theorem endHoverWhere_eq (s : Surface σ K) (test : HoverEntry K → Bool) :
    s.endHoverWhere test = s.endEach (s.hover.pointers test) := by
  have hd : (s.hover.pointers test).Nodup :=
    (s.hover.ascending_pointers test).imp fun hab he => Nat.ne_of_lt hab (congrArg _ he)
  rw [endHoverWhere, ← s.hover.foldl_forget_pointers test, Hover.select, List.filter_map]
  refine (endEach_eq _ s hd fun x hx => ?_).symm
  exact Std.ExtTreeMap.mem_toList_iff_getElem?_eq_some.1 (List.mem_filter.1 hx).1

variable [DecidableEq K]

theorem hoverAt_none {s : Surface σ K} (hf : s.hover.Filed) {pointer : PointerIdentity}
    (hp : ∀ entry : HoverEntry K, s.hover.entries[pointer.id]? = some entry →
      entry.pointer = pointer) (details : Details) (limit : Nat) :
    s.hoverAt limit pointer details none =
      some (s.hover.deepest pointer.id, s.endHover pointer.id details) := by
  rcases he : s.hover.entries[pointer.id]? with _ | entry
  · have hnone : s.hover.deepest pointer.id = none := by
      rw [Hover.deepest, Hover.path_of_no_entry he]
      rfl
    have hsame : s.hover.refresh pointer.id details = s.hover :=
      Hover.refresh_self fun entry he' => by rw [he] at he'; cases he'
    rw [hoverAt, if_pos hnone, hsame, endHover, he]
  · have hne : s.hover.deepest pointer.id ≠ none := by
      rw [Hover.deepest, Hover.path_of_entry he]
      simpa using hf.nonempty _ entry he
    rw [hoverAt, if_neg hne, endHover, he]
    dsimp only
    rw [announceLeave, hp entry he, ← Transition.between_nil, ← Hover.path_of_entry he]
    rfl

theorem detach_eq (s : Surface σ K) (element : K) :
    s.detach element = ((s.hover.pointers (element ∈ ·.path)).length,
      s.endEach (s.hover.pointers (element ∈ ·.path))) := by
  rw [← endHoverWhere_eq, detach, Hover.select, List.filter_map, List.length_map, Hover.pointers,
    List.length_map]
  rfl

/-- Who is over an element that has left the tree is over nothing; the others keep their entries. -/
theorem entries_detach (s : Surface σ K) (element : K) (id : PointerId) :
    (s.detach element).2.hover.entries[id]? =
      if element ∈ s.hover.path id then none else s.hover.entries[id]? := by
  show (s.endHoverWhere fun entry => decide (element ∈ entry.path)).hover.entries[id]? = _
  rw [hover_endHoverWhere, Hover.entries_reject, Hover.path]
  rcases s.hover.entries[id]? with _ | entry
  · rfl
  · by_cases hover : element ∈ entry.path <;> simp [Option.filter, hover]

end Surface

/-- On every surface that can come about, whatever its elements answer or do when they are told:
putting a pointer over nothing comes to the same as ending its hovering, if it is put there under
the identity stored for it, or under any if none is. Ending the hovering of all leaves an empty
tracker and comes to the same as ending that of every pointer with an entry, each under its stored
details, in ascending order, whatever order they are listed in before. The removal of an element
comes to the same for the pointers over it, answers how many there are, has none of them over the
element any longer, and leaves the other entries as they are. Where another tracker has the same
entries, all this is told alike. -/
theorem endings_agree [DecidableEq K] {s : Surface σ K} (hs : s.Reached) :
    (∀ (pointer : PointerIdentity) (details : Details) (limit : Nat),
      (∀ entry : HoverEntry K, s.hover.entries[pointer.id]? = some entry →
        entry.pointer = pointer) →
      s.hoverAt limit pointer details none =
        some (s.hover.deepest pointer.id, s.endHover pointer.id details)) ∧
    (∀ ids : List PointerId, ids.Perm (s.hover.pointers fun _ => true) →
      s.endAllHover = s.endEach (PointerId.ascending ids)) ∧
    s.endAllHover.hover = Hover.empty ∧
    (∀ (element : K) (ids : List PointerId), ids.Perm (s.hover.pointers (element ∈ ·.path)) →
      s.detach element = (ids.length, s.endEach (PointerId.ascending ids))) ∧
    (∀ (element : K) (id : PointerId), element ∉ (s.detach element).2.hover.path id ∧
      (element ∉ s.hover.path id →
        (s.detach element).2.hover.entries[id]? = s.hover.entries[id]?)) ∧
    ∀ t : Surface σ K, t.toStage = s.toStage →
      (∀ id : PointerId, t.hover.entries[id]? = s.hover.entries[id]?) →
      t.endAllHover = s.endAllHover ∧ ∀ element, t.detach element = s.detach element := by
  refine ⟨fun pointer details limit hp => Surface.hoverAt_none hs.filed hp details limit,
    fun ids hids => ?_, ?_, fun element ids hids => ?_, fun element id => ⟨?_, fun hn => ?_⟩,
    fun t hstage hentries => ?_⟩
  · rw [Hover.ascending_of_perm hids, Surface.endAllHover, Surface.endHoverWhere_eq]
  · refine Hover.ext_entries fun id => ?_
    rw [Surface.endAllHover, Surface.hover_endHoverWhere, Hover.entries_reject]
    cases s.hover.entries[id]? <;> simp [Hover.empty, Option.filter]
  · rw [Hover.ascending_of_perm hids, hids.length_eq, Surface.detach_eq]
  · rw [Hover.path, Surface.entries_detach]
    by_cases hover : element ∈ s.hover.path id
    · simp [hover]
    · rw [if_neg hover]
      exact hover
  · rw [Surface.entries_detach, if_neg hn]
  · have ht : t = s := by
      cases t
      cases s
      cases hstage
      cases Hover.ext_entries hentries
      rfl
    rw [ht]
    exact ⟨rfl, fun _ => rfl⟩

/-- A pen comes after a mouse, but has the lower number and leaves first. As `1` is told of that, it
takes `2`, which the mouse is over, out of the tree; the mouse leaves `2`, `1` and `0` all the
same. -/
theorem pen_leaves_before_mouse :
    let pen : PointerIdentity := ⟨⟨1, Nat.one_pos⟩, .pen, true⟩
    let mouse : PointerIdentity := ⟨⟨2, Nat.two_pos⟩, .mouse, true⟩
    let scene : Scene Nat :=
      { root := ⟨1⟩
        links := [(2, 1), (1, 0)]
        reactions := [⟨1, .leave, [.link 2 none]⟩] }
    let details := Details.bare ⟨0, 0⟩ 0
    let told (s t : Surface (Scene Nat) Nat) : List (Nat × Nat) :=
      (t.log.drop s.log.length).map fun d => (d.event.pointer.id.number, d.node)
    ∃ s : Surface (Scene Nat) Nat, s.Reached ∧ s.host = scene ∧
      [mouse.id, pen.id].Perm (s.hover.pointers fun _ => true) ∧
      [mouse.id, pen.id].Perm (s.hover.pointers (1 ∈ ·.path)) ∧
      told s s.endAllHover = [(1, 1), (1, 0), (2, 2), (2, 1), (2, 0)] ∧
      s.endAllHover = s.endEach (PointerId.ascending [mouse.id, pen.id]) ∧
      s.detach 1 = (2, s.endEach (PointerId.ascending [mouse.id, pen.id])) ∧
      s.hoverAt 1 mouse details none = some (some 2, s.endHover mouse.id details) := by
  intro pen mouse scene details told
  let happenings : List (Happening (Scene Nat) Nat) :=
    [.hoverAt 3 mouse details (some 2), .hoverAt 3 pen details (some 1)]
  obtain ⟨s, hrun⟩ := Option.isSome_iff_exists.1
    (by decide : (Surface.run { host := scene } happenings).isSome = true)
  have hcheck : ∀ {α : Type} (f : Surface (Scene Nat) Nat → α) (a : α),
      (Surface.run { host := scene } happenings).map f = some a → f s = a := by
    intro α f a h
    rw [hrun] at h
    exact Option.some.inj h
  have hreached : s.Reached := (Surface.Reached.start scene).run hrun
  have hhost : s.host = scene := hcheck (·.host) _ (by decide +kernel)
  have hall : (s.hover.pointers fun _ => true) = [pen.id, mouse.id] :=
    hcheck (·.hover.pointers fun _ => true) _ (by decide +kernel)
  have hover : s.hover.pointers (1 ∈ ·.path) = [pen.id, mouse.id] :=
    hcheck (·.hover.pointers (1 ∈ ·.path)) _ (by decide +kernel)
  have htold : told s s.endAllHover = [(1, 1), (1, 0), (2, 2), (2, 1), (2, 0)] :=
    hcheck (fun s => told s s.endAllHover) _ (by decide +kernel)
  have hmouse : s.hover.entries[mouse.id]? = some ⟨mouse, details, [0, 1, 2]⟩ :=
    hcheck (·.hover.entries[mouse.id]?) _ (by decide +kernel)
  have hswap : [mouse.id, pen.id].Perm [pen.id, mouse.id] := .swap ..
  obtain ⟨hone, hgroup, -, hremoved, -, -⟩ := endings_agree hreached
  have hnone := hone mouse details 1 fun entry he => by
    rw [hmouse] at he
    cases he
    rfl
  rw [Hover.deepest, Hover.path_of_entry hmouse] at hnone
  exact ⟨s, hreached, hhost, hall ▸ hswap, hover ▸ hswap, htold, hgroup _ (hall ▸ hswap),
    hremoved 1 [mouse.id, pen.id] (hover ▸ hswap), hnone⟩

end PointerRouting
