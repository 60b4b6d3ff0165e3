/-
What putting a pointer over an element tells, and whom. Two lineages of one tree have nothing in
common but their beginning, so the paths without it are the ancestors of the one end that are not
ancestors of the other (`PathTo.ascends_left`). Hence a pointer that goes from one element to
another is told to leave exactly the elements it is no longer over, upward from the one it was at,
and to enter exactly those it was not over, upward from the one it is at; and the path stored for
it is the one the tree had before anybody was told.
-/
import PointerRouting.Proofs.Surface.Change
import PointerRouting.Scene

namespace PointerRouting

variable {σ K : Type}

/-! ## The rest of two paths -/

namespace Tree

variable [DecidableEq K] {parentOf : K → Option K} {x y : Option K} {p q : List K}

theorem PathTo.not_mem_of_left (hp : PathTo parentOf x p) (hq : PathTo parentOf y q) {n : K}
    (hn : n ∈ (Transition.dropShared p q).1) : n ∉ q := by
  intro hnq
  obtain ⟨shared, hsplit, -⟩ := Transition.dropShared_split p q
  have hnp : n ∈ p := by
    rw [hsplit]
    exact List.mem_append_right shared hn
  -- both paths are the same down to `n`, so what they do not share comes after it
  obtain ⟨up, below, below', hup, rfl, rfl⟩ := hp.shared hq hnp hnq
  rw [Transition.dropShared_append] at hn
  obtain ⟨more, hbelow, -⟩ := Transition.dropShared_split below below'
  have hnb : n ∈ below := by
    rw [hbelow]
    exact List.mem_append_right more hn
  have hnodup := List.nodup_reverse.1 hp.ascends.nodup
  exact (List.nodup_append.1 hnodup).2.2 n hup n hnb rfl

theorem PathTo.mem_left_iff (hp : PathTo parentOf x p) (hq : PathTo parentOf y q) (n : K) :
    n ∈ (Transition.dropShared p q).1 ↔ n ∈ p ∧ n ∉ q := by
  obtain ⟨shared, hsplit, hsplit'⟩ := Transition.dropShared_split p q
  constructor
  · intro hn
    refine ⟨?_, hp.not_mem_of_left hq hn⟩
    rw [hsplit]
    exact List.mem_append_right shared hn
  · rintro ⟨hnp, hnq⟩
    rw [hsplit] at hnp
    rcases List.mem_append.1 hnp with hshared | hleft
    · rw [hsplit'] at hnq
      exact absurd (List.mem_append_left _ hshared) hnq
    · exact hleft

/-- What is left of a path are the ancestors of its end that are not ancestors of the other end. -/
theorem PathTo.ascends_left (hp : PathTo parentOf x p) (hq : PathTo parentOf y q) :
    Ascends parentOf (fun n => Above parentOf x n ∧ ¬ Above parentOf y n)
      (Transition.dropShared p q).1.reverse := by
  obtain ⟨shared, hsplit, -⟩ := Transition.dropShared_split p q
  have hsub : (Transition.dropShared p q).1.reverse.Sublist p.reverse := by
    rw [List.reverse_sublist]
    conv_rhs => rw [hsplit]
    exact List.sublist_append_right shared _
  refine ⟨fun n => ?_, hp.ascends.nodup.sublist hsub, hp.ascends.upward.sublist hsub⟩
  rw [List.mem_reverse, hp.mem_left_iff hq, hp.mem_iff, hq.mem_iff]

theorem PathTo.ascends_entered (hp : PathTo parentOf x p) (hq : PathTo parentOf y q) :
    Ascends parentOf (fun n => Above parentOf y n ∧ ¬ Above parentOf x n)
      (Transition.dropShared p q).2.reverse := by
  have h := hq.ascends_left hp
  rw [Transition.dropShared_swap] at h
  exact h

end Tree

/-! ## What a tracker records -/

/-- The tracker records that a pointer is at an element, with the path that leads to it, or has no
entry for the pointer if it is at none. -/
def Hover.Records (h : Hover K) (parentOf : K → Option K) (id : PointerId) : Option K → Prop
  | none => h.entries[id]? = none
  | some node => ∃ entry : HoverEntry K, h.entries[id]? = some entry ∧
    Tree.PathTo parentOf (some node) entry.path

theorem Hover.Records.pathTo {h : Hover K} {parentOf : K → Option K} {id : PointerId}
    {node : Option K} (hr : h.Records parentOf id node) :
    Tree.PathTo parentOf node (h.path id) := by
  rcases node with _ | node
  · exact path_of_no_entry hr
  · obtain ⟨entry, he, hpath⟩ := hr
    rw [path_of_entry he]
    exact hpath

theorem Hover.Records.deepest {h : Hover K} {parentOf : K → Option K} {id : PointerId}
    {node : Option K} (hr : h.Records parentOf id node) : h.deepest id = node :=
  hr.pathTo.getLast?

theorem Hover.Records.refresh {h : Hover K} {parentOf : K → Option K} {id : PointerId}
    {node : Option K} (hr : h.Records parentOf id node) (details : Details) :
    (h.refresh id details).Records parentOf id node := by
  rcases node with _ | node
  · show (h.refresh id details).entries[id]? = none
    rw [entries_refresh, if_pos rfl, show h.entries[id]? = none from hr]
    rfl
  · obtain ⟨entry, he, hpath⟩ := hr
    refine ⟨{ entry with details }, ?_, hpath⟩
    rw [entries_refresh, if_pos rfl, he]
    rfl

theorem Hover.records_setPath [DecidableEq K] (h : Hover K) (pointer : PointerIdentity)
    (details : Details) {parentOf : K → Option K} {node : Option K} {path : List K}
    (hpath : Tree.PathTo parentOf node path) :
    (h.setPath pointer details path).1.Records parentOf pointer.id node := by
  rcases node with _ | node
  · show (h.setPath pointer details path).1.entries[pointer.id]? = none
    rw [entries_setPath, if_pos rfl, if_pos (show path = [] from hpath)]
  · have hne : path ≠ [] := by
      rintro rfl
      cases hpath.getLast?
    refine ⟨⟨pointer, details, path⟩, ?_, hpath⟩
    rw [entries_setPath, if_pos rfl, if_neg hne]

/-! ## Going from one element to another -/

variable [Host σ K]

namespace Surface

theorem exists_pathTo {s : Surface σ K} (hf : Tree.Acyclic (Host.parentOf s.host))
    (target : Option K) : ∃ path bound, (∀ limit, bound ≤ limit →
      s.pathTo limit target = some path) ∧ Tree.PathTo (Host.parentOf s.host) target path := by
  rcases target with _ | node
  · exact ⟨[], 0, fun _ _ => rfl, rfl⟩
  · obtain ⟨bound, path, hpath⟩ := hf.lineage node
    exact ⟨path, bound, fun limit hle => Tree.lineage_mono hle hpath, bound, hpath⟩

end Surface

variable [DecidableEq K]

/-- Whatever the tracker records, the pointer is at its target in the end. -/
theorem Surface.exists_hoverAt {s : Surface σ K} (hf : Tree.Acyclic (Host.parentOf s.host))
    (pointer : PointerIdentity) (details : Details) (target : Option K) :
    ∃ t bound, (∀ limit, bound ≤ limit →
        s.hoverAt limit pointer details target = some (s.hover.deepest pointer.id, t)) ∧
      t.hover.deepest pointer.id = target := by
  by_cases hsame : s.hover.deepest pointer.id = target
  · refine ⟨{ s with hover := s.hover.refresh pointer.id details }, 0, fun limit _ => ?_, ?_⟩
    · rw [hoverAt, if_pos hsame]
    · rw [Hover.deepest, Hover.path_refresh]
      exact hsame
  · obtain ⟨path, bound, hpath, hto⟩ := s.exists_pathTo hf target
    let stored : Surface σ K := { s with hover := (s.hover.setPath pointer details path).1 }
    let transitions := Transition.between (s.hover.path pointer.id) path
    refine ⟨stored.announce pointer details transitions, bound, fun limit hle => ?_, ?_⟩
    · rw [hoverAt, if_neg hsame, hpath limit hle]
      rfl
    · show stored.hover.deepest pointer.id = target
      rw [Hover.deepest, Hover.path_setPath, if_pos rfl]
      exact hto.getLast?

/-- Where every walk up the tree ends, a pointer that is recorded at `old` is put over `target`,
with `old` in return. If they are the same, nobody is told and only the details of the entry
change. If not, each element above `old` but not above `target` is told to be left, upward from
`old`, and then each above `target` but not above `old` to be entered, upward from `target`,
whatever they answer. The pointer is then recorded at `target` as the tree was before anybody was
told, and the entries of the other pointers are as they were. -/
theorem hoverAt_tells_difference {s : Surface σ K} (hf : Tree.Acyclic (Host.parentOf s.host))
    {pointer : PointerIdentity} {old : Option K}
    (hold : s.hover.Records (Host.parentOf s.host) pointer.id old) (details : Details)
    (target : Option K) :
    let tree := Host.parentOf s.host
    ∃ t bound, (∀ limit, bound ≤ limit →
        s.hoverAt limit pointer details target = some (old, t)) ∧
      (old = target → t.toStage = s.toStage ∧ t.hover.entries[pointer.id]? =
        s.hover.entries[pointer.id]?.map fun entry => { entry with details }) ∧
      (old ≠ target → ∃ left entered ds, s.Told ds t.toStage ∧
        s.Announces pointer details (left.map .leave ++ entered.map .enter) ds ∧
        Tree.Ascends tree (fun n => Tree.Above tree old n ∧ ¬ Tree.Above tree target n) left ∧
        Tree.Ascends tree (fun n => Tree.Above tree target n ∧ ¬ Tree.Above tree old n) entered) ∧
      t.hover.Records tree pointer.id target ∧
      ∀ q, q ≠ pointer.id → t.hover.entries[q]? = s.hover.entries[q]? := by
  intro tree
  by_cases hsame : old = target
  · subst hsame
    refine ⟨{ s with hover := s.hover.refresh pointer.id details }, 0, fun limit _ => ?_,
      fun _ => ⟨rfl, ?_⟩, fun hne => absurd rfl hne, hold.refresh details, fun q hq => ?_⟩
    · rw [Surface.hoverAt, hold.deepest, if_pos rfl]
    · exact (Hover.entries_refresh ..).trans (if_pos rfl)
    · exact (Hover.entries_refresh ..).trans (if_neg (Ne.symm hq))
  · obtain ⟨path, bound, hpath, hto⟩ := s.exists_pathTo hf target
    let stored : Surface σ K := { s with hover := (s.hover.setPath pointer details path).1 }
    let transitions := Transition.between (s.hover.path pointer.id) path
    obtain ⟨ds, hds, hann⟩ := stored.announces_announce pointer details transitions
    refine ⟨stored.announce pointer details transitions, bound, fun limit hle => ?_,
      fun he => absurd he hsame, fun _ => ?_, s.hover.records_setPath pointer details hto,
      fun q hq => ?_⟩
    · rw [Surface.hoverAt, hold.deepest, if_neg hsame, hpath limit hle]
      rfl
    · exact ⟨_, _, ds, hds, hann, hold.pathTo.ascends_left hto, hold.pathTo.ascends_entered hto⟩
    · exact (Hover.entries_setPath ..).trans (if_neg (Ne.symm hq))

/-- A mouse goes from `3`, which lies in `2`, to `5`, which lies in `4`, both under `0`. As `3` is
told, it has `5` taken out of `4`. -/
theorem mouse_goes_from_three_to_five :
    let mouse : PointerIdentity := ⟨⟨1, Nat.one_pos⟩, .mouse, true⟩
    let scene : Scene Nat :=
      { root := ⟨1⟩
        links := [(3, 2), (2, 0), (5, 4), (4, 0)]
        handles := [(3, .leave), (5, .enter)]
        reactions := [⟨3, .leave, [.link 5 none]⟩] }
    let hover := (Hover.empty.setPath mouse (.bare ⟨0, 0⟩ 0) [0, 2, 3]).1
    let s : Surface (Scene Nat) Nat := { host := scene, hover }
    let tree := Host.parentOf s.host
    let details := Details.bare ⟨1, 1⟩ 1
    Tree.Acyclic tree ∧ s.hover.Records tree mouse.id (some 3) ∧
      ((s.hoverAt 3 mouse details (some 5)).map fun (before, t) =>
        (before, t.log.map fun d => (d.node, d.event.payload), t.host.parentOf 5)) =
          some (some 3, [(3, .leave), (2, .leave), (5, .enter), (4, .enter)], none) ∧
      ∃ t bound, (∀ limit, bound ≤ limit →
          s.hoverAt limit mouse details (some 5) = some (some 3, t)) ∧
        (∃ left entered ds, s.Told ds t.toStage ∧
          s.Announces mouse details (left.map .leave ++ entered.map .enter) ds ∧
          Tree.Ascends tree (fun n => Tree.Above tree (some 3) n ∧ ¬ Tree.Above tree (some 5) n)
            left ∧
          Tree.Ascends tree (fun n => Tree.Above tree (some 5) n ∧ ¬ Tree.Above tree (some 3) n)
            entered) ∧
        t.hover.Records tree mouse.id (some 5) := by
  intro mouse scene hover s tree details
  have hrank : ∀ n p, tree n = some p → p < n := by
    intro n p hp
    simp only [tree, Host.parentOf, s, scene, Scene.parentOf, List.lookup_cons,
      List.lookup_nil] at hp
    grind
  have hf : Tree.Acyclic tree := Tree.acyclic_of_rank id hrank
  have hpath : Tree.PathTo tree (some 3) [0, 2, 3] := ⟨3, by decide⟩
  have hold : s.hover.Records tree mouse.id (some 3) :=
    Hover.empty.records_setPath mouse (.bare ⟨0, 0⟩ 0) hpath
  obtain ⟨t, bound, hreturn, -, htold, hrecords, -⟩ :=
    hoverAt_tells_difference hf hold details (some 5)
  exact ⟨hf, hold, by decide, t, bound, hreturn, htold (by decide), hrecords⟩

end PointerRouting
