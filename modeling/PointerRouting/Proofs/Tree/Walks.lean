/-
The three ways up a tree. The lineage of an element is the one list that leads from an element
without a parent down to it, link by link (`lineage_eq_some_iff`); it has as many elements as the
walk needs steps. Whether the element lies within another is a question of what the lineage lists,
and an event that everybody passes on, without a link being changed, is told to the lineage upward.

An element that has lost its parent still has below it all that it had: whoever asks on the way up
meets it before its missing link (`within_unlink_iff`). So it makes no difference whether a pointer
that is captured within an element is told of its removal before the link is cut or after. Either
way it answers as the tracker does, which has no tree to ask and looks the element up in a path that
it has stored (`walks_agree`).
-/
import PointerRouting.Proofs.Capture.Removal
import PointerRouting.Proofs.Stage.Climb
import PointerRouting.Proofs.Surface.Ending

namespace PointerRouting

variable {σ K : Type}

/-! ## Lists that lead down a tree -/

namespace Tree

variable {parentOf : K → Option K} {limit : Nat} {node e : K} {path : List K}

/-- The list begins with an element that has no parent, goes on from parent to child, and ends with
`node`. -/
structure Descends (parentOf : K → Option K) (path : List K) (node : K) : Prop where
  root : ∃ top, path.head? = some top ∧ parentOf top = none
  chain : path.IsChain fun upper lower => parentOf lower = some upper
  last : path.getLast? = some node

theorem descends_of_root (hp : parentOf node = none) : Descends parentOf [node] node :=
  ⟨⟨node, rfl, hp⟩, .singleton node, rfl⟩

theorem Descends.concat {parent : K} (hp : parentOf node = some parent)
    (h : Descends parentOf path parent) : Descends parentOf (path ++ [node]) node := by
  obtain ⟨⟨top, hhead, htop⟩, hchain, hlast⟩ := h
  refine ⟨⟨top, ?_, htop⟩, ?_, List.getLast?_concat⟩
  · rw [List.head?_append, hhead]
    rfl
  · refine List.isChain_append.2 ⟨hchain, .singleton node, fun upper hu lower hl => ?_⟩
    rw [hlast] at hu
    cases hu
    cases hl
    exact hp

theorem Descends.cases (h : Descends parentOf path node) :
    (parentOf node = none ∧ path = [node]) ∨ ∃ parent up, parentOf node = some parent ∧
      Descends parentOf up parent ∧ path = up ++ [node] := by
  obtain ⟨up, rfl⟩ := List.getLast?_eq_some_iff.1 h.last
  obtain ⟨top, hhead, htop⟩ := h.root
  rcases hup : up.getLast? with _ | parent
  · obtain rfl := List.getLast?_eq_none_iff.1 hup
    cases hhead
    exact .inl ⟨htop, rfl⟩
  · obtain ⟨hchain, -, hlink⟩ := List.isChain_append.1 h.chain
    refine .inr ⟨parent, up, hlink parent hup node rfl, ⟨⟨top, ?_, htop⟩, hchain, hup⟩, rfl⟩
    rw [List.head?_append_of_ne_nil _ (by rintro rfl; cases hup)] at hhead
    exact hhead

theorem descends_lineage : ∀ {limit : Nat} {node : K} {path : List K},
    lineage parentOf limit node = some path → Descends parentOf path node ∧ path.length ≤ limit
  | 0, _, _, h => by cases h
  | limit + 1, node, path, h => by
    rcases lineage_cases h with ⟨hp, rfl⟩ | ⟨smaller, parent, up, hs, hp, hup, rfl⟩
    · exact ⟨descends_of_root hp, Nat.succ_le_succ (Nat.zero_le limit)⟩
    · cases hs
      obtain ⟨hdescends, hle⟩ := descends_lineage hup
      refine ⟨hdescends.concat hp, ?_⟩
      rw [List.length_append]
      exact Nat.succ_le_succ hle

theorem lineage_of_descends (path : List K) : ∀ {node : K}, Descends parentOf path node →
    lineage parentOf path.length node = some path := by
  induction path using List.reverseRecOn with
  | nil =>
    intro node h
    cases h.last
  | append_singleton up last ih =>
    intro node h
    rcases h.cases with ⟨hp, hpath⟩ | ⟨parent, up', hp, hup, hpath⟩
    · rw [hpath]
      exact lineage_of_root hp
    · obtain ⟨rfl, hlast⟩ := List.append_inj' hpath rfl
      cases hlast
      rw [List.length_append]
      exact lineage_of_parent hp (ih hup)

/-- The lineage of an element is the list that leads down to it, as soon as the walk may be as
long. -/
theorem lineage_eq_some_iff :
    lineage parentOf limit node = some path ↔ Descends parentOf path node ∧ path.length ≤ limit :=
  ⟨descends_lineage, fun ⟨h, hle⟩ => lineage_mono hle (lineage_of_descends path h)⟩

/-! ## An element that has lost its parent -/

variable [DecidableEq K]

theorem parentOf_of_unlink {n p : K} (h : unlink parentOf e n = some p) : parentOf n = some p := by
  rw [unlink, Function.update_apply] at h
  split at h
  · cases h
  · exact h

/-- What lies within an element lies within it still when its own link is cut. -/
theorem within_unlink_iff : Within (unlink parentOf e) node e ↔ Within parentOf node e := by
  constructor
  · exact within_of_sub fun n p => parentOf_of_unlink
  · exact within_congr fun n _ _ hne => Function.update_of_ne hne _ _

/-- The question whether an element lies within `e` comes to the same answer in no more steps. -/
theorem isWithin_unlink (hl : lineage parentOf limit node = some path) (e : K) :
    isWithin (unlink parentOf e) e limit node = some (decide (e ∈ path)) := by
  obtain ⟨cut, hcut⟩ :=
    lineage_of_sub parentOf (unlink parentOf e) (fun n p => parentOf_of_unlink) limit node path hl
  have hmem : e ∈ cut ↔ e ∈ path := by
    rw [mem_lineage _ _ _ _ hcut, mem_lineage _ _ _ _ hl, within_unlink_iff]
  rw [isWithin_of_lineage _ _ _ _ _ hcut, decide_eq_decide.2 hmem]

end Tree

theorem Pointer.detach_of_isWithin [DecidableEq K] {p : Pointer K} {parentOf : K → Option K}
    {limit : Nat} {node e : K} {within : Bool} (hp : p.captured = some node)
    (h : Tree.isWithin parentOf e limit node = some within) (formerParent : Option K) :
    p.detach parentOf limit e formerParent =
      some (within, if within then (p.capture formerParent).2 else p) := by
  rw [detach, hp]
  dsimp only
  rw [h]
  cases within <;> rfl

/-! ## The walks together -/

/-- In a finite tree without cycles there is for each element a list that leads down to it, and has
nothing twice. Under every limit of at least its length it is what the walk up from the element
yields; whether the element lies within another comes down to whether the list has the other; and
deliveries that everybody passes on, and by which no link is changed, are what becomes of an event
sent to the element just if they go to the list from its end to its beginning. No answer to whether
something lies within `e` depends on the link of `e` itself. So when `e` is removed, a pointer
captured by the element answers that this concerns it, before the link is cut and after, just if
the tracker forgets a pointer that is over the element along that list. -/
theorem walks_agree [Host σ K] [DecidableEq K] {parentOf : K → Option K}
    (hfin : {n | parentOf n ≠ none}.Finite)
    (hcycle : ∀ n p, parentOf n = some p → ¬ Tree.Within parentOf p n) (node : K) :
    ∃ path : List K, Tree.Descends parentOf path node ∧ path.Nodup ∧
      ∀ limit, path.length ≤ limit →
        Tree.lineage parentOf limit node = some path ∧
        (∀ a, Tree.isWithin parentOf a limit node = some (decide (a ∈ path))) ∧
        (∀ (s : Stage σ K) (event : Event K), Host.parentOf s.host = parentOf →
          event.target = node → ∀ ds t, s.Told ds t → (∀ d ∈ ds, d.response = .passed) →
          (∀ n, ¬ Relinked n s.host ds) →
          (s.bubble limit event = some (.passed, t) ↔
            ds = path.reverse.map fun n => ⟨n, event, .passed⟩)) ∧
        (∀ e, Tree.isWithin (Tree.unlink parentOf e) e limit node =
          Tree.isWithin parentOf e limit node) ∧
        ∀ p : Pointer K, p.captured = some node →
          ∀ (s : Surface σ K) (id : PointerId) (entry : HoverEntry K),
          s.hover.entries[id]? = some entry → entry.path = path →
          ∀ e, ∃ changed p', (∀ links ∈ [parentOf, Tree.unlink parentOf e],
              p.detach links limit e (parentOf e) = some (changed, p')) ∧
            (changed = true ↔ (s.detach e).2.hover.entries[id]? = none) := by
  obtain ⟨bound, path, hbound⟩ := ((Tree.acyclic_iff hfin).2 hcycle).lineage node
  have hdescends := (Tree.descends_lineage hbound).1
  refine ⟨path, hdescends, Tree.nodup_lineage _ _ _ _ hbound, fun limit hle => ?_⟩
  have hpath : Tree.lineage parentOf limit node = some path :=
    Tree.lineage_eq_some_iff.2 ⟨hdescends, hle⟩
  have hwithin := fun a => Tree.isWithin_of_lineage parentOf a limit node path hpath
  have hcut := fun e => Tree.isWithin_unlink hpath e
  refine ⟨hpath, hwithin, fun s event hs htarget ds t ht hpassed hkept => ?_,
    fun e => (hcut e).trans (hwithin e).symm,
    fun p hp s id entry he hentry e => ?_⟩
  · subst htarget
    exact Stage.bubbleFrom_eq_iff hpath hs ht hpassed hkept
  · have hanswer : ∀ links ∈ [parentOf, Tree.unlink parentOf e],
        Tree.isWithin links e limit node = some (decide (e ∈ path)) := by
      intro links hlinks
      rcases List.mem_cons.1 hlinks with rfl | hlinks
      · exact hwithin e
      · rw [List.mem_singleton.1 hlinks]
        exact hcut e
    refine ⟨_, _, fun links hlinks => Pointer.detach_of_isWithin hp (hanswer links hlinks) _, ?_⟩
    rw [Surface.entries_detach, Hover.path_of_entry he, hentry, he]
    simp

/-- `2` lies in `1`, `1` in `0`. A release goes up from `2`; a pointer is captured by `2`, and another
one is over it, when `1` is removed. -/
theorem walks_from_two :
    let pen : PointerIdentity := ⟨⟨1, Nat.one_pos⟩, .pen, true⟩
    let mouse : PointerIdentity := ⟨⟨2, Nat.two_pos⟩, .mouse, true⟩
    let scene : Scene Nat := { root := ⟨1⟩, links := [(2, 1), (1, 0)] }
    let details := Details.bare ⟨0, 0⟩ 0
    let s : Surface (Scene Nat) Nat :=
      { host := scene, hover := (Hover.empty.setPath mouse details [0, 1, 2]).1 }
    let p : Pointer Nat := { info := pen, captured := some 2 }
    let event : Event Nat := ⟨.released .left, 2, pen, ⟨1⟩, details⟩
    let tree := scene.parentOf
    {n | tree n ≠ none}.Finite ∧ (∀ n p, tree n = some p → ¬ Tree.Within tree p n) ∧
      Tree.lineage tree 3 2 = some [0, 1, 2] ∧
      Tree.isWithin (Tree.unlink tree 1) 1 3 2 = some true ∧
      (s.bubble 3 event).map (fun (response, t) => (response, t.log.map (·.node))) =
        some (.passed, [2, 1, 0]) ∧
      ∃ changed p', p.detach tree 3 1 (tree 1) = some (changed, p') ∧
        p.detach (Tree.unlink tree 1) 3 1 (tree 1) = some (changed, p') ∧
        (changed = true ↔ (s.detach 1).2.hover.entries[mouse.id]? = none) := by
  intro pen mouse scene details s p event tree
  have hlink : ∀ n q, tree n = some q → n ∈ [1, 2] ∧ q < n := by
    intro n q hq
    simp only [tree, scene, Scene.parentOf, List.lookup_cons, List.lookup_nil] at hq
    grind
  have hfin : {n | tree n ≠ none}.Finite := by
    refine (List.finite_toSet [1, 2]).subset fun n hn => ?_
    obtain ⟨q, hq⟩ := Option.ne_none_iff_exists'.1 hn
    exact (hlink n q hq).1
  have hf : Tree.Acyclic tree := Tree.acyclic_of_rank id fun n q hq => (hlink n q hq).2
  have hcycle := fun n q (hq : tree n = some q) => hf.not_within_parent hq
  obtain ⟨path, -, -, hwalks⟩ := walks_agree (σ := Scene Nat) hfin hcycle 2
  obtain ⟨hlineage, -⟩ := hwalks path.length (Nat.le_refl _)
  obtain rfl := Tree.lineage_unique hlineage (by decide : Tree.lineage tree 3 2 = some [0, 1, 2])
  obtain ⟨hlineage, -, -, hcut, hdetach⟩ := hwalks 3 (by decide)
  obtain ⟨changed, p', hsame, hgone⟩ :=
    hdetach p rfl s mouse.id ⟨mouse, details, [0, 1, 2]⟩ (by decide +kernel) rfl 1
  exact ⟨hfin, hcycle, hlineage, hcut 1, by decide +kernel, changed, p', hsame tree (by simp),
    hsame (Tree.unlink tree 1) (by simp), hgone⟩

end PointerRouting
