/-
Ancestry along parent links. `Within` is the relation that the walks of a tree are read against:
a chain of links that leads from one element up to another. The lineage of an element lists
exactly the elements it lies within, each of them once, and depends on the links of these alone;
wherever it is found it also settles what `isWithin` answers. Where every walk ends (`Acyclic`),
lying within is a partial order, and the elements that one lies within form a chain of it.
-/
import PointerRouting.Tree
import Mathlib.Logic.Relation
import Mathlib.Order.WellFounded
import Mathlib.Data.Set.Finite.Basic
import Mathlib.Data.Fintype.Pigeonhole

namespace PointerRouting.Tree

variable {K : Type} {parentOf other : K → Option K} {limit larger : Nat} {node parent a b c : K}
  {path : List K}

/-! ## Lying within -/

/-- `node` is `ancestor` or lies below it: a chain of parent links leads up from one to the
other. -/
def Within (parentOf : K → Option K) (node ancestor : K) : Prop :=
  Relation.ReflTransGen (fun child parent => parentOf child = some parent) node ancestor

theorem within_refl (node : K) : Within parentOf node node := .refl

theorem within_of_parent (hp : parentOf node = some parent) (h : Within parentOf parent a) :
    Within parentOf node a :=
  .head hp h

theorem within_iff : Within parentOf node a ↔
    node = a ∨ ∃ parent, parentOf node = some parent ∧ Within parentOf parent a := by
  unfold Within
  rw [Relation.ReflTransGen.cases_head_iff]

/-- Of two elements that one lies within, one lies within the other. -/
theorem within_total (ha : Within parentOf node a) (hb : Within parentOf node b) :
    Within parentOf a b ∨ Within parentOf b a :=
  Relation.ReflTransGen.total_of_right_unique
    (fun _ _ _ h h' => Option.some.inj (h.symm.trans h')) ha hb

/-- Fewer links lead no further. -/
theorem within_of_sub (hs : ∀ n p, other n = some p → parentOf n = some p)
    (h : Within other node a) : Within parentOf node a :=
  Relation.ReflTransGen.mono hs _ _ h

/-- A chain of links is one of another tree too, as long as the two agree below its upper end. -/
theorem within_congr (hc : ∀ n, Within parentOf node n → Within parentOf n a → n ≠ a →
    other n = parentOf n) (h : Within parentOf node a) : Within other node a := by
  induction h using Relation.ReflTransGen.head_induction_on with
  | refl => exact .refl
  | @head n m hm hrest ih =>
    have hup : ∀ k, Within parentOf m k → Within parentOf n k := fun k hk => within_of_parent hm hk
    by_cases hn : n = a
    · subst hn; exact .refl
    · have hother : other n = some m := by
        rw [hc n (within_refl n) (within_of_parent hm hrest) hn]; exact hm
      exact .head hother (ih fun k hk hka hne => hc k (hup k hk) hka hne)

/-! ## The lineage of an element -/

theorem lineageOnto_eq (parentOf : K → Option K) : ∀ (limit : Nat) (node : K) (below : List K),
    lineageOnto parentOf limit node below = (lineage parentOf limit node).map (· ++ below)
  | 0, _, _ => rfl
  | limit + 1, node, below => by
    unfold lineage lineageOnto
    rcases hp : parentOf node with _ | parent
    · rfl
    · dsimp only
      rw [lineageOnto_eq parentOf limit parent (node :: below),
        lineageOnto_eq parentOf limit parent [node], Option.map_map]
      congr 1
      funext up
      simp

/-- A lineage is an element without a parent alone, or the lineage of its parent followed by the
element. -/
theorem lineage_cases (h : lineage parentOf limit node = some path) :
    (parentOf node = none ∧ path = [node]) ∨ ∃ smaller parent up, limit = smaller + 1 ∧
      parentOf node = some parent ∧ lineage parentOf smaller parent = some up ∧
      path = up ++ [node] := by
  cases limit with
  | zero => cases h
  | succ smaller =>
    unfold lineage lineageOnto at h
    rcases hp : parentOf node with _ | parent
    · rw [hp] at h
      exact .inl ⟨rfl, (Option.some.inj h).symm⟩
    · rw [hp] at h
      dsimp only at h
      rw [lineageOnto_eq] at h
      obtain ⟨up, hup, rfl⟩ := Option.map_eq_some_iff.1 h
      exact .inr ⟨smaller, parent, up, rfl, rfl, hup, rfl⟩

theorem lineage_of_root (hp : parentOf node = none) : lineage parentOf 1 node = some [node] := by
  unfold lineage lineageOnto
  rw [hp]

theorem lineage_of_parent {up : List K} (hp : parentOf node = some parent)
    (h : lineage parentOf limit parent = some up) :
    lineage parentOf (limit + 1) node = some (up ++ [node]) := by
  unfold lineage lineageOnto
  rw [hp]
  dsimp only
  rw [lineageOnto_eq, h]
  rfl

theorem getLast?_lineage (h : lineage parentOf limit node = some path) :
    path.getLast? = some node := by
  rcases lineage_cases h with ⟨-, rfl⟩ | ⟨_, _, up, -, -, -, rfl⟩ <;> simp

theorem lineage_unique {small large : Nat} {path path' : List K}
    (h : lineage parentOf small node = some path) (h' : lineage parentOf large node = some path') :
    path = path' := by
  have h1 := lineage_mono (Nat.le_max_left small large) h
  have h2 := lineage_mono (Nat.le_max_right small large) h'
  exact Option.some.inj (h1.symm.trans h2)

/-- A lineage lists exactly the elements that its last element lies within. -/
theorem mem_lineage (parentOf : K → Option K) : ∀ (limit : Nat) (node : K) (path : List K),
    lineage parentOf limit node = some path → ∀ a, a ∈ path ↔ Within parentOf node a
  | limit, node, path, h, a => by
    rcases lineage_cases h with ⟨hp, rfl⟩ | ⟨smaller, parent, up, rfl, hp, hup, rfl⟩
    · rw [within_iff, List.mem_singleton, hp]
      simp [eq_comm]
    · rw [within_iff, hp, List.mem_append, List.mem_singleton,
        mem_lineage parentOf smaller parent up hup a]
      simp only [Option.some.injEq, exists_eq_left', eq_comm (a := a)]
      exact Or.comm

/-- The lineage of an element begins with that of everything it lies within. -/
theorem lineage_of_within (h : Within parentOf node a) :
    ∀ {limit : Nat} {path : List K}, lineage parentOf limit node = some path →
      ∃ up below, lineage parentOf limit a = some up ∧ path = up ++ below := by
  induction h using Relation.ReflTransGen.head_induction_on with
  | refl => intro limit path hl; exact ⟨path, [], hl, by simp⟩
  | @head n m hm _ ih =>
    intro limit path hl
    rcases lineage_cases hl with ⟨hp, -⟩ | ⟨smaller, parent, up, rfl, hp, hup, rfl⟩
    · rw [hm] at hp; cases hp
    · rw [hm] at hp; cases hp
      obtain ⟨up', below, hup', rfl⟩ := ih hup
      exact ⟨up', below ++ [n], lineage_mono (Nat.le_succ _) hup', by simp⟩

/-- An element with a lineage does not lie above its parent. -/
theorem not_within_of_lineage (h : lineage parentOf limit node = some path)
    (hp : parentOf node = some parent) : ¬ Within parentOf parent node := by
  intro hw
  rcases lineage_cases h with ⟨hn, -⟩ | ⟨smaller, parent', up, rfl, hp', hup, rfl⟩
  · rw [hp] at hn; cases hn
  · rw [hp] at hp'; cases hp'
    -- the walk from the parent would come by the element and be longer than itself
    obtain ⟨up', below, hup', hsplit⟩ := lineage_of_within hw hup
    have hsame := lineage_unique hup' h
    subst hsame
    have hlen := congrArg List.length hsplit
    simp only [List.length_append, List.length_singleton] at hlen
    omega

theorem nodup_lineage (parentOf : K → Option K) : ∀ (limit : Nat) (node : K) (path : List K),
    lineage parentOf limit node = some path → path.Nodup
  | limit, node, path, h => by
    rcases lineage_cases h with ⟨-, rfl⟩ | ⟨smaller, parent, up, rfl, hp, hup, rfl⟩
    · exact List.nodup_singleton _
    · have hnot : node ∉ up := fun hm =>
        not_within_of_lineage h hp ((mem_lineage parentOf smaller parent up hup node).1 hm)
      refine List.nodup_append.2 ⟨nodup_lineage parentOf smaller parent up hup,
        List.nodup_singleton _, ?_⟩
      intro a ha b hb hab
      rw [List.mem_singleton] at hb
      subst hb; subst hab
      exact hnot ha

/-- A lineage depends on the links of its own elements alone. -/
theorem lineage_congr (parentOf other : K → Option K) :
    ∀ (limit : Nat) (node : K) (path : List K), lineage parentOf limit node = some path →
      (∀ a ∈ path, other a = parentOf a) → lineage other limit node = some path
  | limit, node, path, h, hc => by
    rcases lineage_cases h with ⟨hp, rfl⟩ | ⟨smaller, parent, up, rfl, hp, hup, rfl⟩
    · have hother : other node = none := by rw [hc node (by simp)]; exact hp
      have hpos : 1 ≤ limit := by
        rcases Nat.eq_zero_or_pos limit with h0 | h0
        · subst h0; cases h
        · exact h0
      exact lineage_mono hpos (lineage_of_root hother)
    · have hother : other node = some parent := by rw [hc node (by simp)]; exact hp
      exact lineage_of_parent hother (lineage_congr parentOf other smaller parent up hup
        fun a ha => hc a (List.mem_append_left _ ha))

/-- Removing links ends no walk later. -/
theorem lineage_of_sub (parentOf other : K → Option K)
    (hs : ∀ n p, other n = some p → parentOf n = some p) :
    ∀ (limit : Nat) (node : K) (path : List K), lineage parentOf limit node = some path →
      ∃ path', lineage other limit node = some path'
  | limit, node, path, h => by
    rcases ho : other node with _ | parent
    · have hpos : 1 ≤ limit := by
        rcases Nat.eq_zero_or_pos limit with h0 | h0
        · subst h0; cases h
        · exact h0
      exact ⟨[node], lineage_mono hpos (lineage_of_root ho)⟩
    · rcases lineage_cases h with ⟨hp, -⟩ | ⟨smaller, parent', up, rfl, hp, hup, rfl⟩
      · rw [hs node parent ho] at hp; cases hp
      · rw [hs node parent ho] at hp; cases hp
        obtain ⟨up', hup'⟩ := lineage_of_sub parentOf other hs smaller parent up hup
        exact ⟨up' ++ [node], lineage_of_parent ho hup'⟩

/-- Of a lineage each element lies within those before it. -/
theorem pairwise_lineage (parentOf : K → Option K) : ∀ (limit : Nat) (node : K) (path : List K),
    lineage parentOf limit node = some path →
      path.Pairwise fun upper lower => Within parentOf lower upper
  | limit, node, path, h => by
    rcases lineage_cases h with ⟨-, rfl⟩ | ⟨smaller, parent, up, rfl, hp, hup, rfl⟩
    · exact List.pairwise_singleton _ _
    · refine List.pairwise_append.2 ⟨pairwise_lineage parentOf smaller parent up hup,
        List.pairwise_singleton _ _, ?_⟩
      intro a ha b hb
      rw [List.mem_singleton.1 hb]
      exact within_of_parent hp ((mem_lineage parentOf smaller parent up hup a).1 ha)

/-- Two lineages that have an element in common are the same down to that element. -/
theorem lineage_shared {path' : List K} (h : lineage parentOf limit a = some path)
    (h' : lineage parentOf larger b = some path') (hc : c ∈ path) (hc' : c ∈ path') :
    ∃ up below below', c ∈ up ∧ path = up ++ below ∧ path' = up ++ below' := by
  obtain ⟨up, below, hup, rfl⟩ := lineage_of_within ((mem_lineage _ _ _ _ h c).1 hc) h
  obtain ⟨up', below', hup', rfl⟩ := lineage_of_within ((mem_lineage _ _ _ _ h' c).1 hc') h'
  obtain rfl := lineage_unique hup hup'
  exact ⟨up, below, below', List.mem_of_getLast? (getLast?_lineage hup), rfl, rfl⟩

/-! ## Paths to an element or to nowhere -/

/-- The path leads from a root down to the element, or is empty if there is none. -/
def PathTo (parentOf : K → Option K) : Option K → List K → Prop
  | none, path => path = []
  | some node, path => ∃ limit, lineage parentOf limit node = some path

/-- `n` is the element or lies above it, if there is one. -/
def Above (parentOf : K → Option K) (node : Option K) (n : K) : Prop :=
  ∃ x ∈ node, Within parentOf x n

/-- The list goes up through the elements that satisfy `P`: it has each of them once, before all
that it lies within. -/
structure Ascends (parentOf : K → Option K) (P : K → Prop) (l : List K) : Prop where
  mem : ∀ n, n ∈ l ↔ P n
  nodup : l.Nodup
  upward : l.Pairwise (Within parentOf)

section

variable {x y : Option K} {p q : List K}

theorem PathTo.getLast? (h : PathTo parentOf x p) : p.getLast? = x := by
  rcases x with _ | node
  · rw [show p = [] from h]
    rfl
  · obtain ⟨limit, hl⟩ := h
    exact getLast?_lineage hl

theorem PathTo.mem_iff (h : PathTo parentOf x p) (n : K) : n ∈ p ↔ Above parentOf x n := by
  rcases x with _ | node
  · rw [show p = [] from h]
    simp [Above]
  · obtain ⟨limit, hl⟩ := h
    simp [Above, mem_lineage _ _ _ _ hl n]

theorem PathTo.ascends (h : PathTo parentOf x p) :
    Ascends parentOf (Above parentOf x) p.reverse := by
  refine ⟨fun n => List.mem_reverse.trans (h.mem_iff n), List.nodup_reverse.2 ?_,
    List.pairwise_reverse.2 ?_⟩
  · rcases x with _ | node
    · rw [show p = [] from h]
      exact List.nodup_nil
    · obtain ⟨limit, hl⟩ := h
      exact nodup_lineage _ _ _ _ hl
  · rcases x with _ | node
    · rw [show p = [] from h]
      exact .nil
    · obtain ⟨limit, hl⟩ := h
      exact pairwise_lineage _ _ _ _ hl

theorem PathTo.shared (h : PathTo parentOf x p) (h' : PathTo parentOf y q) (hc : c ∈ p)
    (hc' : c ∈ q) : ∃ up below below', c ∈ up ∧ p = up ++ below ∧ q = up ++ below' := by
  rcases x with _ | a
  · rw [show p = [] from h] at hc
    cases hc
  rcases y with _ | b
  · rw [show q = [] from h'] at hc'
    cases hc'
  obtain ⟨limit, hl⟩ := h
  obtain ⟨limit', hl'⟩ := h'
  exact lineage_shared hl hl' hc hc'

end

/-! ## The question whether an element lies within another -/

/-- Under a limit that the lineage keeps to, the question is answered by looking it up there. -/
theorem isWithin_of_lineage [DecidableEq K] (parentOf : K → Option K) (ancestor : K) :
    ∀ (limit : Nat) (node : K) (path : List K), lineage parentOf limit node = some path →
      isWithin parentOf ancestor limit node = some (decide (ancestor ∈ path))
  | 0, _, _, h => by cases h
  | limit + 1, node, path, h => by
    have hlast := List.mem_of_getLast? (getLast?_lineage h)
    unfold isWithin
    by_cases hn : node = ancestor
    · subst hn
      rw [if_pos rfl, decide_eq_true hlast]
    · rw [if_neg hn]
      rcases lineage_cases h with ⟨hp, rfl⟩ | ⟨smaller, parent, up, hs, hp, hup, rfl⟩
      · rw [hp]
        simp [Ne.symm hn]
      · cases hs
        rw [hp]
        dsimp only
        rw [isWithin_of_lineage parentOf ancestor limit parent up hup]
        simp [Ne.symm hn]

/-! ## Trees in which every walk ends -/

/-- Every walk up ends: the links neither run in a circle nor lead up for ever. -/
def Acyclic (parentOf : K → Option K) : Prop :=
  WellFounded fun parent child => parentOf child = some parent

theorem acyclic_of_rank (rank : K → Nat)
    (h : ∀ n p, parentOf n = some p → rank p < rank n) : Acyclic parentOf :=
  Subrelation.wf (fun {p n} hp => h n p hp) (InvImage.wf rank Nat.lt_wfRel.wf)

theorem Acyclic.lineage (hf : Acyclic parentOf) (node : K) :
    ∃ limit path, lineage parentOf limit node = some path := by
  refine hf.induction (C := fun n => ∃ limit path, Tree.lineage parentOf limit n = some path)
    node ?_
  intro n ih
  rcases hp : parentOf n with _ | parent
  · exact ⟨1, [n], lineage_of_root hp⟩
  · obtain ⟨limit, up, hup⟩ := ih parent hp
    exact ⟨limit + 1, up ++ [n], lineage_of_parent hp hup⟩

theorem Acyclic.not_within_parent (hf : Acyclic parentOf) (hp : parentOf node = some parent) :
    ¬ Within parentOf parent node := by
  obtain ⟨limit, path, h⟩ := hf.lineage node
  exact not_within_of_lineage h hp

theorem Acyclic.within_antisymm (hf : Acyclic parentOf) (hab : Within parentOf a b)
    (hba : Within parentOf b a) : a = b := by
  rcases within_iff.1 hab with h | ⟨parent, hp, hpb⟩
  · exact h
  · exact absurd (hpb.trans hba) (hf.not_within_parent hp)

/-- Where finitely many elements have a parent, every walk ends as soon as no element lies above
its parent. -/
theorem acyclic_iff (hfin : {n | parentOf n ≠ none}.Finite) :
    Acyclic parentOf ↔ ∀ n p, parentOf n = some p → ¬ Within parentOf p n := by
  refine ⟨fun hf n p hp => hf.not_within_parent hp, fun h => ?_⟩
  unfold Acyclic
  rw [wellFounded_iff_isEmpty_descending_chain]
  refine ⟨fun ⟨x, hx⟩ => ?_⟩
  have hup : ∀ i k, Within parentOf (x i) (x (i + k)) := fun i k => by
    induction k with
    | zero => exact within_refl _
    | succ k ih => exact ih.tail (hx (i + k))
  have := hfin.to_subtype
  -- an endless walk comes by some element twice
  obtain ⟨i, j, hij, he⟩ := Finite.exists_ne_map_eq_of_infinite
    fun i => (⟨x i, by simp [hx i]⟩ : {n | parentOf n ≠ none})
  have hback : ∀ i j, i < j → x i ≠ x j := fun i j hlt hxe => by
    have hw := hup (i + 1) (j - (i + 1))
    rw [show i + 1 + (j - (i + 1)) = j by omega, ← hxe] at hw
    exact h (x i) (x (i + 1)) (hx i) hw
  have hxe : x i = x j := congrArg Subtype.val he
  rcases Nat.lt_or_gt_of_ne hij with hlt | hlt
  · exact hback i j hlt hxe
  · exact hback j i hlt hxe.symm

end PointerRouting.Tree
