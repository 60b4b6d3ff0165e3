/-
What becomes of a capture when elements leave the tree. A pointer is told of each removal by a
`Notice`. If it is told of every removal as it happens, whatever the order, or of all of them
afterwards, those below before those above, it ends up with the `Heir` of its owner: the owner
itself if nothing it lies within was removed, else the parent that the uppermost such element had.
It answers each notice with whether its owner changed.

The invariant is that the owner so far is the heir under the elements told of so far. It carries a
notice because those elements all lie below the owner, so that no link is missing between the
owner and an element that comes to be removed above it.
-/
import PointerRouting.Pointer
import PointerRouting.Proofs.Tree.Ancestry
import Mathlib.Data.Finset.Dedup
import Mathlib.Data.Finset.Insert
import Mathlib.Data.Finset.Lattice.Basic

namespace PointerRouting

open PointerRouting.Tree

variable {K : Type} [DecidableEq K]

/-! ## Removals and notices -/

/-- The links without that of `element` to its parent. -/
def Tree.unlink (parentOf : K → Option K) (element : K) : K → Option K :=
  Function.update parentOf element none

/-- The links without those of the elements `gone` to their parents. -/
def Tree.without (parentOf : K → Option K) (gone : Finset K) : K → Option K :=
  fun node => if node ∈ gone then none else parentOf node

/-- The news that an element has left the tree. -/
structure Notice (K : Type) where
  /-- The links at the time of the notice. -/
  parentOf : K → Option K
  element : K
  /-- The parent the element had. -/
  formerParent : Option K

namespace Notice

/-- Elements are unlinked one at a time, each with a notice right after. -/
def oneByOne (parentOf : K → Option K) : List K → List (Notice K)
  | [] => []
  | e :: es =>
    { parentOf := unlink parentOf e, element := e, formerParent := parentOf e } ::
      oneByOne (unlink parentOf e) es

/-- Elements are all unlinked first, then the notices come in a given order. -/
def afterwards (parentOf : K → Option K) (gone : Finset K) (order : List K) : List (Notice K) :=
  order.map fun e =>
    { parentOf := without parentOf gone, element := e, formerParent := parentOf e }

end Notice

namespace Pointer

/-- The answer of a pointer to a notice, and the pointer after it. -/
def heed (limit : Nat) (p : Pointer K) (n : Notice K) : Option (Bool × Pointer K) :=
  p.detach n.parentOf limit n.element n.formerParent

/-- The pointer after some notices. -/
def heedAll (limit : Nat) : Pointer K → List (Notice K) → Option (Pointer K)
  | p, [] => some p
  | p, n :: ns => (p.heed limit n).bind fun answer => heedAll limit answer.2 ns

/-- Each of some notices is answered with whether it changed the owner. -/
def AnswersTruly (limit : Nat) (p : Pointer K) (notices : List (Notice K)) : Prop :=
  ∀ before n after, notices = before ++ n :: after →
    ∃ q changed q', p.heedAll limit before = some q ∧ q.heed limit n = some (changed, q') ∧
      (changed = true ↔ q'.captured ≠ q.captured)

end Pointer

/-! ## The heir of an owner -/

variable {parentOf : K → Option K} {gone : Finset K} {c m x e : K} {owner : Option K}

/-- `m` is the uppermost of the elements `gone` that `c` lies within. -/
structure Uppermost (parentOf : K → Option K) (gone : Finset K) (c m : K) : Prop where
  mem : m ∈ gone
  within : Within parentOf c m
  above : ∀ n ∈ gone, Within parentOf c n → Within parentOf n m

/-- Who has the pointer that `c` had, after the elements `gone` have left the tree. -/
inductive Heir (parentOf : K → Option K) (gone : Finset K) (c : K) : Option K → Prop
  /-- Nothing that `c` lies within has left. -/
  | self : (∀ n ∈ gone, ¬ Within parentOf c n) → Heir parentOf gone c (some c)
  /-- The parent of the uppermost element that has left. -/
  | parent {m : K} : Uppermost parentOf gone c m → Heir parentOf gone c (parentOf m)

omit [DecidableEq K] in
theorem heir_empty (parentOf : K → Option K) (c : K) : Heir parentOf ∅ c (some c) :=
  .self fun n hn => absurd hn (Finset.notMem_empty n)

omit [DecidableEq K] in
/-- There is one heir, since of two uppermost elements each would be above the other. -/
theorem Heir.unique (hf : Acyclic parentOf) {owner' : Option K} (h : Heir parentOf gone c owner)
    (h' : Heir parentOf gone c owner') : owner = owner' := by
  cases h with
  | self hno =>
    cases h' with
    | self _ => rfl
    | parent hm => exact absurd hm.within (hno _ hm.mem)
  | parent hm =>
    cases h' with
    | self hno => exact absurd hm.within (hno _ hm.mem)
    | parent hm' =>
      rw [hf.within_antisymm (hm'.above _ hm.mem hm.within) (hm.above _ hm'.mem hm'.within)]

omit [DecidableEq K] in
theorem Heir.within_owner (h : Heir parentOf gone c owner) (hx : owner = some x) :
    Within parentOf c x := by
  cases h with
  | self _ => cases hx; exact within_refl _
  | parent hm => exact hm.within.tail hx

omit [DecidableEq K] in
theorem Heir.gone_below (hf : Acyclic parentOf) (h : Heir parentOf gone c owner)
    (hx : owner = some x) {n : K} (hn : n ∈ gone) (hw : Within parentOf c n) :
    Within parentOf n x ∧ ¬ Within parentOf x n := by
  cases h with
  | self hno => exact absurd hw (hno n hn)
  | parent hm =>
    have hnm := hm.above n hn hw
    exact ⟨hnm.tail hx, fun hxn => hf.not_within_parent hx (hxn.trans hnm)⟩

/-- If an element that goes away has the owner below it, the heir is its parent. -/
theorem Heir.insert_within (hf : Acyclic parentOf) (h : Heir parentOf gone c owner)
    (hx : owner = some x) (hw : Within parentOf x e) :
    Heir parentOf (insert e gone) c (parentOf e) := by
  refine .parent ⟨Finset.mem_insert_self e gone, (h.within_owner hx).trans hw, ?_⟩
  intro n hn hcn
  rcases Finset.mem_insert.1 hn with rfl | hn
  · exact within_refl n
  · exact (h.gone_below hf hx hn hcn).1.trans hw

/-- An element with the owner elsewhere goes away without consequence. -/
theorem Heir.insert_apart (h : Heir parentOf gone c owner)
    (hw : ∀ x, owner = some x → ¬ Within parentOf x e) :
    Heir parentOf (insert e gone) c owner := by
  cases h with
  | self hno =>
    refine .self fun n hn => ?_
    rcases Finset.mem_insert.1 hn with rfl | hn
    · exact hw c rfl
    · exact hno n hn
  | @parent m hm =>
    refine .parent ⟨Finset.mem_insert_of_mem hm.mem, hm.within, ?_⟩
    intro n hn hcn
    rcases Finset.mem_insert.1 hn with rfl | hn
    · rcases within_total hcn hm.within with hnm | hmn
      · exact hnm
      · rcases within_iff.1 hmn with rfl | ⟨q, hq, hqn⟩
        · exact within_refl _
        · exact absurd hqn (hw q hq)
    · exact hm.above n hn hcn

/-! ## One notice -/

/-- A notice comes in time after those of the elements `gone`: it is about a further element with
the parent it had at first, and of the links below that element only those of `gone` are
missing. -/
structure Notice.Timely (parentOf : K → Option K) (gone : Finset K) (n : Notice K) : Prop where
  fresh : n.element ∉ gone
  former : n.formerParent = parentOf n.element
  sub : ∀ x y, n.parentOf x = some y → parentOf x = some y
  missing : ∀ x, n.parentOf x ≠ parentOf x →
    x ∈ gone ∨ x = n.element ∨ ¬ Within parentOf x n.element

/-- The missing links do not hide whether the owner lies within the element. -/
theorem Notice.Timely.within_iff {n : Notice K} (hn : n.Timely parentOf gone)
    (hf : Acyclic parentOf) (h : Heir parentOf gone c (some x)) :
    Within n.parentOf x n.element ↔ Within parentOf x n.element := by
  refine ⟨within_of_sub hn.sub, within_congr fun k hxk hke hne => ?_⟩
  by_contra hmiss
  rcases hn.missing k hmiss with hk | hk | hk
  · exact (h.gone_below hf rfl hk ((h.within_owner rfl).trans hxk)).2 hxk
  · exact hne hk
  · exact hk hke

/-- A pointer whose owner is the heir of those gone hands itself to the heir of one more, and says
whether that is another. -/
theorem heed_heir (hf : Acyclic parentOf) {limit : Nat} {path : List K}
    (hl : lineage parentOf limit c = some path) {p : Pointer K} (hlive : p.disposed = false)
    {n : Notice K} (hn : n.Timely parentOf gone) (h : Heir parentOf gone c p.captured) :
    ∃ changed heir, p.heed limit n = some (changed, { p with captured := heir }) ∧
      Heir parentOf (insert n.element gone) c heir ∧ (changed = true ↔ heir ≠ p.captured) := by
  unfold Pointer.heed Pointer.detach
  rcases hp : p.captured with _ | x
  · refine ⟨false, none, ?_, ?_, by simp⟩
    · dsimp only
      rw [← hp]
    · rw [hp] at h
      exact h.insert_apart fun x hx => by cases hx
  · rw [hp] at h
    -- the owner's own walk keeps to the limit, in the whole tree and so in what is left of it
    obtain ⟨up, -, hup, -⟩ := lineage_of_within (h.within_owner rfl) hl
    obtain ⟨up', hup'⟩ := lineage_of_sub parentOf n.parentOf hn.sub limit x up hup
    have hmem : n.element ∈ up' ↔ Within parentOf x n.element :=
      (mem_lineage n.parentOf limit x up' hup' n.element).trans (hn.within_iff hf h)
    dsimp only
    rw [isWithin_of_lineage n.parentOf n.element limit x up' hup']
    by_cases hw : Within parentOf x n.element
    · refine ⟨true, parentOf n.element, ?_, h.insert_within hf rfl hw, ?_⟩
      · simp [hmem.2 hw, Pointer.capture, hlive, hn.former]
      · exact ⟨fun _ he => hf.not_within_parent he hw, fun _ => rfl⟩
    · refine ⟨false, some x, ?_, h.insert_apart fun y hy => ?_, by simp⟩
      · simp only [mt hmem.1 hw, decide_false, Option.map_some, Bool.false_eq_true, if_false]
        rw [← hp]
      · cases hy
        exact hw

/-! ## A series of notices -/

/-- Each of some notices comes in time after those before it. -/
def InTime (parentOf : K → Option K) : Finset K → List (Notice K) → Prop
  | _, [] => True
  | gone, n :: ns => n.Timely parentOf gone ∧ InTime parentOf (insert n.element gone) ns

theorem heedAll_heir (hf : Acyclic parentOf) {limit : Nat} {path : List K}
    (hl : lineage parentOf limit c = some path) :
    ∀ (notices : List (Notice K)) (gone : Finset K) (p : Pointer K), p.disposed = false →
      InTime parentOf gone notices → Heir parentOf gone c p.captured →
      ∃ heir, p.heedAll limit notices = some { p with captured := heir } ∧
        Heir parentOf (gone ∪ (notices.map Notice.element).toFinset) c heir ∧
        p.AnswersTruly limit notices
  | [], gone, p, _, _, h => by
    refine ⟨p.captured, rfl, by simpa using h, ?_⟩
    intro before n after hs
    simp at hs
  | n :: ns, gone, p, hlive, ht, h => by
    obtain ⟨changed, next, hheed, hnext, htrue⟩ := heed_heir hf hl hlive ht.1 h
    obtain ⟨heir, hall, hheir, hans⟩ := heedAll_heir hf hl ns (insert n.element gone)
      { p with captured := next } hlive ht.2 hnext
    refine ⟨heir, ?_, ?_, ?_⟩
    · simp only [Pointer.heedAll, hheed, Option.bind_some]
      exact hall
    · rw [List.map_cons, List.toFinset_cons, Finset.union_insert]
      rw [Finset.insert_union] at hheir
      exact hheir
    · intro before k after hs
      cases before with
      | nil =>
        rw [List.nil_append] at hs
        cases hs
        exact ⟨p, changed, _, rfl, hheed, htrue⟩
      | cons b before =>
        rw [List.cons_append] at hs
        cases hs
        obtain ⟨q, answer, q', hq, hk, hiff⟩ := hans before k after rfl
        refine ⟨q, answer, q', ?_, hk, hiff⟩
        simp only [Pointer.heedAll, hheed, Option.bind_some]
        exact hq

theorem parentOf_of_without (h : without parentOf gone c = some x) : parentOf c = some x := by
  unfold without at h
  split at h
  · cases h
  · exact h

theorem mem_of_without_ne (h : without parentOf gone c ≠ parentOf c) : c ∈ gone := by
  by_contra hc
  exact h (if_neg hc)

theorem without_empty (parentOf : K → Option K) : without parentOf ∅ = parentOf := by
  funext n
  simp [without]

theorem unlink_without (parentOf : K → Option K) (gone : Finset K) (e : K) :
    unlink (without parentOf gone) e = without parentOf (insert e gone) := by
  funext n
  by_cases hn : n = e
  · subst hn; simp [unlink, without]
  · simp [unlink, without, hn]

theorem not_mem_insert_of_cons {es : List K} (hnd : (e :: es).Nodup)
    (hout : ∀ k ∈ e :: es, k ∉ gone) : ∀ k ∈ es, k ∉ insert e gone := by
  intro k hk hins
  rcases Finset.mem_insert.1 hins with rfl | hg
  · exact (List.nodup_cons.1 hnd).1 hk
  · exact hout k (List.mem_cons_of_mem _ hk) hg

theorem inTime_oneByOne : ∀ (order : List K) (gone : Finset K), order.Nodup →
    (∀ e ∈ order, e ∉ gone) →
    InTime parentOf gone (Notice.oneByOne (without parentOf gone) order)
  | [], _, _, _ => trivial
  | e :: es, gone, hnd, hout => by
    have he : e ∉ gone := hout e (List.mem_cons_self ..)
    unfold Notice.oneByOne InTime
    rw [unlink_without]
    refine ⟨⟨he, ?_, fun x y => parentOf_of_without, fun x hx => ?_⟩, ?_⟩
    · simp [without, he]
    · rcases Finset.mem_insert.1 (mem_of_without_ne hx) with rfl | hg
      · exact .inr (.inl rfl)
      · exact .inl hg
    · exact inTime_oneByOne es (insert e gone) (List.nodup_cons.1 hnd).2
        (not_mem_insert_of_cons hnd hout)

/-- When all are gone before the first is told of, they must be told of from the bottom up. -/
theorem inTime_afterwards {removed : Finset K} : ∀ (order : List K) (gone : Finset K),
    order.Nodup → (∀ e ∈ order, e ∉ gone) → (∀ e ∈ removed, e ∈ gone ∨ e ∈ order) →
    order.Pairwise (fun a b => ¬ Within parentOf b a) →
    InTime parentOf gone (Notice.afterwards parentOf removed order)
  | [], _, _, _, _, _ => trivial
  | e :: es, gone, hnd, hout, hall, hord => by
    have hord' := List.pairwise_cons.1 hord
    refine ⟨⟨hout e (List.mem_cons_self ..), rfl, fun x y => parentOf_of_without, fun x hx => ?_⟩,
      inTime_afterwards es (insert e gone) (List.nodup_cons.1 hnd).2
        (not_mem_insert_of_cons hnd hout) ?_ hord'.2⟩
    · rcases hall x (mem_of_without_ne hx) with hg | ho
      · exact .inl hg
      · rcases List.mem_cons.1 ho with rfl | ho
        · exact .inr (.inl rfl)
        · exact .inr (.inr (hord'.1 x ho))
    · intro k hk
      rcases hall k hk with hg | ho
      · exact .inl (Finset.mem_insert_of_mem hg)
      · rcases List.mem_cons.1 ho with rfl | ho
        · exact .inl (Finset.mem_insert_self _ _)
        · exact .inr ho

/-! ## The owner at the end -/

theorem elements_oneByOne : ∀ (order : List K) (parentOf : K → Option K),
    (Notice.oneByOne parentOf order).map Notice.element = order
  | [], _ => rfl
  | e :: es, parentOf => by
    simp only [Notice.oneByOne, List.map_cons]
    rw [elements_oneByOne es (unlink parentOf e)]

theorem elements_afterwards (parentOf : K → Option K) (gone : Finset K)
    (order : List K) : (Notice.afterwards parentOf gone order).map Notice.element = order := by
  simp [Notice.afterwards, Function.comp_def]

/-- A live pointer that `c` has goes to the heir of `c` under the elements removed: whatever the
order in which they are unlinked, with a notice after each, and also when all are unlinked before
the first notice, as long as those below are told of before those above. Every notice is answered
with whether it changed the owner. -/
theorem capture_goes_to_heir (hf : Acyclic parentOf) {p : Pointer K} (hlive : p.disposed = false)
    (hc : p.captured = some c) (removed : Finset K) :
    ∃ heir, Heir parentOf removed c heir ∧ ∃ bound, ∀ limit, bound ≤ limit →
      (∀ order : List K, order.Nodup → order.toFinset = removed →
        p.heedAll limit (Notice.oneByOne parentOf order) = some { p with captured := heir } ∧
          p.AnswersTruly limit (Notice.oneByOne parentOf order)) ∧
      (∀ order : List K, order.Nodup → order.toFinset = removed →
        order.Pairwise (fun a b => ¬ Within parentOf b a) →
        p.heedAll limit (Notice.afterwards parentOf removed order) =
            some { p with captured := heir } ∧
          p.AnswersTruly limit (Notice.afterwards parentOf removed order)) := by
  obtain ⟨bound, path, hpath⟩ := hf.lineage c
  have hstart : Heir parentOf ∅ c p.captured := by rw [hc]; exact heir_empty parentOf c
  have hone : ∀ order : List K, order.Nodup →
      InTime parentOf ∅ (Notice.oneByOne parentOf order) := by
    intro order hnd
    rw [← without_empty parentOf]
    exact inTime_oneByOne order ∅ hnd fun e _ => Finset.notMem_empty e
  -- one series of removals settles who the heir is
  obtain ⟨heir, -, hheir, -⟩ :=
    heedAll_heir hf hpath _ ∅ p hlive (hone removed.toList removed.nodup_toList) hstart
  rw [elements_oneByOne, Finset.empty_union, Finset.toList_toFinset] at hheir
  have hsettled : ∀ limit, bound ≤ limit → ∀ notices : List (Notice K),
      InTime parentOf ∅ notices → (notices.map Notice.element).toFinset = removed →
      p.heedAll limit notices = some { p with captured := heir } ∧
        p.AnswersTruly limit notices := by
    intro limit hle notices ht hels
    obtain ⟨heir', hall, hheir', hans⟩ :=
      heedAll_heir hf (lineage_mono hle hpath) notices ∅ p hlive ht hstart
    rw [hels, Finset.empty_union] at hheir'
    rw [hheir.unique hf hheir']
    exact ⟨hall, hans⟩
  refine ⟨heir, hheir, bound, fun limit hle => ⟨?_, ?_⟩⟩
  · intro order hnd hset
    exact hsettled limit hle _ (hone order hnd) (by rw [elements_oneByOne]; exact hset)
  · intro order hnd hset hord
    refine hsettled limit hle _ ?_ (by rw [elements_afterwards]; exact hset)
    refine inTime_afterwards order ∅ hnd (fun e _ => Finset.notMem_empty e) ?_ hord
    intro e he
    rw [← hset, List.mem_toFinset] at he
    exact .inr he

/-- In the chain `3 → 2 → 1 → 0`, the pointer of `3` goes to `0` when `2` and `1` leave, in either
order. -/
theorem capture_of_three_goes_to_zero :
    let parentOf := fun n : Nat => ([(3, 2), (2, 1), (1, 0)] : List (Nat × Nat)).lookup n
    let p : Pointer Nat := { info := ⟨⟨1, Nat.one_pos⟩, .mouse, true⟩, captured := some 3 }
    p.disposed = false ∧ p.captured = some 3 ∧ Acyclic parentOf ∧ ∃ limit,
      p.heedAll limit (Notice.oneByOne parentOf [1, 2]) = some { p with captured := some 0 } ∧
      p.heedAll limit (Notice.oneByOne parentOf [2, 1]) = some { p with captured := some 0 } ∧
      p.heedAll limit (Notice.afterwards parentOf {1, 2} [2, 1]) =
        some { p with captured := some 0 } := by
  intro parentOf p
  have hrank : ∀ n q, parentOf n = some q → q < n := by
    intro n q hq
    simp only [parentOf, List.lookup_cons, List.lookup_nil] at hq
    grind
  have hf : Acyclic parentOf := acyclic_of_rank id hrank
  have h32 : Within parentOf 3 2 := within_of_parent rfl (within_refl 2)
  have h21 : Within parentOf 2 1 := within_of_parent rfl (within_refl 1)
  have hup : Heir parentOf {1, 2} 3 (some 0) := by
    refine Heir.parent (m := 1) ⟨by decide, h32.trans h21, fun n hn _ => ?_⟩
    rcases Finset.mem_insert.1 hn with rfl | hn
    · exact within_refl 1
    · rw [Finset.mem_singleton.1 hn]; exact h21
  obtain ⟨heir, hheir, bound, h⟩ := capture_goes_to_heir hf (p := p) rfl rfl {1, 2}
  cases hheir.unique hf hup
  obtain ⟨hone, hafter⟩ := h bound (Nat.le_refl bound)
  have hord : ¬ Within parentOf 1 2 := hf.not_within_parent rfl
  exact ⟨rfl, rfl, hf, bound, (hone [1, 2] (by decide) (by decide)).1,
    (hone [2, 1] (by decide) (by decide)).1,
    (hafter [2, 1] (by decide) (by decide) (by simp [hord])).1⟩

end PointerRouting
