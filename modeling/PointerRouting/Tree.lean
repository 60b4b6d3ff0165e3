/-
Walks from an element up to its root along parent links. The links are a function, so nothing
keeps them from running in a circle: each walk takes a limit on the elements it visits and answers
`none` if it has not come to its end by then. A walk that ends under one limit ends likewise under
every larger one (`lineage_mono`, `isWithin_mono`), so the limit never shows in an answer.
-/

namespace PointerRouting.Tree

variable {K : Type}

/-- The elements from the root down to `node`, followed by `below`. -/
def lineageOnto (parentOf : K → Option K) : Nat → K → List K → Option (List K)
  | 0, _, _ => none
  | limit + 1, node, below =>
    match parentOf node with
    | none => some (node :: below)
    | some parent => lineageOnto parentOf limit parent (node :: below)

/-- The elements from the root down to `node`, both included. -/
def lineage (parentOf : K → Option K) (limit : Nat) (node : K) : Option (List K) :=
  lineageOnto parentOf limit node []

/-- Whether `node` is `ancestor` or lies below it. The walk ends where it meets `ancestor`. -/
def isWithin [DecidableEq K] (parentOf : K → Option K) (ancestor : K) : Nat → K → Option Bool
  | 0, _ => none
  | limit + 1, node =>
    if node = ancestor then some true
    else
      match parentOf node with
      | none => some false
      | some parent => isWithin parentOf ancestor limit parent

/-! ## Larger limits -/

theorem lineageOnto_mono (parentOf : K → Option K) :
    ∀ (limit larger : Nat) (node : K) (below path : List K), limit ≤ larger →
      lineageOnto parentOf limit node below = some path →
        lineageOnto parentOf larger node below = some path
  | 0, _, _, _, _, _, h => by cases h
  | limit + 1, 0, _, _, _, hle, _ => absurd hle (Nat.not_succ_le_zero limit)
  | limit + 1, larger + 1, node, below, path, hle, h => by
    unfold lineageOnto at h ⊢
    rcases hp : parentOf node with _ | parent
    · rw [hp] at h; exact h
    · rw [hp] at h
      exact lineageOnto_mono parentOf limit larger parent _ path (Nat.le_of_succ_le_succ hle) h

theorem lineage_mono {parentOf : K → Option K} {limit larger : Nat} {node : K} {path : List K}
    (hle : limit ≤ larger) (h : lineage parentOf limit node = some path) :
    lineage parentOf larger node = some path :=
  lineageOnto_mono parentOf limit larger node [] path hle h

theorem isWithin_mono [DecidableEq K] (parentOf : K → Option K) (ancestor : K) :
    ∀ (limit larger : Nat) (node : K) (within : Bool), limit ≤ larger →
      isWithin parentOf ancestor limit node = some within →
        isWithin parentOf ancestor larger node = some within
  | 0, _, _, _, _, h => by cases h
  | limit + 1, 0, _, _, hle, _ => absurd hle (Nat.not_succ_le_zero limit)
  | limit + 1, larger + 1, node, within, hle, h => by
    unfold isWithin at h ⊢
    by_cases hn : node = ancestor
    · rw [if_pos hn] at h ⊢; exact h
    · rw [if_neg hn] at h ⊢
      rcases hp : parentOf node with _ | parent
      · rw [hp] at h; exact h
      · rw [hp] at h
        exact isWithin_mono parentOf ancestor limit larger parent within
          (Nat.le_of_succ_le_succ hle) h

end PointerRouting.Tree
