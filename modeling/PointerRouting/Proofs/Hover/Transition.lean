/-
The transitions between two paths, seen from one element. An element that neither path has twice
is left if only the old path has it, entered if only the new one has, and hears nothing if both
have it in their shared beginning; an element that both have further down is left and entered
again. Whichever it is, the transitions of one element take turns, and they lead from whether the
old path has it to whether the new one has.
-/
import PointerRouting.Hover
import Mathlib.Data.List.Chain
import Mathlib.Data.List.Nodup

namespace PointerRouting.Transition

variable {K : Type}

/-! ## Taking turns -/

/-- Entering and leaving take turns and lead from within or without (`inside`) to within or without
(`final`). -/
def TakeTurns : (inside : Bool) → List (Transition K) → (final : Bool) → Prop
  | inside, [], final => inside = final
  | inside, .enter _ :: ts, final => inside = false ∧ TakeTurns true ts final
  | inside, .leave _ :: ts, final => inside = true ∧ TakeTurns false ts final

theorem TakeTurns.append : ∀ {a b c : Bool} {ts us : List (Transition K)}, TakeTurns a ts b →
    TakeTurns b us c → TakeTurns a (ts ++ us) c
  | _, _, _, [], _, rfl, h' => h'
  | _, _, _, .enter _ :: _, _, ⟨hi, h⟩, h' => ⟨hi, h.append h'⟩
  | _, _, _, .leave _ :: _, _, ⟨hi, h⟩, h' => ⟨hi, h.append h'⟩

theorem TakeTurns.isChain : ∀ {inside final : Bool} {ts : List (Transition K)},
    TakeTurns inside ts final → ts.IsChain (· ≠ ·)
  | _, _, [], _ => .nil
  | _, _, [t], _ => .singleton t
  | _, _, .enter _ :: .enter _ :: _, ⟨_, hi, _⟩ => by cases hi
  | _, _, .enter _ :: .leave _ :: _, ⟨_, h⟩ => .cons_cons (by simp) h.isChain
  | _, _, .leave _ :: .enter _ :: _, ⟨_, h⟩ => .cons_cons (by simp) h.isChain
  | _, _, .leave _ :: .leave _ :: _, ⟨_, hi, _⟩ => by cases hi

theorem TakeTurns.head? {ts : List (Transition K)} {final : Bool} (h : TakeTurns false ts final)
    (n : K) : ts.head? ≠ some (.leave n) := by
  rcases ts with _ | ⟨_ | m, ts⟩
  · simp
  · simp
  · cases h.1

/-- Where the turns lead is told by the last of them. -/
theorem TakeTurns.getLast? {inside final : Bool} {ts : List (Transition K)}
    (h : TakeTurns inside ts final) :
    (ts = [] ∧ final = inside) ∨ (∃ n, ts.getLast? = some (.enter n) ∧ final = true) ∨
      ∃ n, ts.getLast? = some (.leave n) ∧ final = false := by
  induction ts generalizing inside with
  | nil => exact .inl ⟨rfl, h.symm⟩
  | cons t ts ih =>
    have hlast : ∀ u, ts.getLast? = some u → (t :: ts).getLast? = some u := fun u hu => by
      rw [List.getLast?_cons, hu]
      rfl
    rcases t with n | n <;> rcases ih h.2 with ⟨rfl, hf⟩ | ⟨m, hm, hf⟩ | ⟨m, hm, hf⟩
    · exact .inr (.inl ⟨n, rfl, hf⟩)
    · exact .inr (.inl ⟨m, hlast _ hm, hf⟩)
    · exact .inr (.inr ⟨m, hlast _ hm, hf⟩)
    · exact .inr (.inr ⟨n, rfl, hf⟩)
    · exact .inr (.inl ⟨m, hlast _ hm, hf⟩)
    · exact .inr (.inr ⟨m, hlast _ hm, hf⟩)

/-! ## Between two paths -/

variable [DecidableEq K]

theorem dropShared_split : ∀ old new : List K, ∃ shared,
    old = shared ++ (dropShared old new).1 ∧ new = shared ++ (dropShared old new).2
  | [], _ => ⟨[], rfl, rfl⟩
  | _ :: _, [] => ⟨[], rfl, rfl⟩
  | a :: old, b :: new => by
    unfold dropShared
    split
    · rename_i hab
      subst hab
      obtain ⟨shared, ho, hn⟩ := dropShared_split old new
      exact ⟨a :: shared, congrArg (a :: ·) ho, congrArg (a :: ·) hn⟩
    · exact ⟨[], rfl, rfl⟩

/-- Only the order of the two paths tells which rest is which. -/
theorem dropShared_swap : ∀ old new : List K, dropShared new old = (dropShared old new).swap
  | [], [] => rfl
  | [], _ :: _ => rfl
  | _ :: _, [] => rfl
  | a :: old, b :: new => by
    by_cases hab : a = b
    · subst hab
      rw [dropShared, if_pos rfl, dropShared, if_pos rfl]
      exact dropShared_swap old new
    · rw [dropShared, if_neg (Ne.symm hab), dropShared, if_neg hab]
      rfl

theorem dropShared_append : ∀ shared old new : List K,
    dropShared (shared ++ old) (shared ++ new) = dropShared old new
  | [], _, _ => rfl
  | a :: shared, old, new => by
    rw [List.cons_append, List.cons_append, dropShared, if_pos rfl]
    exact dropShared_append shared old new

theorem between_self (path : List K) : between path path = [] := by
  have h : dropShared path path = ([], []) := by
    induction path with
    | nil => rfl
    | cons a path ih => rw [dropShared, if_pos rfl, ih]
  rw [between, h]
  rfl

theorem between_nil (path : List K) : between path [] = leaveAll path := by
  cases path <;> simp [between, dropShared, enterAll]

/-- The elements left come first; if the pointer goes nowhere, none is entered. -/
theorem between_split (old new : List K) : ∃ left entered : List K,
    between old new = left.map leave ++ entered.map enter ∧ (new = [] → entered = []) := by
  refine ⟨(dropShared old new).1.reverse, (dropShared old new).2.reverse, rfl, fun hnew => ?_⟩
  obtain ⟨shared, -, hsplit⟩ := dropShared_split old new
  rw [hnew] at hsplit ⊢
  rw [(List.append_eq_nil_iff.1 hsplit.symm).2, List.reverse_nil]

theorem between_eq_nil_iff (old new : List K) : between old new = [] ↔ old = new := by
  constructor
  · intro h
    obtain ⟨shared, hold, hnew⟩ := dropShared_split old new
    obtain ⟨hleft, hentered⟩ := List.append_eq_nil_iff.1 h
    rw [leaveAll, List.map_eq_nil_iff, List.reverse_eq_nil_iff] at hleft
    rw [enterAll, List.map_eq_nil_iff, List.reverse_eq_nil_iff] at hentered
    rw [hleft] at hold
    rw [hentered] at hnew
    exact hold.trans hnew.symm
  · rintro rfl
    exact between_self old

/-- Of the transitions to or from each element of a path one concerns a given element of it. -/
theorem filter_node {make : K → Transition K} (hmake : ∀ k, (make k).node = k) {path : List K}
    (h : path.Nodup) (n : K) :
    (path.reverse.map make).filter (·.node = n) = if n ∈ path then [make n] else [] := by
  rw [List.filter_map]
  simp only [Function.comp_def, hmake]
  rw [List.filter_eq, (List.nodup_reverse.2 h).count]
  simp only [List.mem_reverse]
  split <;> rfl

/-- On the way from one path to another an element is left if it is on the old one alone, and
entered if it is on the new one alone. -/
theorem takeTurns_between {old new : List K} (ho : old.Nodup) (hn : new.Nodup) (n : K) :
    TakeTurns (decide (n ∈ old)) ((between old new).filter (·.node = n)) (decide (n ∈ new)) := by
  obtain ⟨shared, hold, hnew⟩ := dropShared_split old new
  unfold between
  generalize dropShared old new = rest at hold hnew ⊢
  obtain ⟨left, entered⟩ := rest
  subst hold; subst hnew
  obtain ⟨-, hl, hleft⟩ := List.nodup_append.1 ho
  obtain ⟨-, he, hentered⟩ := List.nodup_append.1 hn
  have hfilter : (leaveAll left ++ enterAll entered).filter (·.node = n) =
      (if n ∈ left then [.leave n] else []) ++ if n ∈ entered then [.enter n] else [] := by
    rw [List.filter_append]
    exact congrArg₂ (· ++ ·) (filter_node (fun _ => rfl) hl n) (filter_node (fun _ => rfl) he n)
  dsimp only
  rw [hfilter]
  -- no path has an element twice, so what is shared is in neither rest
  by_cases hs : n ∈ shared
  · have hnl : n ∉ left := fun h => hleft n hs n h rfl
    have hne : n ∉ entered := fun h => hentered n hs n h rfl
    simp [hs, hnl, hne, TakeTurns]
  · by_cases hnl : n ∈ left <;> by_cases hne : n ∈ entered <;> simp [hs, hnl, hne, TakeTurns]

end PointerRouting.Transition
