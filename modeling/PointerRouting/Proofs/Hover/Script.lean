/-
What the storing of a path is answered with. The transitions from the old path to the new one are a
script for a stack that has the deepest element on top: those left are popped, and those entered are
pushed, the one listed last first (`replay`). What stays is the longest beginning that both paths
have, so no shorter script makes the one path of the other; and the scripts of a pointer, replayed
one after another, always give the path that is stored for it (`setPath_answers_shortest_script`).

All this holds of any lists. Paths that no tree has, or that have an element twice, are no exception.
-/
import PointerRouting.Proofs.Hover.Transition

namespace PointerRouting

variable {K : Type}

namespace Transition

/-! ## Where two paths part -/

/-- Two paths part after `shared`: what comes after it are the elements of `left` in the one and of
`entered` in the other, both listed from the deepest up. -/
structure Parts (old new shared left entered : List K) : Prop where
  old_eq : old = shared ++ left.reverse
  new_eq : new = shared ++ entered.reverse
  apart : ∀ a ∈ left.reverse.head?, ∀ b ∈ entered.reverse.head?, a ≠ b

section

variable {old new shared left entered other : List K}

/-- What is shared by paths that part is the longest beginning that both have. -/
theorem Parts.longest (h : Parts old new shared left entered) (ho : other <+: old)
    (hn : other <+: new) : other <+: shared := by
  rw [h.old_eq] at ho
  rw [h.new_eq] at hn
  rcases List.prefix_or_prefix_of_prefix ho (List.prefix_append shared left.reverse) with hle | hge
  · exact hle
  · obtain ⟨rest, rfl⟩ := hge
    have hleft := (List.prefix_append_right_inj shared).1 ho
    have hentered := (List.prefix_append_right_inj shared).1 hn
    cases rest with
    | nil => simp
    | cons a rest =>
      -- a longer beginning would have both paths go on with the same element
      obtain ⟨after, hafter⟩ := hleft
      obtain ⟨after', hafter'⟩ := hentered
      exact absurd rfl (h.apart a (by rw [← hafter]; rfl) a (by rw [← hafter']; rfl))

/-- However else two paths are taken apart, there is no less to leave and to enter. -/
theorem Parts.shortest (h : Parts old new shared left entered) {left' entered' : List K}
    (ho : old = other ++ left'.reverse) (hn : new = other ++ entered'.reverse) :
    left.length + entered.length ≤ left'.length + entered'.length := by
  have hle := (h.longest ⟨_, ho.symm⟩ ⟨_, hn.symm⟩).length_le
  have hold := congrArg List.length (h.old_eq.symm.trans ho)
  have hnew := congrArg List.length (h.new_eq.symm.trans hn)
  simp only [List.length_append, List.length_reverse] at hold hnew
  omega

end

/-! ## Scripts -/

section

variable [DecidableEq K]

theorem dropShared_apart : ∀ (old new : List K), ∀ a ∈ (dropShared old new).1.head?,
    ∀ b ∈ (dropShared old new).2.head?, a ≠ b
  | [], _, _, ha, _, _ => by cases ha
  | _ :: _, [], _, _, _, hb => by cases hb
  | x :: old, y :: new, a, ha, b, hb => by
    unfold dropShared at ha hb
    split at ha
    · rename_i hxy
      rw [if_pos hxy] at hb
      exact dropShared_apart old new a ha b hb
    · rename_i hxy
      rw [if_neg hxy] at hb
      cases ha
      cases hb
      exact hxy

/-- The transitions between two paths are those of the way they part. -/
theorem exists_parts (old new : List K) : ∃ shared left entered,
    between old new = left.map leave ++ entered.map enter ∧ Parts old new shared left entered := by
  obtain ⟨shared, hold, hnew⟩ := dropShared_split old new
  have hapart := dropShared_apart old new
  refine ⟨shared, (dropShared old new).1.reverse, (dropShared old new).2.reverse, rfl, ?_⟩
  constructor
  · rw [List.reverse_reverse]
    exact hold
  · rw [List.reverse_reverse]
    exact hnew
  · rw [List.reverse_reverse, List.reverse_reverse]
    exact hapart

/-- A path after a script, if that can be carried out: an element left is popped off its end, and an
element entered is pushed on it after all that is listed behind has been done. -/
def replay (path : List K) : List (Transition K) → Option (List K)
  | [] => some path
  | .leave n :: script => if path.getLast? = some n then replay path.dropLast script else none
  | .enter n :: script => (replay path script).map (· ++ [n])

theorem replay_enter (path : List K) : ∀ entered : List K,
    replay path (entered.map enter) = some (path ++ entered.reverse)
  | [] => by simp [replay]
  | n :: entered => by
    rw [List.map_cons, replay, replay_enter path entered, List.reverse_cons, ← List.append_assoc]
    rfl

theorem replay_leave (path : List K) (script : List (Transition K)) : ∀ left : List K,
    replay (path ++ left.reverse) (left.map leave ++ script) = replay path script
  | [] => by simp
  | n :: left => by
    rw [List.reverse_cons, ← List.append_assoc, List.map_cons, List.cons_append, replay,
      List.getLast?_concat, if_pos rfl, List.dropLast_concat]
    exact replay_leave path script left

theorem replay_between (old new : List K) : replay old (between old new) = some new := by
  obtain ⟨shared, left, entered, hbetween, hparts⟩ := exists_parts old new
  calc replay old (between old new)
      = replay (shared ++ left.reverse) (left.map leave ++ entered.map enter) := by
        rw [hbetween, ← hparts.old_eq]
    _ = some (shared ++ entered.reverse) := by rw [replay_leave, replay_enter]
    _ = some new := by rw [← hparts.new_eq]

/-- A script takes two paths apart, with one transition for each element that is not shared. -/
theorem parts_of_replay : ∀ {script : List (Transition K)} {old new : List K},
    replay old script = some new → ∃ shared left entered : List K, old = shared ++ left.reverse ∧
      new = shared ++ entered.reverse ∧ script.length = left.length + entered.length
  | [], old, _, h => by
    cases h
    exact ⟨old, [], [], by simp, by simp, rfl⟩
  | .leave n :: script, old, new, h => by
    rw [replay] at h
    split at h
    · rename_i hlast
      obtain ⟨shared, left, entered, hold, hnew, hlength⟩ := parts_of_replay h
      refine ⟨shared, n :: left, entered, ?_, hnew, ?_⟩
      · rw [List.reverse_cons, ← List.append_assoc, ← hold, List.dropLast_append_getLast? n hlast]
      · rw [List.length_cons, List.length_cons, hlength]
        omega
    · cases h
  | .enter n :: script, old, new, h => by
    rw [replay] at h
    obtain ⟨path, hpath, rfl⟩ := Option.map_eq_some_iff.1 h
    obtain ⟨shared, left, entered, hold, hnew, hlength⟩ := parts_of_replay hpath
    refine ⟨shared, left, n :: entered, hold, ?_, ?_⟩
    · rw [hnew, List.reverse_cons, List.append_assoc]
    · rw [List.length_cons, List.length_cons, hlength]
      omega

theorem length_between_le {old new : List K} {script : List (Transition K)}
    (h : replay old script = some new) : (between old new).length ≤ script.length := by
  obtain ⟨shared, left, entered, hbetween, hparts⟩ := exists_parts old new
  obtain ⟨other, left', entered', hold, hnew, hlength⟩ := parts_of_replay h
  have hle := hparts.shortest hold hnew
  rw [hbetween, List.length_append, List.length_map, List.length_map, hlength]
  exact hle

end

end Transition

/-! ## Paths stored one after another -/

namespace Hover

/-- A path to be stored for a pointer. -/
structure Placing (K : Type) where
  pointer : PointerIdentity
  details : Details
  path : List K

variable [DecidableEq K]

/-- The tracker after some paths have been stored, from the first one on. -/
def placeAll (h : Hover K) (placings : List (Placing K)) : Hover K :=
  placings.foldl (fun h x => (h.setPath x.pointer x.details x.path).1) h

/-- The scripts that the storing of some paths is answered with where they are of the pointer `p`. -/
def scriptsOf (p : PointerId) : Hover K → List (Placing K) → List (List (Transition K))
  | _, [] => []
  | h, x :: placings =>
    let answer := h.setPath x.pointer x.details x.path
    if x.pointer.id = p then answer.2 :: scriptsOf p answer.1 placings
    else scriptsOf p answer.1 placings

theorem replay_scriptsOf (p : PointerId) : ∀ (placings : List (Placing K)) (h : Hover K),
    (scriptsOf p h placings).foldlM Transition.replay (h.path p) =
      some ((h.placeAll placings).path p)
  | [], _ => rfl
  | x :: placings, h => by
    have ih := replay_scriptsOf p placings (h.setPath x.pointer x.details x.path).1
    have hpath := h.path_setPath x.pointer x.details x.path p
    rw [scriptsOf]
    split
    · rename_i hp
      rw [if_pos hp] at hpath
      have hreplay : Transition.replay (h.path p) (h.setPath x.pointer x.details x.path).2 =
          some x.path := by
        rw [← hp]
        exact Transition.replay_between (h.path x.pointer.id) x.path
      rw [hpath] at ih
      rw [List.foldlM_cons, hreplay]
      exact ih
    · rename_i hp
      rw [if_neg hp] at hpath
      rw [hpath] at ih
      exact ih

/-- Storing a path for a pointer is answered with elements left and then elements entered, by which
the old path and the new one go on after the longest beginning that both have. So it is answered
with nothing just if they are the same. The answer is a script that makes the new path, which is
then stored, of the old one, and there is no shorter one. However many paths are stored, for
whatever pointers, what a pointer's own are answered with makes the path stored for it in the end of
the one that was stored for it in the beginning. -/
theorem setPath_answers_shortest_script (h : Hover K) (pointer : PointerIdentity)
    (details : Details) (new : List K) :
    let old := h.path pointer.id
    let answer := h.setPath pointer details new
    (∃ shared left entered, answer.2 = left.map .leave ++ entered.map .enter ∧
      Transition.Parts old new shared left entered ∧
      ∀ other, other <+: old → other <+: new → other <+: shared) ∧
    (answer.2 = [] ↔ old = new) ∧ answer.1.path pointer.id = new ∧
    Transition.replay old answer.2 = some new ∧
    (∀ script, Transition.replay old script = some new → answer.2.length ≤ script.length) ∧
    ∀ (p : PointerId) (placings : List (Placing K)),
      (scriptsOf p h placings).foldlM Transition.replay (h.path p) =
        some ((h.placeAll placings).path p) := by
  intro old answer
  obtain ⟨shared, left, entered, hbetween, hparts⟩ := Transition.exists_parts old new
  refine ⟨⟨shared, left, entered, hbetween, hparts, fun other ho hn => hparts.longest ho hn⟩,
    Transition.between_eq_nil_iff old new, ?_, Transition.replay_between old new,
    fun script hscript => Transition.length_between_le hscript,
    fun p placings => replay_scriptsOf p placings h⟩
  exact (h.path_setPath pointer details new pointer.id).trans (if_pos rfl)

/-- Paths may have an element twice, and may go on after an end that they share. -/
example : Transition.between [0, 1, 2, 1] [0, 1, 1] = [.leave 1, .leave 2, .enter 1] ∧
    Transition.between [0, 1] [0, 1, 0, 3] = [.enter 3, .enter 0] ∧
    Transition.replay [0, 1] [.enter 3, .enter 0] = some [0, 1, 0, 3] := by
  decide

end Hover

end PointerRouting
