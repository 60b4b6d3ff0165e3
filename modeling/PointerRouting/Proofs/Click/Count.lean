/-
What a press counts as, said without the memory that counts it. Two presses made one after the
other are `Joined` if the later falls in the rectangle around the earlier, by the rule in force at
the earlier, and comes within the interval in force at the later. A press counts as the length of
the longest block of presses that it ends and in which all neighbours are joined, up to the largest
count there is.

The memory holds the last press and its rule as far as the next press can tell, so one more press
adds to the block if it is joined to the last one, and is a block by itself if it is not.
-/
import PointerRouting.Click
import Mathlib.Algebra.Group.Nat.Defs
import Mathlib.Data.List.Chain
import Mathlib.Data.List.Induction

namespace PointerRouting

/-! ## Blocks of presses -/

/-- A press, and the rule in force when it is made. -/
structure RuledPress where
  rule : ClickRule
  press : Press
  deriving DecidableEq

namespace RuledPress

/-- The later of two presses is near enough to the earlier, in place and in time. -/
def Joined (earlier later : RuledPress) : Prop :=
  (Rect.around earlier.press.position earlier.rule.area).covers later.press.position = true ∧
    later.press.time - earlier.press.time ≤ later.rule.interval

instance (earlier later : RuledPress) : Decidable (Joined earlier later) :=
  inferInstanceAs (Decidable (_ ∧ _))

/-- The longest block at the end of some presses in which all neighbours are joined. -/
structure LastBlock (presses block : List RuledPress) : Prop where
  suffix : block <:+ presses
  joined : block.IsChain Joined
  longest : ∀ other, other <:+ presses → other.IsChain Joined → other.length ≤ block.length

variable {earlier block : List RuledPress} {p q : RuledPress}

theorem lastBlock_singleton (p : RuledPress) : LastBlock [p] [p] where
  suffix := List.suffix_refl [p]
  joined := .singleton p
  longest _ ho _ := ho.length_le

/-- A press that is joined to the last one goes on with its block. -/
theorem LastBlock.concat_joined (h : LastBlock (earlier ++ [p]) block) (hpq : Joined p q) :
    LastBlock (earlier ++ [p] ++ [q]) (block ++ [q]) where
  suffix := List.suffix_concat_iff.2 (.inr ⟨block, rfl, h.suffix⟩)
  joined := by
    have hlast : ∀ x ∈ block.getLast?, x = p := by
      rcases List.suffix_concat_iff.1 h.suffix with rfl | ⟨front, rfl, -⟩ <;> simp
    refine List.isChain_append.2 ⟨h.joined, .singleton q, fun x hx y hy => ?_⟩
    obtain rfl := hlast x hx
    obtain rfl := Option.some.inj hy
    exact hpq
  longest other ho hchain := by
    rcases List.suffix_concat_iff.1 ho with rfl | ⟨front, rfl, hfront⟩
    · exact Nat.zero_le _
    · have hle := h.longest front hfront (List.isChain_append.1 hchain).1
      simpa using hle

/-- A press that is not joined to the last one is a block by itself. -/
theorem lastBlock_concat_apart (hpq : ¬ Joined p q) :
    LastBlock (earlier ++ [p] ++ [q]) [q] where
  suffix := List.suffix_append _ [q]
  joined := .singleton q
  longest other ho hchain := by
    rcases List.suffix_concat_iff.1 ho with rfl | ⟨front, rfl, hfront⟩
    · exact Nat.zero_le _
    · -- whatever stands before the press ends with the one that it is not joined to
      rcases List.suffix_concat_iff.1 hfront with rfl | ⟨rest, rfl, -⟩
      · exact Nat.le_refl 1
      · exact absurd ((List.isChain_append.1 hchain).2.2 p (by simp) q rfl) hpq

end RuledPress

/-! ## The memory of presses -/

namespace Clicks

open RuledPress

/-- The memory after some more presses. -/
def pressAll (c : Clicks) (presses : List RuledPress) : Clicks :=
  presses.foldl (fun c p => c.press p.rule p.press) c

theorem pressAll_append (c : Clicks) (presses more : List RuledPress) :
    c.pressAll (presses ++ more) = (c.pressAll presses).pressAll more :=
  List.foldl_append

/-- The memory after some presses, from the first one on. -/
def after (presses : List RuledPress) : Clicks := fresh.pressAll presses

theorem after_concat (earlier : List RuledPress) (p : RuledPress) :
    after (earlier ++ [p]) = (after earlier).press p.rule p.press :=
  fresh.pressAll_append earlier [p]

theorem count_after_singleton (p : RuledPress) : (after [p]).count = 1 := by
  -- whether or not the memory of no press takes it for the next one, it has counted none so far
  show min ((if fresh.continues p.rule p.press then 0 else 0) + 1) countLimit = 1
  rw [ite_self]
  rfl

theorem continues_press (c : Clicks) (p q : RuledPress) :
    (c.press p.rule p.press).continues q.rule q.press = true ↔ Joined p q := by
  rw [continues, Bool.and_eq_true, decide_eq_true_iff]
  exact Iff.rfl

/-- What a press counts as depends on the memory before it by the last press and its count. -/
theorem count_press_press (c : Clicks) (p q : RuledPress) :
    ((c.press p.rule p.press).press q.rule q.press).count =
      if Joined p q then min ((c.press p.rule p.press).count + 1) countLimit else 1 := by
  rw [press.eq_def (c.press p.rule p.press)]
  by_cases hpq : Joined p q
  · rw [if_pos hpq, if_pos ((c.continues_press p q).2 hpq)]
  · rw [if_neg hpq, if_neg (mt (c.continues_press p q).1 hpq)]
    rfl

theorem count_after_concat (earlier : List RuledPress) (p q : RuledPress) :
    (after (earlier ++ [p] ++ [q])).count =
      if Joined p q then min ((after (earlier ++ [p])).count + 1) countLimit else 1 := by
  rw [after_concat _ q, after_concat _ p]
  exact (after earlier).count_press_press p q

/-- The last of some presses counts as the length of the longest block at their end in which all
neighbours are joined, or as the largest 32-bit word if the block is longer. -/
theorem count_is_length_of_last_block (earlier : List RuledPress) (last : RuledPress) :
    ∃ block, LastBlock (earlier ++ [last]) block ∧ 1 ≤ block.length ∧
      (after (earlier ++ [last])).count = min block.length (2 ^ 32 - 1) := by
  induction earlier using List.reverseRecOn generalizing last with
  | nil => exact ⟨[last], lastBlock_singleton last, Nat.le_refl 1, count_after_singleton last⟩
  | append_singleton earlier p ih =>
    obtain ⟨block, hblock, -, hcount⟩ := ih p
    rw [count_after_concat, hcount]
    by_cases hjoined : Joined p last
    · refine ⟨block ++ [last], hblock.concat_joined hjoined, by simp, ?_⟩
      rw [if_pos hjoined, List.length_append, List.length_singleton]
      show min (min block.length (2 ^ 32 - 1) + 1) (2 ^ 32 - 1) = _
      omega
    · exact ⟨[last], lastBlock_concat_apart hjoined, Nat.le_refl 1, if_neg hjoined⟩

/-- A press on the corner of the area left by the one before counts as its second; the next one is
as near to that, but its own rule gives it less time. -/
example :
    let press (time : Nat) (x : Float) (button : Button) (interval : Nat) : RuledPress :=
      ⟨⟨interval, ⟨4, 4⟩⟩, ⟨time, ⟨x, x⟩, button⟩⟩
    [1, 2, 3].map (fun n => (after ([press 1000 20 .left 500, press 1500 22 .right 500,
      press 1600 22 .left 99].take n)).count) = [1, 2, 1] := by
  decide +kernel

end Clicks

end PointerRouting
