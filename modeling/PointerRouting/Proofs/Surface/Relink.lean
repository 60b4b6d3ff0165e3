/-
Stored paths and the tree. A path is the lineage of its last element when it is stored, and nothing
but giving one of its elements another parent can change that; telling of the removal of an element
ends the hovering over it. So in every run that begins with an empty tracker a stored path is the
lineage that its last element has now, unless an element of it is `Pending`: given another parent
since the telling of its removal began for the last time. Where nothing is pending, a pointer is
over exactly what its deepest element lies within.

The invariant (`Follows`) names the elements that are excused. A happening excuses those that it
relinks; and the one whose removal it tells of is on no path any longer.
-/
import PointerRouting.Proofs.Surface.Run
import PointerRouting.Scene

namespace PointerRouting

variable {σ K : Type} [Host σ K]

/-! ## Relinked and not told of -/

/-- The element whose removal a happening tells of. -/
def Happening.detached : Happening σ K → Option K
  | .detach element => some element
  | _ => none

namespace Surface

/-- Between the surfaces `s` and `t` of a run the element `n` is given another parent, if only for
a while. -/
def Relinks (s t : Surface σ K) (n : K) : Prop :=
  Host.parentOf t.host n ≠ Host.parentOf s.host n ∨
    Relinked n s.host (t.log.drop s.log.length)

variable [DecidableEq K]

instance (s t : Surface σ K) (n : K) : Decidable (s.Relinks t n) :=
  inferInstanceAs (Decidable (_ ∨ _))

/-- In a run from `s` the element `n` is given another parent in a happening, and no later one
tells of its removal. -/
def Pending (n : K) : Surface σ K → List (Happening σ K) → Prop
  | _, [] => False
  | s, happening :: later =>
    match s.after happening with
    | none => False
    | some t =>
      (s.Relinks t n ∧ ∀ next ∈ later, next.detached ≠ some n) ∨ Pending n t later

instance decidablePending (n : K) : ∀ (s : Surface σ K) (happenings : List (Happening σ K)),
    Decidable (Pending n s happenings)
  | _, [] => .isFalse id
  | s, happening :: later =>
    have decide : ∀ after : Option (Surface σ K), Decidable (match after with
        | none => False
        | some t =>
          (s.Relinks t n ∧ ∀ next ∈ later, next.detached ≠ some n) ∨ Pending n t later)
      | none => .isFalse id
      | some t =>
        have := decidablePending n t later
        inferInstanceAs (Decidable (_ ∨ _))
    decide (s.after happening)

/-! ## Paths that follow the tree -/

/-- Every stored path without an excused element is the lineage of its last element. -/
def Follows (s : Surface σ K) (excused : K → Prop) : Prop :=
  ∀ (id : PointerId) (entry : HoverEntry K), s.hover.entries[id]? = some entry →
    (∀ n ∈ entry.path, ¬ excused n) →
    ∃ limit leaf, Tree.lineage (Host.parentOf s.host) limit leaf = some entry.path

omit [DecidableEq K] in
theorem Follows.mono {s : Surface σ K} {excused more : K → Prop} (h : s.Follows excused)
    (hmore : ∀ n, excused n → more n) : s.Follows more :=
  fun id entry he hclean => h id entry he fun n hn hx => hclean n hn (hmore n hx)

theorem not_mem_of_detached {s t : Surface σ K} {happening : Happening σ K} {n : K}
    (hd : happening.detached = some n) (h : s.after happening = some t) {id : PointerId}
    {entry : HoverEntry K} (he : t.hover.entries[id]? = some entry) : n ∉ entry.path := by
  cases happening <;> cases hd
  cases h
  rw [show (s.detach n).2 = s.endHoverWhere fun entry => decide (n ∈ entry.path) from rfl,
    hover_endHoverWhere, Hover.entries_reject] at he
  simpa using (Option.filter_eq_some_iff.1 he).2

theorem follows_of_after {s t : Surface σ K} {happening : Happening σ K} {excused : K → Prop}
    (hf : s.hover.Filed) (hs : s.Follows excused) (h : s.after happening = some t) :
    t.Follows fun n => (excused n ∧ happening.detached ≠ some n) ∨ s.Relinks t n := by
  intro id entry he hclean
  have hparent : ∀ n ∈ entry.path, Host.parentOf t.host n = Host.parentOf s.host n :=
    fun n hn => Classical.not_not.1 fun hne => hclean n hn (.inr (.inl hne))
  -- a path that was there before has no element whose removal the happening tells of
  have hkept : ∀ old : HoverEntry K, s.hover.entries[id]? = some old → old.path = entry.path →
      ∃ limit leaf, Tree.lineage (Host.parentOf t.host) limit leaf = some entry.path := by
    intro old hold hpath
    rw [← hpath] at hparent ⊢
    obtain ⟨limit, leaf, hl⟩ := hs id old hold fun n hn hx => by
      rw [hpath] at hn
      by_cases hd : happening.detached = some n
      · exact not_mem_of_detached hd h he hn
      · exact hclean n hn (.inl ⟨hx, hd⟩)
    exact ⟨limit, leaf, Tree.lineage_congr _ _ limit leaf old.path hl hparent⟩
  rcases change_of_after hf h with ⟨host, -, rfl⟩ | ⟨ds, hds⟩
  · exact hkept entry he rfl
  rcases hds.stored id entry he with ⟨old, hold, -, hpath⟩ |
    ⟨-, before, later, m, limit, leaf, rfl, hm, hl⟩
  · exact hkept old hold hpath
  · -- the path was the lineage at `m`, so only the deliveries after that could spoil it
    refine ⟨limit, leaf, Tree.lineage_congr _ _ limit leaf entry.path hl fun n hn => ?_⟩
    obtain ⟨m', hm', hlater⟩ := Stage.told_append.1 hds.told
    cases hm'.unique hm
    refine parentOf_of_not_relinked hlater fun hr => hclean n hn (.inr (.inr ?_))
    rw [hds.told.drop_log]
    exact (relinked_append hm).2 (.inr hr)

theorem follows_of_run : ∀ {s t : Surface σ K} {happenings : List (Happening σ K)}
    {excused : K → Prop}, s.hover.Proper → s.Follows excused → s.run happenings = some t →
      t.Follows fun n =>
        (excused n ∧ ∀ next ∈ happenings, next.detached ≠ some n) ∨ Pending n s happenings
  | _, _, [], _, _, hs, h => by
    cases h
    exact hs.mono fun n hx => .inl ⟨hx, by simp⟩
  | s, t, happening :: later, excused, hp, hs, h => by
    obtain ⟨m, hm, hrest⟩ := run_cons.1 h
    refine (follows_of_run (proper_of_after hp hm) (follows_of_after hp.toFiled hs hm) hrest).mono ?_
    intro n hx
    unfold Pending
    rw [hm]
    rcases hx with ⟨⟨hx, hd⟩ | hr, hlater⟩ | hpend
    · exact .inl ⟨hx, List.forall_mem_cons.2 ⟨hd, hlater⟩⟩
    · exact .inr (.inl ⟨hr, hlater⟩)
    · exact .inr (.inr hpend)

/-- Where nothing is excused a pointer is over exactly what its deepest element lies within. -/
theorem Follows.isOver_iff {s : Surface σ K} (hs : s.Follows fun _ => False) (n : K) :
    s.hover.isOver n = true ↔ ∃ id leaf, s.hover.deepest id = some leaf ∧
      Tree.Within (Host.parentOf s.host) leaf n := by
  have hleaf : ∀ (id : PointerId) (entry : HoverEntry K), s.hover.entries[id]? = some entry →
      ∃ leaf, s.hover.deepest id = some leaf ∧
        ∀ a, a ∈ entry.path ↔ Tree.Within (Host.parentOf s.host) leaf a := by
    intro id entry he
    obtain ⟨limit, leaf, hl⟩ := hs id entry he fun _ _ hx => hx
    refine ⟨leaf, ?_, Tree.mem_lineage _ limit leaf entry.path hl⟩
    rw [Hover.deepest, Hover.path_of_entry he, Tree.getLast?_lineage hl]
  rw [Hover.isOver_iff]
  constructor
  · rintro ⟨id, entry, he, hn⟩
    obtain ⟨leaf, hdeepest, hmem⟩ := hleaf id entry he
    exact ⟨id, leaf, hdeepest, (hmem n).1 hn⟩
  · rintro ⟨id, leaf, hdeepest, hw⟩
    rcases he : s.hover.entries[id]? with _ | entry
    · rw [Hover.deepest, Hover.path_of_no_entry he] at hdeepest
      cases hdeepest
    · obtain ⟨leaf', hdeepest', hmem⟩ := hleaf id entry he
      rw [hdeepest'] at hdeepest
      cases hdeepest
      exact ⟨id, entry, he, (hmem n).2 hw⟩

end Surface

/-- In a run that begins with an empty tracker every stored path on which nothing is pending is the
lineage of its last element; and if nothing at all is pending, a pointer is over exactly what its
deepest element lies within. -/
theorem stored_paths_follow_tree [DecidableEq K] {host : σ} {happenings : List (Happening σ K)}
    {s : Surface σ K} (h : Surface.run { host } happenings = some s) :
    (∀ (id : PointerId) (entry : HoverEntry K), s.hover.entries[id]? = some entry →
      (∀ n ∈ entry.path, ¬ Surface.Pending n { host } happenings) →
      ∃ limit leaf, entry.path.getLast? = some leaf ∧
        Tree.lineage (Host.parentOf s.host) limit leaf = some entry.path) ∧
    ((∀ n, ¬ Surface.Pending n { host } happenings) → ∀ n, s.hover.isOver n = true ↔
      ∃ id leaf, s.hover.deepest id = some leaf ∧
        Tree.Within (Host.parentOf s.host) leaf n) := by
  have hstart : Surface.Follows ({ host } : Surface σ K) fun _ => False :=
    fun id entry he => by simp [Hover.empty] at he
  have hfollows : s.Follows fun n => Surface.Pending n { host } happenings :=
    (Surface.follows_of_run Hover.proper_empty hstart h).mono fun n hx => by simpa using hx
  refine ⟨fun id entry he hclean => ?_, fun hclean => ?_⟩
  · obtain ⟨limit, leaf, hl⟩ := hfollows id entry he hclean
    exact ⟨limit, leaf, Tree.getLast?_lineage hl, hl⟩
  · exact (hfollows.mono hclean).isOver_iff

/-- A mouse comes to be over `2`, which then takes `7` into it; `5` moves under `0` by itself. Both
are pending, and neither is on the path from `0` down to `2`. -/
theorem path_to_two_is_kept :
    let mouse : PointerIdentity := ⟨⟨1, Nat.one_pos⟩, .mouse, true⟩
    let device : Device Nat := .ofPointer ⟨1⟩ mouse .standard
    let scene : Scene Nat := { root := ⟨1⟩, links := [(2, 1), (1, 0)], backdrop := some 2 }
    let host : Scene Nat := { scene with reactions := [⟨2, .enter, [.link 7 (some 2)]⟩] }
    let move : Report := { kind := .move, device := ⟨1⟩, root := ⟨1⟩, time := 0, position := ⟨0, 0⟩ }
    let happenings : List (Happening (Scene Nat) Nat) :=
      [.process device 3 move, .become ((host.link 7 (some 2)).link 5 (some 0))]
    ∃ s entry, Surface.run { host } happenings = some s ∧
      s.hover.entries[mouse.id]? = some entry ∧ entry.path = [0, 1, 2] ∧
      Surface.Pending 5 { host } happenings ∧ Surface.Pending 7 { host } happenings ∧
      (∀ n ∈ entry.path, ¬ Surface.Pending n { host } happenings) ∧
      ∃ limit leaf, entry.path.getLast? = some leaf ∧
        Tree.lineage (Host.parentOf s.host) limit leaf = some entry.path := by
  intro mouse device scene host move happenings
  obtain ⟨s, hs, hentry⟩ := Option.bind_eq_some_iff.1 (by decide :
    ((Surface.run { host } happenings).bind fun s => s.hover.entries[mouse.id]?.map (·.path)) =
      some [0, 1, 2])
  obtain ⟨entry, he, hpath⟩ := Option.map_eq_some_iff.1 hentry
  have hclean : ∀ n ∈ entry.path, ¬ Surface.Pending n { host } happenings := by
    rw [hpath]
    decide
  exact ⟨s, entry, hs, he, hpath, by decide, by decide, hclean,
    (stored_paths_follow_tree hs).1 mouse.id entry he hclean⟩

end PointerRouting
