/-
The entries of a tracker. In a tracker that is `Filed` every entry has the number it is filed under
and a path that is not empty, so a group of entries holds at most one for each pointer. What
`refresh`, `forget` and `reject` leave was there before, except perhaps for its details
(`Keeps`); only `setPath` stores anything else, and that for one pointer.
-/
import PointerRouting.Hover
import Mathlib.Data.List.Nodup

namespace PointerRouting.Hover

variable {K : Type} {h h' : Hover K} {id p : PointerId} {entry : HoverEntry K}

/-! ## Entries and paths -/

theorem ext_entries (he : ∀ id : PointerId, h.entries[id]? = h'.entries[id]?) : h = h' :=
  congrArg Hover.mk (Std.ExtTreeMap.ext_getElem? fun id => he id)

theorem path_of_entry (he : h.entries[id]? = some entry) : h.path id = entry.path := by
  rw [path, he]

theorem path_of_no_entry (he : h.entries[id]? = none) : h.path id = [] := by
  rw [path, he]

/-- An element is hovered if some pointer has it on its path. -/
theorem isOver_iff [DecidableEq K] (h : Hover K) (n : K) :
    h.isOver n = true ↔
      ∃ (id : PointerId) (entry : HoverEntry K), h.entries[id]? = some entry ∧ n ∈ entry.path := by
  simp [isOver, Std.ExtTreeMap.mem_toList_iff_getElem?_eq_some]

/-- Every entry is filed under the number of its pointer, which is over something. -/
structure Filed (h : Hover K) : Prop where
  id : ∀ (id : PointerId) (entry : HoverEntry K), h.entries[id]? = some entry →
    entry.pointer.id = id
  nonempty : ∀ (id : PointerId) (entry : HoverEntry K), h.entries[id]? = some entry →
    entry.path ≠ []

/-- No path holds an element twice, either. -/
structure Proper (h : Hover K) : Prop extends Filed h where
  nodup : ∀ id, (h.path id).Nodup

theorem proper_empty : (empty : Hover K).Proper where
  id id entry he := by simp [empty] at he
  nonempty id entry he := by simp [empty] at he
  nodup id := by rw [path_empty]; exact List.nodup_nil

/-- The details of what last confirmed that a pointer hovers, moved to another place. -/
def detailsAt (h : Hover K) (id : PointerId) (position : Point) : Details :=
  match h.details id with
  | some details => { details with position }
  | none => .bare position 0

theorem position_detailsAt (h : Hover K) (id : PointerId) (position : Point) :
    (h.detailsAt id position).position = position := by
  unfold detailsAt
  split <;> rfl

/-- Details that are of the place already are what moving them there comes to. -/
theorem detailsAt_of_entry (he : h.entries[id]? = some entry) {position : Point}
    (hposition : entry.details.position = position) :
    h.detailsAt id position = entry.details := by
  rw [detailsAt, details, he, ← hposition]
  rfl

/-! ## What operations leave and store -/

/-- Everything that is stored in `h'` is stored in `h`, except perhaps for the details. -/
def Keeps (h h' : Hover K) : Prop :=
  ∀ (id : PointerId) (entry' : HoverEntry K), h'.entries[id]? = some entry' →
    ∃ entry : HoverEntry K, h.entries[id]? = some entry ∧ entry.pointer = entry'.pointer ∧
      entry.path = entry'.path

theorem entries_refresh (h : Hover K) (id other : PointerId) (details : Details) :
    (h.refresh id details).entries[other]? =
      if id = other then h.entries[id]?.map fun entry => { entry with details }
      else h.entries[other]? := by
  rw [refresh, Std.ExtTreeMap.getElem?_modify]
  simp only [Std.LawfulEqCmp.compare_eq_iff_eq]

/-- Details that are stored already, or stored for nobody, change nothing. -/
theorem refresh_self {details : Details}
    (hd : ∀ entry : HoverEntry K, h.entries[id]? = some entry → entry.details = details) :
    h.refresh id details = h := by
  refine ext_entries fun other => ?_
  rw [entries_refresh]
  split
  · rename_i hid
    subst hid
    rcases he : h.entries[id]? with _ | entry
    · rfl
    · rw [← hd entry he]
      rfl
  · rfl

theorem keeps_refresh (h : Hover K) (id : PointerId) (details : Details) :
    h.Keeps (h.refresh id details) := by
  intro other entry' he
  rw [entries_refresh] at he
  split at he
  · rename_i hid
    subst hid
    obtain ⟨entry, hentry, rfl⟩ := Option.map_eq_some_iff.1 he
    exact ⟨entry, hentry, rfl, rfl⟩
  · exact ⟨entry', he, rfl, rfl⟩

theorem entries_forget (h : Hover K) (id other : PointerId) :
    (h.forget id).entries[other]? = if id = other then none else h.entries[other]? := by
  rw [forget, Std.ExtTreeMap.getElem?_erase]
  simp only [Std.LawfulEqCmp.compare_eq_iff_eq]

theorem keeps_forget (h : Hover K) (id : PointerId) : h.Keeps (h.forget id) := by
  intro other entry' he
  rw [entries_forget] at he
  split at he
  · cases he
  · exact ⟨entry', he, rfl, rfl⟩

/-- A path is stored for one pointer, and an empty one leaves that pointer without an entry. -/
theorem entries_setPath [DecidableEq K] (h : Hover K) (pointer : PointerIdentity)
    (details : Details) (path : List K) (other : PointerId) :
    (h.setPath pointer details path).1.entries[other]? =
      if pointer.id = other then (if path = [] then none else some ⟨pointer, details, path⟩)
      else h.entries[other]? := by
  cases path with
  | nil => exact entries_forget h pointer.id other
  | cons a rest =>
    simp only [setPath, List.isEmpty_cons, Bool.false_eq_true, if_false, reduceCtorEq]
    rw [Std.ExtTreeMap.getElem?_insert]
    simp only [Std.LawfulEqCmp.compare_eq_iff_eq]

theorem entries_reject (h : Hover K) (test : HoverEntry K → Bool) (id : PointerId) :
    (h.reject test).entries[id]? = h.entries[id]?.filter (!test ·) := by
  rw [reject, Std.ExtTreeMap.getElem?_filter']

theorem path_reject (h : Hover K) (test : HoverEntry K → Bool) (id : PointerId) :
    (h.reject test).path id = if h.entries[id]?.any test then [] else h.path id := by
  unfold path
  rw [entries_reject]
  rcases h.entries[id]? with _ | entry
  · rfl
  · cases htest : test entry <;> simp [Option.filter, htest]

theorem keeps_reject (h : Hover K) (test : HoverEntry K → Bool) : h.Keeps (h.reject test) := by
  intro id entry he
  rw [entries_reject] at he
  exact ⟨entry, (Option.filter_eq_some_iff.1 he).1, rfl, rfl⟩

/-- Where nothing is stored that was not stored before, what was filed stays filed. -/
theorem Keeps.filed (hk : h.Keeps h') (hf : h.Filed) : h'.Filed where
  id id entry he := by
    obtain ⟨old, hold, hp, -⟩ := hk id entry he
    rw [← hp]
    exact hf.id id old hold
  nonempty id entry he := by
    obtain ⟨old, hold, -, hp⟩ := hk id entry he
    rw [← hp]
    exact hf.nonempty id old hold

/-- Any path may be stored in a filed tracker, also one that no tree has. -/
theorem Filed.setPath [DecidableEq K] (hf : h.Filed) (pointer : PointerIdentity)
    (details : Details) (path : List K) : (h.setPath pointer details path).1.Filed := by
  -- what is stored now is the new entry, or was stored before
  have hcases : ∀ (id : PointerId) (entry : HoverEntry K),
      (h.setPath pointer details path).1.entries[id]? = some entry →
        entry.pointer.id = id ∧ entry.path ≠ [] := by
    intro id entry he
    rw [entries_setPath] at he
    split at he
    · rename_i hid
      split at he
      · cases he
      · rename_i hne
        cases he
        exact ⟨hid, hne⟩
    · exact ⟨hf.id id entry he, hf.nonempty id entry he⟩
  exact ⟨fun id entry he => (hcases id entry he).1, fun id entry he => (hcases id entry he).2⟩

/-! ## Groups of entries -/

theorem filter_key {α β : Type} [DecidableEq α] {a : α} {b : β} : ∀ {l : List (α × β)},
    (l.map Prod.fst).Nodup → (a, b) ∈ l → l.filter (·.1 = a) = [(a, b)]
  | [], _, hm => by cases hm
  | x :: l, hd, hm => by
    obtain ⟨hx, hl⟩ := List.nodup_cons.1 hd
    rcases List.mem_cons.1 hm with rfl | hm
    · have hrest : l.filter (·.1 = a) = [] := by
        rw [List.filter_eq_nil_iff]
        intro y hy he
        exact hx (List.mem_map.2 ⟨y, hy, by simpa using he⟩)
      rw [List.filter_cons_of_pos (by simp), hrest]
    · have hne : x.1 ≠ a := fun he => hx (List.mem_map.2 ⟨(a, b), hm, he.symm⟩)
      rw [List.filter_cons_of_neg (by simpa using hne), filter_key hl hm]

theorem nodup_keys (h : Hover K) : (h.entries.toList.map Prod.fst).Nodup := by
  rw [List.Nodup, List.pairwise_map]
  refine Std.ExtTreeMap.distinct_keys_toList.imp fun hne he => hne ?_
  exact Std.LawfulEqCmp.compare_eq_iff_eq.2 he

/-- A group of filed entries holds at most one entry for a pointer: what is filed under it. -/
theorem Filed.select_pointer (hf : h.Filed) (test : HoverEntry K → Bool) (p : PointerId) :
    (h.select test).filter (·.pointer.id = p) = (h.entries[p]?.filter test).toList := by
  have hkey : (h.entries.toList.map Prod.snd).filter (·.pointer.id = p) =
      (h.entries.toList.filter (·.1 = p)).map Prod.snd := by
    rw [List.filter_map]
    congr 1
    refine List.filter_congr fun x hx => ?_
    rw [Function.comp_apply, hf.id x.1 x.2 (Std.ExtTreeMap.mem_toList_iff_getElem?_eq_some.1 hx)]
  rw [select, List.filter_comm, hkey]
  rcases hp : h.entries[p]? with _ | entry
  · have hnone : h.entries.toList.filter (·.1 = p) = [] := by
      rw [List.filter_eq_nil_iff]
      intro x hx he
      have hx := Std.ExtTreeMap.mem_toList_iff_getElem?_eq_some.1 hx
      rw [of_decide_eq_true he, hp] at hx
      cases hx
    rw [hnone]
    rfl
  · rw [filter_key h.nodup_keys (Std.ExtTreeMap.mem_toList_iff_getElem?_eq_some.2 hp)]
    cases htest : test entry <;> simp [Option.filter, htest]

end PointerRouting.Hover
