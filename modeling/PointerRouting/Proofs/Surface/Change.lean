/-
What a change of a surface comes to, whichever way it was made (`Change`): every pointer is told
exactly of the transitions from its path before to its path after, and a path that was not there
before is one that the tree had at some moment of the change. Putting a pointer over an element,
ending the hovering of one pointer or of a group of them, and sending events are such changes, and
all of them keep a tracker proper.
-/
import PointerRouting.Surface
import PointerRouting.Proofs.Hover.Entry
import PointerRouting.Proofs.Hover.Transition
import PointerRouting.Proofs.Stage.Delivery
import PointerRouting.Proofs.Tree.Ancestry

namespace PointerRouting

variable {σ K : Type}

/-! ## The transitions that deliveries tell of -/

/-- The transition of the pointer `p` that a delivery tells of. -/
def Delivery.transition (p : PointerId) (d : Delivery K) : Option (Transition K) :=
  if d.event.pointer.id = p then
    match d.event.payload with
    | .enter => some (.enter d.node)
    | .leave => some (.leave d.node)
    | _ => none
  else none

/-- The transitions of the pointer `p` that deliveries tell of, in order. -/
def transitionsOf (p : PointerId) (log : List (Delivery K)) : List (Transition K) :=
  log.filterMap (Delivery.transition p)

theorem transitionsOf_append (p : PointerId) (log more : List (Delivery K)) :
    transitionsOf p (log ++ more) = transitionsOf p log ++ transitionsOf p more :=
  List.filterMap_append

theorem transitionsOf_plain (p : PointerId) {ds : List (Delivery K)}
    (h : ∀ d ∈ ds, d.event.payload ≠ .enter ∧ d.event.payload ≠ .leave) :
    transitionsOf p ds = [] := by
  rw [transitionsOf, List.filterMap_eq_nil_iff]
  intro d hd
  obtain ⟨henter, hleave⟩ := h d hd
  unfold Delivery.transition
  split
  · split <;> simp_all
  · rfl

/-- The deliveries tell of these transitions and of nothing else, each to the element it concerns,
of whatever pointer. -/
def TellOf (transitions : List (Transition K)) (ds : List (Delivery K)) : Prop :=
  ds.map (fun d => (d.node, d.event.target, d.event.payload)) =
    transitions.map fun t => (t.node, t.node, t.payload)

theorem TellOf.crosses {transitions : List (Transition K)} {ds : List (Delivery K)}
    (h : TellOf transitions ds) :
    ∀ d ∈ ds, d.event.payload = .enter ∨ d.event.payload = .leave := by
  intro d hd
  have hmem := List.mem_map_of_mem (f := fun d => (d.node, d.event.target, d.event.payload)) hd
  rw [h] at hmem
  obtain ⟨t, -, he⟩ := List.mem_map.1 hmem
  have hpayload : t.payload = d.event.payload := congrArg (·.2.2) he
  rw [← hpayload]
  cases t with
  | enter _ => exact .inl rfl
  | leave _ => exact .inr rfl

/-- Departures are told first, and arrivals after them. -/
theorem TellOf.split [DecidableEq K] {old new : List K} {ds : List (Delivery K)}
    (h : TellOf (Transition.between old new) ds) : ∃ left entered : List K,
      ds.map (fun d => (d.node, d.event.target, d.event.payload)) =
        left.map (fun n => (n, n, .leave)) ++ entered.map (fun n => (n, n, .enter)) ∧
      Transition.between old new = left.map .leave ++ entered.map .enter ∧
      (new = [] → entered = []) := by
  obtain ⟨left, entered, hbetween, hgone⟩ := Transition.between_split old new
  refine ⟨left, entered, h.trans ?_, hbetween, hgone⟩
  rw [hbetween, List.map_append, List.map_map, List.map_map]
  rfl

/-! ## Announcements -/

variable [Host σ K]

namespace Surface

/-- The deliveries `ds` tell of these transitions and of nothing else, each to the element it
concerns. -/
def Announces (s : Surface σ K) (pointer : PointerIdentity) (details : Details)
    (transitions : List (Transition K)) (ds : List (Delivery K)) : Prop :=
  ds.map (fun d => (d.node, d.event)) =
    transitions.map fun t => (t.node, t.event pointer s.root details)

theorem Announces.transitions_eq {s : Surface σ K} {pointer : PointerIdentity} {details : Details}
    (p : PointerId) : ∀ {transitions : List (Transition K)} {ds : List (Delivery K)},
    s.Announces pointer details transitions ds →
      transitionsOf p ds = if pointer.id = p then transitions else []
  | [], [], _ => by simp [transitionsOf]
  | [], _ :: _, h => by cases h
  | _ :: _, [], h => by cases h
  | t :: transitions, d :: ds, h => by
    obtain ⟨hfirst, hrest⟩ := List.cons.inj h
    obtain ⟨hnode, hevent⟩ := Prod.mk.inj hfirst
    have ih := Announces.transitions_eq p hrest
    have hone : d.transition p = if pointer.id = p then some t else none := by
      unfold Delivery.transition
      rw [hnode, hevent]
      cases t <;> rfl
    unfold transitionsOf at ih ⊢
    rw [List.filterMap_cons, hone, ih]
    by_cases hp : pointer.id = p <;> simp [hp]

theorem Announces.event_of_mem {s : Surface σ K} {pointer : PointerIdentity} {details : Details}
    {transitions : List (Transition K)} {ds : List (Delivery K)}
    (h : s.Announces pointer details transitions ds) {d : Delivery K} (hd : d ∈ ds) :
    ∃ t ∈ transitions, d.event = t.event pointer s.root details := by
  have hmem : (d.node, d.event) ∈ ds.map fun d => (d.node, d.event) := List.mem_map_of_mem hd
  rw [h] at hmem
  obtain ⟨t, ht, hpair⟩ := List.mem_map.1 hmem
  exact ⟨t, ht, (Prod.mk.inj hpair).2.symm⟩

theorem Announces.tellOf {s : Surface σ K} {pointer : PointerIdentity} {details : Details}
    {transitions : List (Transition K)} {ds : List (Delivery K)}
    (h : s.Announces pointer details transitions ds) : TellOf transitions ds := by
  have hmap := congrArg (List.map fun x => (x.1, x.2.target, x.2.payload)) h
  rw [List.map_map, List.map_map] at hmap
  exact hmap

/-- What is announced is told, each transition to the element it concerns. -/
theorem announces_announce (s : Surface σ K) (pointer : PointerIdentity) (details : Details)
    (transitions : List (Transition K)) :
    ∃ ds, s.Told ds (s.announce pointer details transitions).toStage ∧
      s.Announces pointer details transitions ds := by
  obtain ⟨ds, hds, hmap⟩ :=
    Stage.told_deliverEach s.toStage (transitions.map (·.event pointer s.root details))
  refine ⟨ds, hds, hmap.trans ?_⟩
  rw [List.map_map]
  rfl

theorem told_announceLeaves : ∀ (entries : List (HoverEntry K)) (s : Surface σ K),
    ∃ ds, s.Told ds (entries.foldl (fun s entry => s.announceLeave entry entry.details) s).toStage ∧
      (entries.foldl (fun s entry => s.announceLeave entry entry.details) s).hover = s.hover ∧
      ∀ p, transitionsOf p ds = (entries.filter (·.pointer.id = p)).flatMap
        fun entry => Transition.leaveAll entry.path
  | [], s => ⟨[], rfl, rfl, fun _ => rfl⟩
  | entry :: entries, s => by
    obtain ⟨ds, hds, hann⟩ :=
      s.announces_announce entry.pointer entry.details (Transition.leaveAll entry.path)
    obtain ⟨es, hes, hhover, hmore⟩ :=
      told_announceLeaves entries (s.announceLeave entry entry.details)
    refine ⟨ds ++ es, hds.append hes, hhover, fun p => ?_⟩
    rw [transitionsOf_append, hann.transitions_eq, hmore, List.filter_cons]
    by_cases hp : entry.pointer.id = p <;> simp [hp]

theorem hover_endHoverWhere (s : Surface σ K) (test : HoverEntry K → Bool) :
    (s.endHoverWhere test).hover = s.hover.reject test := by
  obtain ⟨_, -, hhover, -⟩ :=
    told_announceLeaves (s.hover.select test) { s with hover := s.hover.reject test }
  exact hhover

theorem filed_endHoverWhere {s : Surface σ K} (hf : s.hover.Filed) (test : HoverEntry K → Bool) :
    (s.endHoverWhere test).hover.Filed := by
  rw [hover_endHoverWhere]
  exact (s.hover.keeps_reject test).filed hf

/-! ## Changes -/

/-- The path is a lineage at some moment while the deliveries `ds` are made. -/
def Traced (s : Stage σ K) (ds : List (Delivery K)) (path : List K) : Prop :=
  ∃ before after m limit leaf, ds = before ++ after ∧ s.Told before m ∧
    Tree.lineage (Host.parentOf m.host) limit leaf = some path

variable [DecidableEq K]

/-- The surface `s` changes to `t` with the deliveries `ds`. -/
structure Change (s : Surface σ K) (ds : List (Delivery K)) (t : Surface σ K) : Prop where
  told : s.Told ds t.toStage
  transitions : ∀ p, transitionsOf p ds = Transition.between (s.hover.path p) (t.hover.path p)
  stored : ∀ (id : PointerId) (entry : HoverEntry K), t.hover.entries[id]? = some entry →
    (∃ old : HoverEntry K, s.hover.entries[id]? = some old ∧ old.pointer = entry.pointer ∧
      old.path = entry.path) ∨ (entry.pointer.id = id ∧ Traced s.toStage ds entry.path)

theorem change_refl (s : Surface σ K) : s.Change [] s where
  told := rfl
  transitions p := by rw [Transition.between_self]; rfl
  stored _ entry he := .inl ⟨entry, he, rfl, rfl⟩

/-- A change leaves a filed tracker filed, since what it stores is a lineage or was there. -/
theorem Change.filed {s t : Surface σ K} {ds : List (Delivery K)} (h : s.Change ds t)
    (hs : s.hover.Filed) : t.hover.Filed where
  id id entry he := by
    rcases h.stored id entry he with ⟨old, hold, hp, -⟩ | ⟨hid, -⟩
    · rw [← hp]; exact hs.id id old hold
    · exact hid
  nonempty id entry he := by
    rcases h.stored id entry he with ⟨old, hold, -, hp⟩ | ⟨-, _, _, m, limit, leaf, -, -, hl⟩
    · rw [← hp]; exact hs.nonempty id old hold
    · intro hnil
      have hlast := Tree.getLast?_lineage hl
      rw [hnil] at hlast
      cases hlast

theorem Change.proper {s t : Surface σ K} {ds : List (Delivery K)} (h : s.Change ds t)
    (hs : s.hover.Proper) : t.hover.Proper where
  toFiled := h.filed hs.toFiled
  nodup id := by
    rcases he : t.hover.entries[id]? with _ | entry
    · rw [Hover.path_of_no_entry he]; exact List.nodup_nil
    · rw [Hover.path_of_entry he]
      rcases h.stored id entry he with ⟨old, hold, -, hp⟩ | ⟨-, _, _, m, limit, leaf, -, -, hl⟩
      · rw [← hp, ← Hover.path_of_entry hold]; exact hs.nodup id
      · exact Tree.nodup_lineage _ limit leaf _ hl

/-- Events that are neither arrivals nor departures may be sent before a change. -/
theorem Change.after_plain {s t : Surface σ K} {stage : Stage σ K} {ds es : List (Delivery K)}
    (hds : s.Told ds stage)
    (hplain : ∀ d ∈ ds, d.event.payload ≠ .enter ∧ d.event.payload ≠ .leave)
    (h : Change { s with toStage := stage } es t) : s.Change (ds ++ es) t where
  told := hds.append h.told
  transitions p := by
    rw [transitionsOf_append, transitionsOf_plain p hplain, List.nil_append]
    exact h.transitions p
  stored id entry he := by
    rcases h.stored id entry he with hold | ⟨hid, before, after, m, limit, leaf, rfl, hm, hl⟩
    · exact .inl hold
    · exact .inr ⟨hid, ds ++ before, after, m, limit, leaf, by simp, hds.append hm, hl⟩

/-! ## Putting a pointer over an element -/

/-- A pointer put over an element is there already, so that its details alone are replaced, or the
path to the element is stored and then told. -/
theorem hoverAt_cases {s t : Surface σ K} {limit : Nat} {pointer : PointerIdentity}
    {details : Details} {target before : Option K}
    (h : s.hoverAt limit pointer details target = some (before, t)) :
    before = s.hover.deepest pointer.id ∧
      ((before = target ∧ t = { s with hover := s.hover.refresh pointer.id details }) ∨
        (before ≠ target ∧ ∃ path, s.pathTo limit target = some path ∧
          t = announce { s with hover := (s.hover.setPath pointer details path).1 } pointer details
            (Transition.between (s.hover.path pointer.id) path))) := by
  unfold hoverAt at h
  dsimp only at h
  split at h
  · rename_i hsame
    cases h
    exact ⟨rfl, .inl ⟨hsame, rfl⟩⟩
  · rename_i hother
    obtain ⟨path, hpath, he⟩ := Option.map_eq_some_iff.1 h
    cases he
    exact ⟨rfl, .inr ⟨hother, path, hpath, rfl⟩⟩

/-- What is told is what lies between the paths stored for the pointer before and after. -/
theorem announces_hoverAt {s t : Surface σ K} {limit : Nat} {pointer : PointerIdentity}
    {details : Details} {target before : Option K}
    (h : s.hoverAt limit pointer details target = some (before, t)) :
    ∃ ds, s.Told ds t.toStage ∧
      s.Announces pointer details
        (Transition.between (s.hover.path pointer.id) (t.hover.path pointer.id)) ds ∧
      ∀ q, pointer.id ≠ q → t.hover.path q = s.hover.path q := by
  rcases (hoverAt_cases h).2 with ⟨-, rfl⟩ | ⟨-, path, -, rfl⟩
  · have hpath := s.hover.path_refresh pointer.id
    refine ⟨[], rfl, ?_, fun q _ => hpath q details⟩
    show s.Announces pointer details
      (Transition.between _ ((s.hover.refresh pointer.id details).path pointer.id)) []
    rw [hpath, Transition.between_self]
    rfl
  · have hpath := s.hover.path_setPath pointer details path
    obtain ⟨ds, hds, hann⟩ :=
      announces_announce { s with hover := (s.hover.setPath pointer details path).1 } pointer
        details (Transition.between (s.hover.path pointer.id) path)
    refine ⟨ds, hds, ?_, fun q hq => (hpath q).trans (if_neg hq)⟩
    show s.Announces pointer details
      (Transition.between _ ((s.hover.setPath pointer details path).1.path pointer.id)) ds
    rw [hpath, if_pos rfl]
    exact hann

omit [DecidableEq K] in
theorem getLast?_pathTo {s : Surface σ K} {limit : Nat} {target : Option K} {path : List K}
    (h : s.pathTo limit target = some path) : path.getLast? = target := by
  cases target with
  | none => cases h; rfl
  | some node => exact Tree.getLast?_lineage h

/-- The pointer is at its target in the end. -/
theorem deepest_hoverAt {s t : Surface σ K} {limit : Nat} {pointer : PointerIdentity}
    {details : Details} {target before : Option K}
    (h : s.hoverAt limit pointer details target = some (before, t)) :
    t.hover.deepest pointer.id = target := by
  obtain ⟨rfl, ⟨hsame, rfl⟩ | ⟨-, path, hpath, rfl⟩⟩ := hoverAt_cases h
  · rw [← hsame, Hover.deepest, Hover.path_refresh]
    rfl
  · have hstored := s.hover.path_setPath pointer details path pointer.id
    rw [if_pos rfl] at hstored
    exact (congrArg List.getLast? hstored).trans (getLast?_pathTo hpath)

/-- Whatever is stored for the pointer in the end is under the details it was put there with. -/
theorem details_hoverAt {s t : Surface σ K} {limit : Nat} {pointer : PointerIdentity}
    {details : Details} {target before : Option K}
    (h : s.hoverAt limit pointer details target = some (before, t)) {entry : HoverEntry K}
    (he : t.hover.entries[pointer.id]? = some entry) : entry.details = details := by
  rcases (hoverAt_cases h).2 with ⟨-, rfl⟩ | ⟨-, path, -, rfl⟩
  · rw [Hover.entries_refresh, if_pos rfl] at he
    obtain ⟨old, -, rfl⟩ := Option.map_eq_some_iff.1 he
    rfl
  · have hstored := s.hover.entries_setPath pointer details path pointer.id
    rw [if_pos rfl] at hstored
    have hentry := hstored.symm.trans he
    split at hentry
    · cases hentry
    · cases hentry
      rfl

theorem change_hoverAt {s t : Surface σ K} {limit : Nat} {pointer : PointerIdentity}
    {details : Details} {target before : Option K}
    (h : s.hoverAt limit pointer details target = some (before, t)) : ∃ ds, s.Change ds t := by
  obtain ⟨ds, hds, hann, hothers⟩ := announces_hoverAt h
  refine ⟨ds, hds, fun p => ?_, fun id entry he => ?_⟩
  · rw [hann.transitions_eq]
    split
    · rename_i hp
      rw [hp]
    · rename_i hp
      rw [hothers p hp, Transition.between_self]
  rcases (hoverAt_cases h).2 with ⟨-, rfl⟩ | ⟨-, path, hpath, rfl⟩
  · exact .inl (s.hover.keeps_refresh pointer.id details id entry he)
  · rw [show (announce _ pointer details _).hover = (s.hover.setPath pointer details path).1
      from rfl, Hover.entries_setPath] at he
    split at he
    · rename_i hid
      split at he
      · cases he
      · rename_i hne
        cases he
        -- only a target has a path, and the lineage was looked up before anyone was told
        rcases target with _ | leaf
        · cases hpath
          exact absurd rfl hne
        · exact .inr ⟨hid, [], ds, s.toStage, limit, leaf, rfl, rfl, hpath⟩
    · exact .inl ⟨entry, he, rfl, rfl⟩

/-! ## Ending the hovering of pointers -/

omit [DecidableEq K] in
theorem tellOf_endHover (s : Surface σ K) (id : PointerId) (details : Details) :
    ∃ ds, s.Told ds (s.endHover id details).toStage ∧
      TellOf (Transition.leaveAll (s.hover.path id)) ds ∧
      (s.endHover id details).hover.path id = [] := by
  unfold endHover
  rcases he : s.hover.entries[id]? with _ | entry
  · rw [Hover.path_of_no_entry he]
    exact ⟨[], rfl, rfl, rfl⟩
  · obtain ⟨ds, hds, hann⟩ := announces_announce { s with hover := s.hover.forget id }
      entry.pointer details (Transition.leaveAll entry.path)
    rw [Hover.path_of_entry he]
    exact ⟨ds, hds, hann.tellOf, (s.hover.path_forget id id).trans (if_pos rfl)⟩

theorem change_endHover {s : Surface σ K} (hf : s.hover.Filed) (id : PointerId)
    (details : Details) : ∃ ds, s.Change ds (s.endHover id details) := by
  unfold endHover
  rcases he : s.hover.entries[id]? with _ | entry
  · exact ⟨[], s.change_refl⟩
  · obtain ⟨ds, hds, hann⟩ := announces_announce { s with hover := s.hover.forget id }
      entry.pointer details (Transition.leaveAll entry.path)
    refine ⟨ds, hds, fun p => ?_, fun other entry' he' => ?_⟩
    · show transitionsOf p ds = Transition.between (s.hover.path p) ((s.hover.forget id).path p)
      rw [hann.transitions_eq, hf.id id entry he, Hover.path_forget]
      split
      · rename_i hp
        subst hp
        rw [Transition.between_nil, Hover.path_of_entry he]
      · rw [Transition.between_self]
    · exact .inl (s.hover.keeps_forget id other entry' he')

theorem change_endHoverWhere {s : Surface σ K} (hf : s.hover.Filed)
    (test : HoverEntry K → Bool) : ∃ ds, s.Change ds (s.endHoverWhere test) := by
  obtain ⟨ds, hds, -, htrans⟩ :=
    told_announceLeaves (s.hover.select test) { s with hover := s.hover.reject test }
  refine ⟨ds, hds, fun p => ?_, fun id entry he => ?_⟩
  · rw [hover_endHoverWhere, htrans, hf.select_pointer, Hover.path_reject]
    rcases he : s.hover.entries[p]? with _ | entry
    · simp [Transition.between_self]
    · rw [Hover.path_of_entry he]
      cases htest : test entry <;>
        simp [Option.filter, htest, Transition.between_self, Transition.between_nil]
  · rw [hover_endHoverWhere] at he
    exact .inl (s.hover.keeps_reject test id entry he)

end Surface

end PointerRouting
