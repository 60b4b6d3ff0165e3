/-
Where a device was last. The device has one place for all the roots it reports in, and every report
puts there where it was made, except that a departure, from whatever root, leaves the place empty.
So a scene that changes around the place where a pointer moved last has it come to be over what is
under it now, as long as no departure has been reported since. After one the change is ignored,
even if the departure was from another root and the pointer is still where it moved
(`scene_change_after_move`).
-/
import PointerRouting.Proofs.Device.Process
import PointerRouting.Proofs.Surface.Difference
import PointerRouting.Scene

namespace PointerRouting

variable {σ K : Type}

/-! ## The place of a report -/

/-- Where a report leaves the pointer, with the root it was made in. -/
def Report.place (r : Report) : Option (RootId × Point) :=
  if r.Departs then none else some (r.root, r.position)

theorem Report.place_of_move {r : Report} (h : r.kind = .move) :
    r.place = some (r.root, r.position) := by
  have hstays : ¬ r.Departs := by simp [Departs, h]
  exact if_neg hstays

namespace Device

theorem position_next (d : Device K) (hit : Option K) (r : Report) :
    (d.next hit r).position = r.place := by
  simp only [Report.place, ← r.action_eq_leave_iff]
  unfold next
  cases r.action with
  | press button => cases hit <;> rfl
  | release _ | move | send _ | leave => rfl

/-! ## The place of a device -/

variable [Host σ K] [DecidableEq K]

theorem info_of_turns : ∀ {d d' : Device K} {turns : List (Turn σ K)}, d.Turns turns d' →
    d'.pointer.info = d.pointer.info
  | _, _, [], h => by cases h; rfl
  | _, _, _ :: _, ⟨hp, hrest⟩ => (info_of_turns hrest).trans (info_of_process hp)

/-- After some reports a live device is where the last of them leaves it. -/
theorem position_of_turns {d d' : Device K} (hd : d.Live) {turns : List (Turn σ K)} {t : Turn σ K}
    (h : d.Turns (turns ++ [t]) d') : d'.position = t.report.place := by
  obtain ⟨m, hm, hp, rfl⟩ := turns_snoc.1 h
  rw [device_of_used (live_of_turns hd hm).1 hp, position_next]

omit [Host σ K] [DecidableEq K] in
theorem hoverPosition_eq_some_iff (d : Device K) (root : RootId) (area : Rect) (p : Point) :
    d.hoverPosition root area = some p ↔ d.disposed = false ∧ d.pointer.info.kind ≠ .touch ∧
      d.position = some (root, p) ∧ area.covers p = true := by
  unfold hoverPosition
  rcases d.position with _ | ⟨last, position⟩
  · simp
  · grind

omit [Host σ K] [DecidableEq K] in
theorem hoverPosition_eq_none {d : Device K} {root : RootId} {area : Rect}
    (h : d.disposed = true ∨ d.pointer.info.kind = .touch ∨
      ∀ p, d.position = some (root, p) → area.covers p = false) :
    d.hoverPosition root area = none := by
  rcases hp : d.hoverPosition root area with _ | p
  · rfl
  · obtain ⟨hlive, hkind, hplace, harea⟩ := (d.hoverPosition_eq_some_iff ..).1 hp
    rcases h with hdisposed | htouch | hcovers
    · rw [hlive] at hdisposed
      cases hdisposed
    · exact absurd htouch hkind
    · rw [hcovers p hplace] at harea
      cases harea

omit [Host σ K] [DecidableEq K] in
theorem hoverPosition_of_place {d : Device K} (hd : d.Live) (hkind : d.pointer.info.kind ≠ .touch)
    {root : RootId} {position : Point} (hplace : d.position = some (root, position)) {area : Rect}
    (harea : area.covers position = true) : d.hoverPosition root area = some position :=
  (d.hoverPosition_eq_some_iff root area position).2 ⟨hd.1, hkind, hplace, harea⟩

omit [Host σ K] [DecidableEq K] in
theorem hoverPosition_of_no_place {d : Device K} (hplace : d.position = none) (root : RootId)
    (area : Rect) : d.hoverPosition root area = none := by
  refine hoverPosition_eq_none (.inr (.inr fun p hp => ?_))
  rw [hplace] at hp
  cases hp

/-- A change of the scene that concerns a pointer has it come to be over what is under it. -/
theorem exists_sceneChanged {d : Device K} {s : Surface σ K} {area : Rect} {position : Point}
    (hf : Tree.Acyclic (Host.parentOf s.host))
    (hp : d.hoverPosition s.root area = some position) :
    ∃ t bound, (∀ limit, bound ≤ limit → d.sceneChanged limit s area =
        some (decide (s.hover.deepest d.pointer.info.id ≠ Host.hitTest s.host position), t)) ∧
      t.hover.deepest d.pointer.info.id = Host.hitTest s.host position := by
  obtain ⟨t, bound, hreturn, hat⟩ :=
    Surface.exists_hoverAt hf d.pointer.info _ (Host.hitTest s.host position)
  refine ⟨t, bound, fun limit hle => ?_, hat⟩
  rw [sceneChanged_eq_hoverAt hp, hreturn limit hle]
  rfl

end Device

variable [Host σ K] [DecidableEq K]

/-- A live device that is not a touch reports a move, and after that departures alone. If there are
none, it is where it moved, and a change of that scene around the place has its pointer come to be
over what is under it now. If there are some, whichever roots they are from, it is nowhere, and
changes of the scene are ignored. -/
theorem scene_change_after_move {d d' : Device K} (hd : d.Live)
    (hkind : d.pointer.info.kind ≠ .touch) {before departures : List (Turn σ K)}
    {moved : Turn σ K} (h : d.Turns (before ++ moved :: departures) d')
    (hmoved : moved.report.kind = .move) (hleft : ∀ t ∈ departures, t.report.Departs) :
    let place := (moved.report.root, moved.report.position)
    (departures = [] → d'.position = some place) ∧ (departures ≠ [] → d'.position = none) ∧
    ∀ (s : Surface σ K) (area : Rect), s.root = place.1 →
      Tree.Acyclic (Host.parentOf s.host) → area.covers place.2 = true →
      ∃ changed t bound, (∀ limit, bound ≤ limit →
          d'.sceneChanged limit s area = some (changed, t)) ∧
        (departures = [] →
          t.hover.deepest d.pointer.info.id = Host.hitTest s.host place.2) ∧
        (departures ≠ [] → changed = false ∧ t = s) := by
  intro place
  have hlive := Device.live_of_turns hd h
  have hinfo := Device.info_of_turns h
  have hstays : departures = [] → d'.position = some place := by
    rintro rfl
    rw [Device.position_of_turns hd h, Report.place_of_move hmoved]
  have hgone : departures ≠ [] → d'.position = none := by
    intro hne
    obtain ⟨earlier, last, rfl⟩ := (List.eq_nil_or_concat' departures).resolve_left hne
    rw [← List.cons_append, ← List.append_assoc] at h
    rw [Device.position_of_turns hd h]
    exact if_pos (hleft last (by simp))
  refine ⟨hstays, hgone, fun s area hroot hf harea => ?_⟩
  by_cases hnil : departures = []
  · have hp : d'.hoverPosition s.root area = some place.2 := by
      rw [hroot]
      exact Device.hoverPosition_of_place hlive (by rwa [hinfo]) (hstays hnil) harea
    obtain ⟨t, bound, hreturn, hat⟩ := Device.exists_sceneChanged hf hp
    rw [hinfo] at hat
    exact ⟨_, t, bound, hreturn, fun _ => hat, fun hne => absurd hnil hne⟩
  · refine ⟨false, s, 0, fun limit _ => ?_, fun he => absurd he hnil, fun _ => ⟨rfl, rfl⟩⟩
    unfold Device.sceneChanged
    rw [Device.hoverPosition_of_no_place (hgone hnil)]

/-- A mouse moves in one root, then in another, and reports only then that it left the first. -/
theorem late_departure_turns :
    let d : Device Nat := .ofPointer ⟨1⟩ ⟨⟨1, Nat.one_pos⟩, .mouse, true⟩ .standard
    ∃ (first moved late : Turn (Scene Nat) Nat) (d' : Device Nat),
      d.Turns [first, moved, late] d' ∧ moved.report.kind = .move ∧ moved.report.root = ⟨2⟩ ∧
      moved.report.position = ⟨3, 4⟩ ∧ late.report.kind = .leave ∧ late.report.root = ⟨1⟩ := by
  intro d
  let showing (root : RootId) (n : Nat) : Surface (Scene Nat) Nat :=
    { host := { root, backdrop := some n } }
  let report (kind : ReportKind) (root : RootId) (position : Point) : Report :=
    { kind, device := ⟨1⟩, root, time := 0, position }
  let reports := [(showing ⟨1⟩ 5, report .move ⟨1⟩ ⟨0, 0⟩),
    (showing ⟨2⟩ 7, report .move ⟨2⟩ ⟨3, 4⟩), (showing ⟨1⟩ 5, report .leave ⟨1⟩ ⟨0, 0⟩)]
  obtain ⟨⟨turns, d'⟩, hrun⟩ := Option.isSome_iff_exists.1
    (by decide +kernel : (d.turnsOver 1 reports).isSome = true)
  obtain ⟨ht, hmap⟩ := Device.turns_turnsOver hrun
  obtain ⟨first, turns, rfl, -, hmap⟩ := List.map_eq_cons_iff.1 hmap
  obtain ⟨moved, turns, rfl, h2, hmap⟩ := List.map_eq_cons_iff.1 hmap
  obtain ⟨late, turns, rfl, h3, hmap⟩ := List.map_eq_cons_iff.1 hmap
  obtain rfl := List.map_eq_nil_iff.1 hmap
  simp only [Prod.mk.injEq] at h2 h3
  refine ⟨first, moved, late, d', ht, ?_⟩
  rw [h2.2, h3.2]
  exact ⟨rfl, rfl, rfl, rfl, rfl⟩

/-- After a late departure from another root the mouse is nowhere, and what comes to be under it is
not noticed. -/
theorem nowhere_after_late_departure :
    let d : Device Nat := .ofPointer ⟨1⟩ ⟨⟨1, Nat.one_pos⟩, .mouse, true⟩ .standard
    let s : Surface (Scene Nat) Nat := { host := { root := ⟨2⟩, backdrop := some 9 } }
    let area : Rect := ⟨0, 0, 10, 10⟩
    d.Live ∧ d.pointer.info.kind ≠ .touch ∧ Tree.Acyclic (Host.parentOf s.host) ∧
    ∃ (first moved late : Turn (Scene Nat) Nat) (d' : Device Nat),
      d.Turns ([first] ++ moved :: [late]) d' ∧ moved.report.kind = .move ∧
      s.root = moved.report.root ∧ area.covers moved.report.position = true ∧
      (∀ t ∈ [late], t.report.Departs) ∧ late.report.root ≠ moved.report.root ∧
      d'.position = none ∧ ∃ changed t bound,
        (∀ limit, bound ≤ limit → d'.sceneChanged limit s area = some (changed, t)) ∧
        changed = false ∧ t = s := by
  intro d s area
  obtain ⟨first, moved, late, d', ht, hmoved, hroot, hposition, hlate, hother⟩ :=
    late_departure_turns
  have ht : d.Turns ([first] ++ moved :: [late]) d' := ht
  have hleft : ∀ t ∈ [late], t.report.Departs := by
    intro t hmem
    rw [List.mem_singleton.1 hmem]
    exact .inl hlate
  have hf : Tree.Acyclic (Host.parentOf s.host) := Tree.acyclic_of_rank id fun n p hp => by cases hp
  have harea : area.covers moved.report.position = true := by
    rw [hposition]
    decide +kernel
  obtain ⟨-, hgone, hscene⟩ := scene_change_after_move ⟨rfl, rfl⟩ (by decide) ht hmoved hleft
  obtain ⟨changed, t, bound, hreturn, -, hsame⟩ := hscene s area hroot.symm hf harea
  refine ⟨⟨rfl, rfl⟩, by decide, hf, first, moved, late, d', ht, hmoved, hroot.symm, harea, hleft,
    ?_, hgone (by simp), changed, t, bound, hreturn, hsame (by simp)⟩
  rw [hroot, hother]
  decide

/-- So a device does not always keep the place where it moved when it departs from other roots. -/
theorem not_in_place_after_departures : ¬ ∀ (d d' : Device Nat)
    (before departures : List (Turn (Scene Nat) Nat)) (moved : Turn (Scene Nat) Nat), d.Live →
    d.pointer.info.kind ≠ .touch → d.Turns (before ++ moved :: departures) d' →
    moved.report.kind = .move →
    (∀ t ∈ departures, t.report.Departs ∧ t.report.root ≠ moved.report.root) →
    d'.position = some (moved.report.root, moved.report.position) := by
  intro hstays
  obtain ⟨first, moved, late, d', ht, hmoved, hroot, -, hlate, hother⟩ := late_departure_turns
  have hdeparts : late.report.Departs := .inl hlate
  have helsewhere : ∀ t ∈ [late], t.report.Departs ∧ t.report.root ≠ moved.report.root := by
    intro t hmem
    rw [List.mem_singleton.1 hmem, hroot, hother]
    exact ⟨hdeparts, by decide⟩
  have hkept := hstays _ d' [first] [late] moved ⟨rfl, rfl⟩ (by decide) ht hmoved helsewhere
  have ht : Device.Turns _ ([first, moved] ++ [late]) d' := ht
  have hgone := Device.position_of_turns ⟨rfl, rfl⟩ ht
  rw [hkept, Report.place, if_pos hdeparts] at hgone
  cases hgone

end PointerRouting
