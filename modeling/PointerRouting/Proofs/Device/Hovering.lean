/-
What makes a pointer hover. A report that a device processes leaves what is stored for every other
pointer as it was. Its own pointer is over what is under it after a move, whoever has captured it
and whatever came of the event, and over nothing after a departure; no other report, and no report
of a touch but a departure, changes what is stored for it (`Hovers`).

So no touch ever hovers: in a run of reports and changes of the scene that begins with an empty
tracker, whatever is stored, and whatever an element is told of an arrival or a departure, names the
pointer of a device that took part and is no touch (`hover_follows_moves_and_departures`). Each
report comes to a device in whatever state that is in, so what a run over several surfaces does to
one of them is a run on that one.
-/
import PointerRouting.Proofs.Device.Account
import PointerRouting.Proofs.Surface.Run
import PointerRouting.Proofs.Surface.Touch
import PointerRouting.Scene

namespace PointerRouting

variable {σ K : Type} [Host σ K]

/-! ## What is stored after one change -/

namespace Surface

theorem entries_endHover (s : Surface σ K) (id other : PointerId) (details : Details) :
    (s.endHover id details).hover.entries[other]? =
      if id = other then none else s.hover.entries[other]? := by
  unfold endHover
  rcases he : s.hover.entries[id]? with _ | entry
  · show s.hover.entries[other]? = _
    split
    · rename_i hid
      rw [← hid, he]
    · rfl
  · exact s.hover.entries_forget id other

variable [DecidableEq K] {s t : Surface σ K} {limit : Nat} {pointer : PointerIdentity}
  {details : Details} {target before : Option K}

theorem stored_details_hoverAt
    (h : s.hoverAt limit pointer details target = some (before, t)) (htarget : target ≠ none) :
    t.hover.details pointer.id = some details := by
  rcases he : t.hover.entries[pointer.id]? with _ | entry
  · have hat := deepest_hoverAt h
    rw [Hover.deepest, Hover.path_of_no_entry he] at hat
    exact absurd hat.symm htarget
  · rw [Hover.details, he, Option.map_some, details_hoverAt h he]

end Surface

namespace Device

variable [DecidableEq K]

/-- The tracker of `t` is what a report that the device has processed leaves of the tracker of
`s`, with `hit` under the pointer when the report came. -/
structure Hovers (d : Device K) (s : Surface σ K) (hit : Option K) (r : Report)
    (t : Surface σ K) : Prop where
  others : ∀ id, id ≠ d.pointer.info.id → t.hover.entries[id]? = s.hover.entries[id]?
  moved : r.Moves → d.pointer.info.kind ≠ .touch → t.hover.deepest d.pointer.info.id = hit ∧
    (hit ≠ none → t.hover.details d.pointer.info.id = some (Details.ofReport r))
  departed : r.Departs → t.hover.entries[d.pointer.info.id]? = none
  /-- Any other report changes nothing. -/
  stayed : ¬ r.Departs → (r.Moves → d.pointer.info.kind = .touch) →
    t.hover.entries[d.pointer.info.id]? = s.hover.entries[d.pointer.info.id]?

omit [Host σ K] [DecidableEq K] in
theorem hovers_refl {d : Device K} {r : Report} (hdeparts : ¬ r.Departs)
    (hmoves : r.Moves → d.pointer.info.kind = .touch) (s : Surface σ K) (hit : Option K) :
    d.Hovers s hit r s where
  others _ _ := rfl
  moved h htouch := absurd (hmoves h) htouch
  departed h := absurd h hdeparts
  stayed _ _ := rfl

theorem hovers_of_follow {d : Device K} {limit : Nat} {s t : Surface σ K} {hit : Option K}
    {r : Report} (h : d.follow limit s hit r = some t) : d.Hovers s hit r t := by
  rcases follow_cases h with ⟨hmoves, hkind, before, hhover⟩ | ⟨hdeparts, rfl⟩ |
    ⟨hmoves, hdeparts, rfl⟩
  · exact {
      others := (Surface.touches_hoverAt hhover).kept
      moved := fun _ _ =>
        ⟨Surface.deepest_hoverAt hhover, Surface.stored_details_hoverAt hhover⟩
      departed := fun hd => absurd hd hmoves.not_departs
      stayed := fun _ htouch => absurd (htouch hmoves) hkind }
  · exact {
      others := fun id hid => (s.entries_endHover ..).trans (if_neg (Ne.symm hid))
      moved := fun hm _ => absurd hdeparts hm.not_departs
      departed := fun _ => (s.entries_endHover ..).trans (if_pos rfl)
      stayed := fun hd _ => absurd hdeparts hd }
  · exact hovers_refl hdeparts hmoves t hit

/-- What is sent before the hovering follows does not touch the tracker. -/
theorem hovers_of_process {d : Device K} {limit : Nat} {s : Surface σ K} {r : Report}
    {handling : Handling σ K} (hd : d.disposed = false)
    (h : d.process limit s r = .ok handling) :
    d.Hovers s (Host.hitTest s.host r.position) r handling.surface := by
  obtain ⟨_, _, _, -, hfollow, rfl⟩ := phases_of_used hd h
  have hfollowed := hovers_of_follow hfollow
  exact ⟨hfollowed.others, hfollowed.moved, hfollowed.departed, hfollowed.stayed⟩

end Device

/-! ## Which pointers are named -/

namespace Surface

/-- Every pointer for which something is stored, and every one of which an element was told an
arrival or a departure, has the property `P`. -/
structure Names (P : PointerIdentity → Prop) (s : Surface σ K) : Prop where
  stored : ∀ (id : PointerId) (entry : HoverEntry K), s.hover.entries[id]? = some entry →
    P entry.pointer
  told : ∀ e ∈ s.log, e.event.payload = .enter ∨ e.event.payload = .leave → P e.event.pointer

variable {P : PointerIdentity → Prop} {s t : Surface σ K}

omit [Host σ K] in
theorem names_empty (P : PointerIdentity → Prop) (host : σ) :
    ({ host } : Surface σ K).Names P where
  stored id entry he := by simp [Hover.empty] at he
  told := by simp

omit [Host σ K] in
theorem Names.keeps (h : s.Names P) {hover : Hover K} (hk : s.hover.Keeps hover) :
    ({ s with hover } : Surface σ K).Names P where
  stored id entry he := by
    obtain ⟨old, hold, hp, -⟩ := hk id entry he
    rw [← hp]
    exact h.stored id old hold
  told := h.told

theorem Names.plain (h : s.Names P) {stage : Stage σ K} {ds : List (Delivery K)}
    (hds : s.Told ds stage)
    (hplain : ∀ e ∈ ds, e.event.payload ≠ .enter ∧ e.event.payload ≠ .leave) :
    ({ s with toStage := stage } : Surface σ K).Names P where
  stored := h.stored
  told e he hcross := by
    rw [hds.log] at he
    rcases List.mem_append.1 he with he | he
    · exact h.told e he hcross
    · rcases hcross with henter | hleave
      · exact absurd henter (hplain e he).1
      · exact absurd hleave (hplain e he).2

theorem Names.announce (h : s.Names P) {pointer : PointerIdentity} (hp : P pointer)
    (details : Details) (transitions : List (Transition K)) :
    (s.announce pointer details transitions).Names P where
  stored := h.stored
  told e he hcross := by
    obtain ⟨ds, hds, hann⟩ := s.announces_announce pointer details transitions
    rw [hds.log] at he
    rcases List.mem_append.1 he with he | he
    · exact h.told e he hcross
    · obtain ⟨_, -, hevent⟩ := hann.event_of_mem he
      rw [hevent]
      exact hp

theorem Names.endHover (h : s.Names P) (id : PointerId) (details : Details) :
    (s.endHover id details).Names P := by
  unfold Surface.endHover
  rcases he : s.hover.entries[id]? with _ | entry
  · exact h
  · -- the departures are told under the pointer that was stored
    exact (h.keeps (s.hover.keeps_forget id)).announce (h.stored id entry he) ..

variable [DecidableEq K]

theorem Names.hoverAt (h : s.Names P) {limit : Nat} {pointer : PointerIdentity}
    {details : Details} {target before : Option K} (hp : P pointer)
    (hhover : s.hoverAt limit pointer details target = some (before, t)) : t.Names P := by
  rcases (hoverAt_cases hhover).2 with ⟨-, rfl⟩ | ⟨-, path, -, rfl⟩
  · exact h.keeps (s.hover.keeps_refresh pointer.id details)
  · have hset : ({ s with hover := (s.hover.setPath pointer details path).1 } :
        Surface σ K).Names P := by
      refine ⟨fun id entry he => ?_, h.told⟩
      rw [Hover.entries_setPath] at he
      split at he
      · split at he
        · cases he
        · cases he
          exact hp
      · exact h.stored id entry he
    exact hset.announce hp ..

end Surface

namespace Device

variable [DecidableEq K] {P : PointerIdentity → Prop} {d : Device K} {limit : Nat}
  {s t : Surface σ K}

/-- A report names no pointer that was not named before but that of its device, if it is no touch.
-/
theorem names_process (hp : d.pointer.info.kind ≠ .touch → P d.pointer.info) {r : Report}
    {handling : Handling σ K} (hs : s.Names P) (h : d.process limit s r = .ok handling) :
    handling.surface.Names P := by
  rcases phases_of_process h with ⟨-, rfl⟩ | ⟨-, -, outcome, stage, surface, hsent, hfollow, rfl⟩
  · exact hs
  obtain ⟨ds, hds, hplain⟩ := told_dispatch hsent
  have hstage := hs.plain hds hplain
  rcases follow_cases hfollow with ⟨-, hkind, before, hhover⟩ | ⟨-, rfl⟩ | ⟨-, -, rfl⟩
  · exact hstage.hoverAt (hp hkind) hhover
  · exact hstage.endHover ..
  · exact hstage

theorem names_sceneChanged (hp : d.pointer.info.kind ≠ .touch → P d.pointer.info) {area : Rect}
    {changed : Bool} (hs : s.Names P) (h : d.sceneChanged limit s area = some (changed, t)) :
    t.Names P := by
  rcases sceneChanged_cases h with ⟨-, -, rfl⟩ | ⟨_, _, hposition, hhover, -⟩
  · exact hs
  · obtain ⟨-, hkind, -, -⟩ := (d.hoverPosition_eq_some_iff ..).1 hposition
    exact hs.hoverAt (hp hkind) hhover

end Device

/-! ## Runs of devices -/

namespace Happening

/-- The pointer of the device that takes part in a happening. -/
def pointer? : Happening σ K → Option PointerIdentity
  | process device _ _ | sceneChanged device _ _ => some device.pointer.info
  | _ => none

/-- A device takes part in the happening, or the host becomes another by itself. -/
def ByDevice : Happening σ K → Prop
  | process .. | sceneChanged .. | become _ => True
  | _ => False

end Happening

/-- The pointer belongs to a device that takes part in some happenings, and it is no touch. -/
def Hoverer (happenings : List (Happening σ K)) (pointer : PointerIdentity) : Prop :=
  pointer.kind ≠ .touch ∧ ∃ x ∈ happenings, x.pointer? = some pointer

variable [DecidableEq K]

theorem Surface.names_after {P : PointerIdentity → Prop} {s t : Surface σ K}
    {x : Happening σ K} (hx : x.ByDevice)
    (hp : ∀ pointer, x.pointer? = some pointer → pointer.kind ≠ .touch → P pointer)
    (hs : s.Names P) (h : s.after x = some t) : t.Names P := by
  cases x with
  | process device limit report =>
    obtain ⟨handling, hok, rfl⟩ := Option.map_eq_some_iff.1 h
    rcases hr : device.process limit s report with _ | handling'
    · rw [hr] at hok
      cases hok
    · rw [hr] at hok
      cases hok
      exact Device.names_process (hp _ rfl) hs hr
  | sceneChanged device limit area =>
    obtain ⟨⟨changed, surface⟩, hchange, rfl⟩ := Option.map_eq_some_iff.1 h
    exact Device.names_sceneChanged (hp _ rfl) hs hchange
  | become host =>
    cases h
    exact ⟨hs.stored, hs.told⟩
  | hoverAt _ _ _ _ | endHover _ _ | endAllHover | detach _ => cases hx

theorem Surface.names_run {P : PointerIdentity → Prop} : ∀ {s t : Surface σ K}
    {happenings : List (Happening σ K)}, (∀ x ∈ happenings, x.ByDevice) →
    (∀ x ∈ happenings, ∀ pointer, x.pointer? = some pointer → pointer.kind ≠ .touch → P pointer) →
    s.Names P → s.run happenings = some t → t.Names P
  | _, _, [], _, _, hs, h => by cases h; exact hs
  | _, _, _ :: _, hby, hp, hs, h => by
    obtain ⟨m, hm, hrest⟩ := run_cons.1 h
    obtain ⟨hx, hby⟩ := List.forall_mem_cons.1 hby
    obtain ⟨hpx, hp⟩ := List.forall_mem_cons.1 hp
    exact names_run hby hp (names_after hx hpx hs hm) hrest

/-- A report that is processed by a device in use, on a surface with any tracker, leaves what is
stored for the other pointers as it was. If it tells of a move, and the pointer is no touch, the
pointer is then over what was under it when the report came, under the details of the report. If it
tells of a departure nothing is stored for the pointer any more, and otherwise what was stored
stays. So in every run of devices that begins with an empty tracker, and in which the host may also
become another by itself, only pointers that are no touches come to be stored or named in an arrival
or a departure, and each of them is that of a device that took part. -/
theorem hover_follows_moves_and_departures :
    (∀ (d : Device K) (limit : Nat) (s : Surface σ K) (r : Report) (handling : Handling σ K),
      d.disposed = false → d.process limit s r = .ok handling →
        d.Hovers s (Host.hitTest s.host r.position) r handling.surface) ∧
    ∀ (host : σ) (happenings : List (Happening σ K)) (t : Surface σ K),
      (∀ x ∈ happenings, x.ByDevice) → Surface.run { host } happenings = some t →
        (∀ (id : PointerId) (entry : HoverEntry K), t.hover.entries[id]? = some entry →
          entry.pointer.id = id ∧ Hoverer happenings entry.pointer) ∧
        ∀ e ∈ t.log, e.event.payload = .enter ∨ e.event.payload = .leave →
          Hoverer happenings e.event.pointer := by
  refine ⟨fun d limit s r handling hd h => Device.hovers_of_process hd h,
    fun host happenings t hby h => ?_⟩
  have hnames : t.Names (Hoverer happenings) :=
    Surface.names_run hby (fun x hx pointer hpointer hkind => ⟨hkind, x, hx, hpointer⟩)
      (Surface.names_empty _ host) h
  have hfiled := (Surface.proper_of_run Hover.proper_empty h).toFiled
  exact ⟨fun id entry he => ⟨hfiled.id id entry he, hnames.stored id entry he⟩, hnames.told⟩

/-- A mouse that `7` has captured moves where `5` is and is then over `5`, although the move is for
`7`. A touch that moves there after it leaves the mouse as it is and is over nothing. -/
theorem captured_mouse_is_over_five :
    let mouse : Device Nat :=
      ((Device.ofPointer ⟨1⟩ ⟨⟨1, Nat.one_pos⟩, .mouse, true⟩ .standard).capture (some 7)).2
    let touch : Device Nat := .ofPointer ⟨2⟩ ⟨⟨2, Nat.two_pos⟩, .touch, true⟩ .standard
    let scene : Scene Nat := { root := ⟨1⟩, backdrop := some 5 }
    let report (device : DeviceId) : Report :=
      { kind := .move, device, root := ⟨1⟩, time := 3, position := ⟨0, 0⟩ }
    let happenings : List (Happening (Scene Nat) Nat) :=
      [.process mouse 1 (report ⟨1⟩), .process touch 1 (report ⟨2⟩)]
    (∃ handling, mouse.process 1 { host := scene } (report ⟨1⟩) = .ok handling ∧
      handling.outcome.target = some 7 ∧
      handling.surface.hover.deepest mouse.pointer.info.id = some 5 ∧
      handling.surface.hover.details mouse.pointer.info.id =
        some (Details.ofReport (report ⟨1⟩))) ∧
    ∃ t, Surface.run { host := scene } happenings = some t ∧
      t.log.map (fun e => (e.node, e.event.pointer.id.number, e.event.kind)) =
        [(7, 1, .moved), (5, 1, .enter), (5, 2, .moved)] ∧
      (∀ (id : PointerId) (entry : HoverEntry Nat), t.hover.entries[id]? = some entry →
        entry.pointer.kind ≠ .touch) ∧
      ∀ e ∈ t.log, e.event.payload = .enter ∨ e.event.payload = .leave →
        e.event.pointer.kind ≠ .touch := by
  intro mouse touch scene report happenings
  obtain ⟨hprocess, hrun⟩ := hover_follows_moves_and_departures (σ := Scene Nat) (K := Nat)
  constructor
  · have htarget : (mouse.process 1 { host := scene } (report ⟨1⟩)).toOption.bind
        (fun x => x.outcome.target) = some 7 := by decide +kernel
    rcases h : mouse.process 1 { host := scene } (report ⟨1⟩) with fault | handling
    · rw [h] at htarget
      cases htarget
    · rw [h] at htarget
      have hmoved := (hprocess mouse 1 _ _ handling rfl h).moved (.inl rfl) (by decide)
      exact ⟨handling, rfl, htarget, hmoved.1, hmoved.2 (by decide)⟩
  · obtain ⟨t, ht, hlog⟩ := Option.map_eq_some_iff.1 (by decide +kernel :
      (Surface.run { host := scene } happenings).map (fun t =>
        t.log.map fun e => (e.node, e.event.pointer.id.number, e.event.kind)) =
          some [(7, 1, .moved), (5, 1, .enter), (5, 2, .moved)])
    have hby : ∀ x ∈ happenings, x.ByDevice := by
      intro x hx
      rcases List.mem_cons.1 hx with rfl | hx
      · trivial
      · rw [List.mem_singleton.1 hx]
        trivial
    obtain ⟨hstored, htold⟩ := hrun scene happenings t hby ht
    exact ⟨t, ht, hlog, fun id entry he => (hstored id entry he).2.1,
      fun e he hcross => (htold e he hcross).1⟩

end PointerRouting
