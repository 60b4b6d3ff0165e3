/-
Devices that do not get in each other's way. A request to a device depends on that device and on
what its pointer sees of the surfaces, and changes nothing else that another pointer could see. So
where the pointers of the devices are distinct and the hosts are steady, a run of requests means for
each device what the requests to that device mean without the others (`agree_run`), and how the
requests of several devices are interleaved makes no difference to any of them.
-/
import PointerRouting.Proofs.Session.Run
import PointerRouting.Proofs.Surface.Seen
import PointerRouting.Scene

namespace PointerRouting

variable {σ K : Type} [Host σ K]

namespace Session

/-- Every tracker is filed, as in every session that has been started (`filed_run`), and every host
is steady. -/
structure Sound (s : Session σ K) : Prop where
  filed : s.Filed
  steady : ∀ a ∈ s.surfaces, Host.Steady a.host

/-- The device at `i` has the pointer `p`, and no other device has it. -/
def Owns (s : Session σ K) (i : Nat) (p : PointerId) : Prop :=
  ∀ (j : Nat) (d : Device K), s.devices[j]? = some d → (d.pointer.info.id = p ↔ j = i)

omit [Host σ K] in
theorem Owns.id {s : Session σ K} {i : Nat} {p : PointerId} (h : s.Owns i p) :
    ∀ d, s.devices[i]? = some d → d.pointer.info.id = p :=
  fun d hd => (h i d hd).2 rfl

/-- The device at `i` and the pointer `p` find the same in both sessions. -/
structure Agree (i : Nat) (p : PointerId) (s t : Session σ K) : Prop where
  device : s.devices[i]? = t.devices[i]?
  surfaces : s.surfaces.map (·.seenBy p) = t.surfaces.map (·.seenBy p)

section

variable {s t : Session σ K} {i j : Nat} {p q : PointerId}

theorem agree_refl (i : Nat) (p : PointerId) (s : Session σ K) : Agree i p s s := ⟨rfl, rfl⟩

theorem Agree.symm (h : Agree i p s t) : Agree i p t s := ⟨h.device.symm, h.surfaces.symm⟩

theorem Agree.trans {m : Session σ K} (h : Agree i p s m) (h' : Agree i p m t) : Agree i p s t :=
  ⟨h.device.trans h'.device, h.surfaces.trans h'.surfaces⟩

/-! ## What a request to one device leaves to the others -/

theorem Confined.touched (h : s.Confined i p t) {b : Surface σ K} (hb : b ∈ t.surfaces) :
    ∃ a ∈ s.surfaces, a.Touches p b := by
  obtain ⟨k, hk⟩ := List.mem_iff_getElem?.1 hb
  have hrel := h.surfaces k
  rw [hk] at hrel
  rcases ha : s.surfaces[k]? with _ | a
  · rw [ha] at hrel
    cases hrel
  · rw [ha] at hrel
    cases hrel with
    | some hab => exact ⟨a, List.mem_of_getElem? ha, hab⟩

theorem Confined.sound (h : s.Confined i p t) (hs : s.Sound) : t.Sound where
  filed b hb := by
    obtain ⟨a, ha, hab⟩ := h.touched hb
    exact hab.filed (hs.filed a ha)
  steady b hb := by
    obtain ⟨a, ha, hab⟩ := h.touched hb
    exact hab.steady (hs.steady a ha)

theorem Confined.owns (h : s.Confined i p t) (hs : s.Owns j q) : t.Owns j q := by
  intro k d' hd'
  have hinfo := congrArg (·[k]?) h.pointers
  simp only [List.getElem?_map, hd', Option.map_some] at hinfo
  obtain ⟨d, hd, hsame⟩ := Option.map_eq_some_iff.1 hinfo.symm
  rw [← hsame]
  exact hs k d hd

/-- A request to one device does not show to another, nor to its pointer. -/
theorem Confined.agree (h : s.Confined j q t) (hs : s.Sound) (hi : i ≠ j) (hp : p ≠ q) :
    Agree i p t s where
  device := h.others i hi
  surfaces := by
    refine List.ext_getElem? fun k => ?_
    rw [List.getElem?_map, List.getElem?_map]
    have hrel := h.surfaces k
    generalize t.surfaces[k]? = b? at hrel ⊢
    rcases ha : s.surfaces[k]? with _ | a <;> rw [ha] at hrel
    · cases hrel
      rfl
    · cases hrel with
      | some hab => exact congrArg some (hab.seenBy hp (hs.steady a (List.mem_of_getElem? ha)))

/-! ## What a request to one device means to it -/

theorem Agree.setDevice (h : Agree i p s t) (d : Device K) :
    Agree i p (s.setDevice i d) (t.setDevice i d) where
  device := by
    show (s.devices.set i d)[i]? = (t.devices.set i d)[i]?
    rw [List.getElem?_set_self', List.getElem?_set_self', h.device]
  surfaces := h.surfaces

theorem Agree.setSurface (h : Agree i p s t) {a b : Surface σ K} (hab : a.seenBy p = b.seenBy p)
    (k : Nat) : Agree i p (s.setSurface k a) (t.setSurface k b) where
  device := h.device
  surfaces := by
    show (s.surfaces.set k a).map (·.seenBy p) = (t.surfaces.set k b).map (·.seenBy p)
    rw [List.map_set, List.map_set, h.surfaces, hab]

theorem Agree.deviceAt (h : Agree i p s t) : s.deviceAt i = t.deviceAt i := by
  unfold Session.deviceAt
  rw [h.device]

theorem Agree.surfaceAt (h : Agree i p s t) (k : Nat) :
    Alike (fun a b => a.seenBy p = b.seenBy p) (s.surfaceAt k) (t.surfaceAt k) := by
  have hk := congrArg (·[k]?) h.surfaces
  simp only [List.getElem?_map] at hk
  unfold Session.surfaceAt
  rcases ha : s.surfaces[k]? with _ | a <;> rcases hb : t.surfaces[k]? with _ | b <;>
    rw [ha, hb] at hk
  · exact .refused _
  · cases hk
  · cases hk
  · exact .granted (Option.some.inj hk)

theorem Sound.surfaceAt (hs : s.Sound) {k : Nat} {a : Surface σ K} (ha : s.surfaceAt k = .ok a) :
    Host.Steady a.host ∧ a.hover.Filed :=
  have hmem := List.mem_of_getElem? (of_surfaceAt ha)
  ⟨hs.steady a hmem, hs.filed a hmem⟩

theorem alike_onDevice (h : Agree i p s t) (act : Device K → Answer K × Device K) :
    Alike (fun x y => x.1 = y.1 ∧ Agree i p x.2 y.2) (s.onDevice i act) (t.onDevice i act) := by
  unfold onDevice
  rw [h.deviceAt]
  rcases t.deviceAt i with fault | d
  · exact .refused fault
  · exact .granted ⟨rfl, h.setDevice _⟩

variable [DecidableEq K]

/-- A report is answered alike in sessions that agree on its device and on what its pointer sees. -/
theorem alike_process (h : Agree i p s t) (hs : s.Sound) (ht : t.Sound) (hown : s.Owns i p)
    (limit k : Nat) (r : Report) :
    Alike (fun x y => x.1 = y.1 ∧ Agree i p x.2 y.2) (s.process limit i k r)
      (t.process limit i k r) := by
  unfold process
  rw [← h.deviceAt]
  rcases hd : s.deviceAt i with fault | d
  · exact .refused fault
  have hp := hown.id d (of_deviceAt hd)
  refine (h.surfaceAt k).bind fun a b ha hb hab => ?_
  obtain ⟨hsa, hfa⟩ := hs.surfaceAt ha
  obtain ⟨hsb, hfb⟩ := ht.surfaceAt hb
  have hsame : (d.process limit a r).map (Handling.seenBy p) =
      (d.process limit b r).map (Handling.seenBy p) := by
    rw [← Device.process_seenBy hp hsa hfa, ← Device.process_seenBy hp hsb hfb, hab]
  refine (alike_of_map hsame).bind fun x y _ _ hxy => .granted ?_
  have houtcome : x.outcome = y.outcome := congrArg (·.outcome) hxy
  have hdevice : x.device = y.device := congrArg (·.device) hxy
  have hagree := (h.setDevice x.device).setSurface (congrArg (·.surface) hxy) k
  rw [houtcome, hdevice] at *
  exact ⟨rfl, hagree.device, hagree.surfaces⟩

theorem alike_sceneChanged (h : Agree i p s t) (hs : s.Sound) (ht : t.Sound) (hown : s.Owns i p)
    (limit k : Nat) (area : Rect) :
    Alike (fun x y => x.1 = y.1 ∧ Agree i p x.2 y.2) (s.step limit (.sceneChanged i k area))
      (t.step limit (.sceneChanged i k area)) := by
  change Alike _ (s.deviceAt i >>= _) (t.deviceAt i >>= _)
  rw [← h.deviceAt]
  rcases hd : s.deviceAt i with fault | d
  · exact .refused fault
  have hp := hown.id d (of_deviceAt hd)
  refine (h.surfaceAt k).bind fun a b ha hb hab => ?_
  have hleft := Device.sceneChanged_seenBy hp (hs.surfaceAt ha).1 limit area
  have hright := Device.sceneChanged_seenBy hp (ht.surfaceAt hb).1 limit area
  rw [hab] at hleft
  have hsame := hleft.symm.trans hright
  dsimp only
  generalize d.sceneChanged limit a area = x at hsame ⊢
  generalize d.sceneChanged limit b area = y at hsame ⊢
  rcases x with _ | ⟨changed, a'⟩ <;> rcases y with _ | ⟨changed', b'⟩ <;>
    simp only [Option.map_none, Option.map_some, Option.some.injEq, Prod.mk.injEq,
      reduceCtorEq] at hsame
  · exact .refused _
  · exact .granted ⟨congrArg Answer.flag hsame.1, h.setSurface hsame.2 k⟩

theorem alike_detachCapture (h : Agree i p s t) (limit k : Nat) (element : K)
    (formerParent : Option K) :
    Alike (fun x y => x.1 = y.1 ∧ Agree i p x.2 y.2)
      (s.step limit (.detachCapture i k element formerParent))
      (t.step limit (.detachCapture i k element formerParent)) := by
  change Alike _ (s.deviceAt i >>= _) (t.deviceAt i >>= _)
  rw [← h.deviceAt]
  rcases s.deviceAt i with fault | d
  · exact .refused fault
  refine (h.surfaceAt k).bind fun a b _ _ hab => ?_
  have hlinks : Host.parentOf a.host = Host.parentOf b.host := congrArg (·.host.parentOf) hab
  rw [hlinks]
  rcases d.detach (Host.parentOf b.host) limit element formerParent with _ | ⟨changed, d'⟩
  · exact .refused _
  · exact .granted ⟨rfl, h.setDevice d'⟩

/-- A request to a device has the same answer in sessions that the device and its pointer cannot
tell apart, and they cannot tell them apart afterwards either. -/
theorem Agree.attempt (h : Agree i p s t) (hs : s.Sound) (ht : t.Sound) (hown : s.Owns i p)
    {step : Step K} (hstep : step.device? = some i) (limit : Nat) :
    (s.attempt limit step).1 = (t.attempt limit step).1 ∧
      Agree i p (s.attempt limit step).2 (t.attempt limit step).2 := by
  have halike : Alike (fun x y => x.1 = y.1 ∧ Agree i p x.2 y.2) (s.step limit step)
      (t.step limit step) := by
    rcases step_cases (σ := σ) hstep limit with
      ⟨act, -, heq⟩ | ⟨k, r, rfl⟩ | ⟨k, area, rfl⟩ | ⟨k, e, f, rfl⟩
    · rw [heq, heq]
      exact alike_onDevice h act
    · exact alike_process h hs ht hown limit k r
    · exact alike_sceneChanged h hs ht hown limit k area
    · exact alike_detachCapture h limit k e f
  obtain ⟨hanswer, hagree⟩ := attempt_of_alike h halike
  exact ⟨hanswer.eq, hagree⟩

/-! ## Runs -/

/-- A request to another device changes nothing for the device at `i` and its pointer. -/
theorem agree_attempt (hs : s.Sound) (hown : s.Owns i p) {step : Step K}
    (hstep : step.device? = some j) (hi : i ≠ j) (limit : Nat) :
    Agree i p (s.attempt limit step).2 s ∧ (s.attempt limit step).2.Sound ∧
      (s.attempt limit step).2.Owns i p := by
  rcases hd : s.devices[j]? with _ | d
  · rw [attempt_of_no_device hstep hd]
    exact ⟨agree_refl i p s, hs, hown⟩
  · have hconfined : s.Confined j d.pointer.info.id (s.attempt limit step).2 := by
      refine confined_attempt hstep (fun d' hd' => ?_) hs.filed limit
      rw [hd] at hd'
      cases hd'
      rfl
    -- were it the same pointer, the two devices would be the same one
    have hp : p ≠ d.pointer.info.id := fun he => hi ((hown j d hd).1 he.symm).symm
    exact ⟨hconfined.agree hs hi hp, hconfined.sound hs, hconfined.owns hown⟩

/-- To the device at `i` and its pointer a run of requests to devices means what the requests to
that device mean without the others. -/
theorem agree_run (limit : Nat) : ∀ (steps : List (Step K)) {s t : Session σ K},
    (∀ step ∈ steps, step.device? ≠ none) → Agree i p s t → s.Sound → t.Sound → s.Owns i p →
      (s.run limit steps).1.filter (·.1.device? = some i) =
          (t.run limit (steps.filter (·.device? = some i))).1 ∧
        Agree i p (s.run limit steps).2 (t.run limit (steps.filter (·.device? = some i))).2
  | [], _, _, _, h, _, _, _ => ⟨rfl, h⟩
  | step :: steps, s, t, haddressed, h, hs, ht, hown => by
    obtain ⟨hstep, hsteps⟩ := List.forall_mem_cons.1 haddressed
    obtain ⟨j, hj⟩ := Option.ne_none_iff_exists'.1 hstep
    rw [run_cons]
    dsimp only
    by_cases hi : i = j
    · subst hi
      -- the request is made in both runs
      have hs' := confined_attempt hj hown.id hs.filed limit
      have ht' := confined_attempt hj (h.device ▸ hown.id) ht.filed limit
      obtain ⟨hanswer, hnext⟩ := h.attempt hs ht hown hj limit
      obtain ⟨hrest, hagree⟩ :=
        agree_run limit steps hsteps hnext (hs'.sound hs) (ht'.sound ht) (hs'.owns hown)
      rw [List.filter_cons_of_pos (by simpa using hj), List.filter_cons_of_pos (by simpa using hj),
        run_cons, hanswer, hrest]
      exact ⟨rfl, hagree⟩
    · -- the request is made in the first run alone
      have hne : step.device? ≠ some i := by
        rw [hj]
        exact fun he => hi (Option.some.inj he).symm
      obtain ⟨hsame, hs', hown'⟩ := agree_attempt hs hown hj hi limit
      rw [List.filter_cons_of_neg (by simpa using hne),
        List.filter_cons_of_neg (by simpa using hne)]
      exact agree_run limit steps hsteps (hsame.trans h) hs' ht hown'

/-! ## Interleavings -/

omit [DecidableEq K] [Host σ K] in
theorem owns_of_nodup (hids : (s.devices.map (·.pointer.info.id)).Nodup) {d : Device K}
    (hd : s.devices[i]? = some d) : s.Owns i d.pointer.info.id := by
  intro j d' hd'
  constructor
  · intro he
    have hget : ∀ (k : Nat) (e : Device K), s.devices[k]? = some e →
        (s.devices.map (·.pointer.info.id))[k]? = some e.pointer.info.id := by
      intro k e hk
      rw [List.getElem?_map, hk, Option.map_some]
    have hj := hget j d' hd'
    refine (List.getElem?_inj (List.getElem?_eq_some_iff.1 hj).1 hids).1 ?_
    rw [hj, hget i d hd, he]
  · rintro rfl
    rw [hd] at hd'
    cases hd'
    rfl

omit [DecidableEq K] [Host σ K] in
theorem owns_of_not_mem (hi : s.devices[i]? = none)
    (hp : p ∉ s.devices.map (·.pointer.info.id)) : s.Owns i p := by
  intro j d hd
  constructor
  · rintro rfl
    exact absurd (List.mem_map_of_mem (List.mem_of_getElem? hd)) hp
  · rintro rfl
    rw [hi] at hd
    cases hd

omit [DecidableEq K] [Host σ K] in
/-- Every place has a pointer that no other place has. -/
theorem exists_pointer (hids : (s.devices.map (·.pointer.info.id)).Nodup) (i : Nat) :
    ∃ p, s.Owns i p := by
  rcases hd : s.devices[i]? with _ | d
  · -- no device is there, and there are more numbers than devices
    have hinfinite : Infinite PointerId := by
      refine .of_injective (fun n : Nat => ⟨n + 1, n.succ_pos⟩) fun a b he => ?_
      simpa using he
    obtain ⟨p, hp⟩ := Infinite.exists_notMem_finset (s.devices.map (·.pointer.info.id)).toFinset
    exact ⟨p, owns_of_not_mem hd (by simpa using hp)⟩
  · exact ⟨d.pointer.info.id, owns_of_nodup hids hd⟩

omit [DecidableEq K] [Host σ K] in
/-- Every pointer has a place that no other pointer has. -/
theorem exists_place (hids : (s.devices.map (·.pointer.info.id)).Nodup) (p : PointerId) :
    ∃ i, s.Owns i p := by
  by_cases hp : p ∈ s.devices.map (·.pointer.info.id)
  · obtain ⟨d, hd, rfl⟩ := List.mem_map.1 hp
    obtain ⟨i, hi⟩ := List.mem_iff_getElem?.1 hd
    exact ⟨i, owns_of_nodup hids hi⟩
  · exact ⟨s.devices.length, owns_of_not_mem (by simp) hp⟩

end

/-- What every pointer sees alike is stored alike. -/
theorem hovers_eq {s t : Session σ K}
    (h : ∀ p, s.surfaces.map (·.seenBy p) = t.surfaces.map (·.seenBy p)) :
    s.surfaces.map (·.hover) = t.surfaces.map (·.hover) := by
  have hentries : ∀ (k : Nat) (p : PointerId),
      s.surfaces[k]?.map (·.hover.entries[p]?) = t.surfaces[k]?.map (·.hover.entries[p]?) := by
    intro k p
    have hview := congrArg (fun l => l[k]?.map (·.hover.entries[p]?)) (h p)
    simp only [List.getElem?_map, Option.map_map, Function.comp_def, Surface.seenBy,
      Hover.entries_only, if_true] at hview
    exact hview
  refine List.ext_getElem? fun k => ?_
  rw [List.getElem?_map, List.getElem?_map]
  have hk := hentries k
  generalize s.surfaces[k]? = a at hk ⊢
  generalize t.surfaces[k]? = b at hk ⊢
  rcases a with _ | a <;> rcases b with _ | b
  · rfl
  · cases hk default
  · cases hk default
  · exact congrArg some (Hover.ext_entries fun p => Option.some.inj (hk p))

/-- Two runs of requests to devices that hold the same requests for every device, in the same
order. Where the hosts are steady and no two devices have the same pointer, both leave every device
alike, give every request the same answer, store the same for every pointer and tell the elements
the same of every pointer. -/
theorem interleavings_agree [DecidableEq K] {s : Session σ K} (hs : s.Sound)
    (hids : (s.devices.map (·.pointer.info.id)).Nodup) {steps others : List (Step K)}
    (hsteps : ∀ step ∈ steps, step.device? ≠ none)
    (hothers : ∀ step ∈ others, step.device? ≠ none)
    (hsame : ∀ i, steps.filter (·.device? = some i) = others.filter (·.device? = some i))
    (limit : Nat) :
    let one := s.run limit steps
    let other := s.run limit others
    one.2.devices = other.2.devices ∧
    (∀ i, one.1.filter (·.1.device? = some i) = other.1.filter (·.1.device? = some i)) ∧
    one.2.surfaces.map (·.hover) = other.2.surfaces.map (·.hover) ∧
    ∀ p, one.2.surfaces.map (fun a => a.log.filter (·.event.pointer.id = p)) =
      other.2.surfaces.map (fun a => a.log.filter (·.event.pointer.id = p)) := by
  intro one other
  have hown : ∀ i p, s.Owns i p →
      one.1.filter (·.1.device? = some i) = other.1.filter (·.1.device? = some i) ∧
        Agree i p one.2 other.2 := by
    intro i p hip
    obtain ⟨hone, hagree⟩ := agree_run limit steps hsteps (agree_refl i p s) hs hs hip
    obtain ⟨hother, hagree'⟩ := agree_run limit others hothers (agree_refl i p s) hs hs hip
    rw [hsame i] at hone hagree
    exact ⟨hone.trans hother.symm, hagree.trans hagree'.symm⟩
  have hseen : ∀ p, one.2.surfaces.map (·.seenBy p) = other.2.surfaces.map (·.seenBy p) := by
    intro p
    obtain ⟨i, hip⟩ := exists_place hids p
    exact (hown i p hip).2.surfaces
  refine ⟨List.ext_getElem? fun i => ?_, fun i => ?_, hovers_eq hseen, fun p => ?_⟩
  · obtain ⟨p, hip⟩ := exists_pointer hids i
    exact (hown i p hip).2.device
  · obtain ⟨p, hip⟩ := exists_pointer hids i
    exact (hown i p hip).1
  · have hlogs := congrArg (List.map fun a : Surface (Manner K) K => a.log) (hseen p)
    rw [List.map_map, List.map_map] at hlogs
    exact hlogs

/-- Two mice come to a scene with one element in it, which hears of them in the order in which they
come, and of each by itself the same in either order. -/
theorem two_mice_in_either_order :
    let scene : Scene Nat := { root := ⟨1⟩, backdrop := some 5 }
    let mouse (n : Nat) (h : 0 < n) : Device Nat := .ofPointer ⟨n⟩ ⟨⟨n, h⟩, .mouse, true⟩ .standard
    let s : Session (Scene Nat) Nat :=
      { surfaces := [{ host := scene }], devices := [mouse 1 Nat.one_pos, mouse 2 Nat.two_pos] }
    let move (i : Nat) : Step Nat :=
      .process i 0 { kind := .move, device := ⟨i⟩, root := ⟨1⟩, time := 0, position := ⟨0, 0⟩ }
    let heard (t : Session (Scene Nat) Nat) : List (List Nat) :=
      t.surfaces.map fun a => a.log.map (·.event.pointer.id.number)
    heard (s.run 1 [move 0, move 1]).2 = [[1, 1, 2, 2]] ∧
    heard (s.run 1 [move 1, move 0]).2 = [[2, 2, 1, 1]] ∧
    (s.run 1 [move 0, move 1]).2.devices = (s.run 1 [move 1, move 0]).2.devices ∧
    ∀ p, ((s.run 1 [move 0, move 1]).2.surfaces.map fun a =>
        a.log.filter (·.event.pointer.id = p)) =
      (s.run 1 [move 1, move 0]).2.surfaces.map fun a =>
        a.log.filter (·.event.pointer.id = p) := by
  intro scene mouse s move heard
  have hsound : s.Sound := by
    constructor
    · intro a ha
      rw [List.mem_singleton.1 ha]
      exact Hover.proper_empty.toFiled
    · intro a ha
      rw [List.mem_singleton.1 ha]
      exact Host.steady_of_respond fun n e => rfl
  have hids : (s.devices.map (·.pointer.info.id)).Nodup := by decide
  have haddressed : ∀ i j, ∀ step ∈ [move i, move j], step.device? ≠ none := by
    simp [move, Step.device?]
  have hsame : ∀ i, [move 0, move 1].filter (·.device? = some i) =
      [move 1, move 0].filter (·.device? = some i) := by
    intro i
    by_cases h0 : 0 = i <;> by_cases h1 : 1 = i <;> simp [move, Step.device?, h0, h1]
  obtain ⟨hdevices, -, -, hlogs⟩ :=
    interleavings_agree hsound hids (haddressed 0 1) (haddressed 1 0) hsame 1
  refine ⟨?_, ?_, hdevices, hlogs⟩
  · decide +kernel
  · decide +kernel

end Session

end PointerRouting
