/-
A change of the scene beside a move at the same place. Both put the pointer over what is under it,
one after an event was sent and one without, and under other details. Where a pointer comes to be
and what elements are told of it depend on neither: on what the tracker stores, on the links and on
the target alone (`hoverAt_alike`). So as long as elements leave links and hits as they are, a
device that a change of the scene concerns hovers as after a move, and tells as much of it
(`scene_change_hovers_like_move`).

The answer to the change, whether the pointer is over another element, is also whether anybody was
told anything: of two paths that end differently one has an element that the other has not.
-/
import PointerRouting.Proofs.Device.Account
import PointerRouting.Proofs.Session.Disposal
import PointerRouting.Proofs.Surface.Walk
import PointerRouting.Scene

namespace PointerRouting

variable {σ K : Type} [Host σ K]

namespace Surface

/-! ## Where a pointer comes to be -/

variable [DecidableEq K]

section

variable {s t : Surface σ K} {limit : Nat} {pointer : PointerIdentity} {details : Details}
  {target before : Option K}

/-- A pointer's path is another one just where the pointer came to be over another element. -/
theorem path_hoverAt_eq_iff (h : s.hoverAt limit pointer details target = some (before, t)) :
    s.hover.path pointer.id = t.hover.path pointer.id ↔ before = target := by
  constructor
  · intro hpath
    rw [(hoverAt_cases h).1, Hover.deepest, hpath]
    exact deepest_hoverAt h
  · intro hsame
    rcases (hoverAt_cases h).2 with ⟨-, rfl⟩ | ⟨hother, -⟩
    · exact (s.hover.path_refresh ..).symm
    · exact absurd hsame hother

/-- Where a pointer comes to be does not depend on the details, nor on what was told before. -/
theorem hoverAt_alike {a : Surface σ K} (hhover : a.hover = s.hover)
    (hlinks : Host.parentOf a.host = Host.parentOf s.host)
    (h : s.hoverAt limit pointer details target = some (before, t)) (details' : Details) :
    ∃ b, a.hoverAt limit pointer details' target = some (before, b) ∧
      ∀ q, b.hover.path q = t.hover.path q := by
  have hpaths : a.pathTo limit target = s.pathTo limit target := by
    unfold pathTo
    rw [hlinks]
  obtain ⟨rfl, ⟨hsame, rfl⟩ | ⟨hother, path, hpath, rfl⟩⟩ := hoverAt_cases h
  · refine ⟨{ a with hover := a.hover.refresh pointer.id details' }, ?_, fun q => ?_⟩
    · rw [hoverAt, hhover, if_pos hsame]
    · show (a.hover.refresh pointer.id details').path q =
        (s.hover.refresh pointer.id details).path q
      rw [Hover.path_refresh, Hover.path_refresh, hhover]
  · refine ⟨announce { a with hover := (a.hover.setPath pointer details' path).1 } pointer details'
      (Transition.between (a.hover.path pointer.id) path), ?_, fun q => ?_⟩
    · rw [hoverAt, hhover, if_neg hother, hpaths, hpath]
      rfl
    · show (a.hover.setPath pointer details' path).1.path q =
        (s.hover.setPath pointer details path).1.path q
      rw [Hover.path_setPath, Hover.path_setPath, hhover]

/-- A pointer that is put where it is, under the details it has, leaves everything as it was. -/
theorem hoverAt_self (hat : s.hover.deepest pointer.id = target)
    (hdetails : ∀ entry : HoverEntry K, s.hover.entries[pointer.id]? = some entry →
      entry.details = details) (limit : Nat) :
    s.hoverAt limit pointer details target = some (target, s) := by
  rw [hoverAt, if_pos hat, Hover.refresh_self hdetails, hat]

end

/-! ## What is told of it -/

/-- By the deliveries `ds` the surface `a` becomes `b` as the pointer `id` notices what is under it,
with the answer `changed`. -/
structure Noticed (a : Surface σ K) (id : PointerId) (changed : Bool) (ds : List (Delivery K))
    (b : Surface σ K) : Prop where
  told : a.Told ds b.toStage
  crosses : ∀ e ∈ ds, e.event.payload = .enter ∨ e.event.payload = .leave
  changed_iff : changed = true ↔ a.hover.deepest id ≠ b.hover.deepest id
  news_iff : changed = true ↔ ds ≠ []

/-- The surface `a` becomes `b` or `c`, which have every pointer at the same place, and the elements
are told the same arrivals and departures, after other events on the way to `c`. -/
structure HoversAlike (a b c : Surface σ K) : Prop where
  path : ∀ q, b.hover.path q = c.hover.path q
  deepest : ∀ q, b.hover.deepest q = c.hover.deepest q
  told : ∃ ds sent es, a.Told ds b.toStage ∧ a.Told (sent ++ es) c.toStage ∧
    (∀ e ∈ sent, e.event.payload ≠ .enter ∧ e.event.payload ≠ .leave) ∧
    ds.map (fun e => (e.event.payload, e.node)) = es.map fun e => (e.event.payload, e.node)

theorem noticed_hoverAt {s t : Surface σ K} {limit : Nat} {pointer : PointerIdentity}
    {details : Details} {target before : Option K}
    (h : s.hoverAt limit pointer details target = some (before, t)) :
    ∃ ds, s.Noticed pointer.id (before ≠ target) ds t := by
  obtain ⟨ds, hds, hann, -⟩ := announces_hoverAt h
  refine ⟨ds, hds, hann.tellOf.crosses, ?_, ?_⟩
  · rw [deepest_hoverAt h, (hoverAt_cases h).1]
    exact decide_eq_true_iff
  · have hnil : ds = [] ↔ before = target := by
      calc ds = [] ↔ ds.map (fun e => (e.node, e.event)) = [] := List.map_eq_nil_iff.symm
        _ ↔ Transition.between (s.hover.path pointer.id) (t.hover.path pointer.id) = [] := by
          rw [hann, List.map_eq_nil_iff]
        _ ↔ s.hover.path pointer.id = t.hover.path pointer.id := Transition.between_eq_nil_iff ..
        _ ↔ before = target := path_hoverAt_eq_iff h
    rw [decide_eq_true_iff, Ne, Ne, hnil]

end Surface

/-! ## What a device makes of it -/

namespace Device

variable [DecidableEq K] {d : Device K} {a b : Surface σ K} {l : Layout K} {area : Rect}
  {position : Point} {changed : Bool}

/-- Once a device knows of a change, being told of it again does nothing. -/
theorem sceneChanged_again {limit : Nat} (ha : Host.Keeps a.host l)
    (h : d.sceneChanged limit a area = some (changed, b)) (again : Nat) :
    d.sceneChanged again b area = some (false, b) := by
  have hb := (touches_sceneChanged h).keeps ha
  have hroot : b.root = a.root := hb.root.trans ha.root.symm
  rcases sceneChanged_cases h with ⟨hp, rfl, rfl⟩ | ⟨position, before, hp, hhover, rfl⟩
  · rw [sceneChanged, hp]
  · have hat : b.hover.deepest d.pointer.info.id = Host.hitTest b.host position := by
      rw [Surface.deepest_hoverAt hhover, ha.hitTest, hb.hitTest]
    have hdetails : ∀ entry : HoverEntry K, b.hover.entries[d.pointer.info.id]? = some entry →
        entry.details = b.hover.detailsAt d.pointer.info.id position := by
      intro entry he
      have hentry : entry.details.position = position := by
        rw [Surface.details_hoverAt hhover he, Hover.position_detailsAt]
      exact (Hover.detailsAt_of_entry he hentry).symm
    rw [← hroot] at hp
    rw [sceneChanged_eq_hoverAt hp, Surface.hoverAt_self hat hdetails]
    simp

/-- If a move comes to an end then so does a change of the scene around its place, and both leave
the pointer hovering alike. -/
theorem sceneChanged_of_move {limit : Nat} {r : Report} {handling : Handling σ K}
    (ha : Host.Keeps a.host l) (hp : d.hoverPosition a.root area = some r.position)
    (hr : r.kind = .move) (h : d.process limit a r = .ok handling) :
    ∃ changed b, d.sceneChanged limit a area = some (changed, b) ∧
      a.HoversAlike b handling.surface := by
  obtain ⟨hlive, hkind, -, -⟩ := (d.hoverPosition_eq_some_iff ..).1 hp
  obtain ⟨outcome, stage, surface, hsent, hfollow, rfl⟩ := phases_of_used hlive h
  have hstage := (touches_dispatch hsent).keeps ha
  obtain ⟨sent, htold, hplain⟩ := told_dispatch hsent
  obtain ⟨before, hhover⟩ := hoverAt_of_moves (.inl hr) hkind hfollow
  have hlinks : Host.parentOf a.host = Host.parentOf stage.host :=
    ha.parentOf.trans hstage.parentOf.symm
  obtain ⟨b, hb, hpaths⟩ := Surface.hoverAt_alike (a := a) (s := { a with toStage := stage }) rfl
    hlinks hhover (a.hover.detailsAt d.pointer.info.id r.position)
  refine ⟨before ≠ Host.hitTest a.host r.position, b, ?_, hpaths,
    fun q => congrArg List.getLast? (hpaths q), ?_⟩
  · rw [sceneChanged_eq_hoverAt hp, hb]
    rfl
  · obtain ⟨ds, hds, hann, -⟩ := Surface.announces_hoverAt hb
    obtain ⟨es, hes, hann', -⟩ := Surface.announces_hoverAt hhover
    refine ⟨ds, sent, es, hds, htold.append hes, hplain, ?_⟩
    have htell := hann.tellOf
    rw [hpaths] at htell
    have hsame := congrArg (List.map fun x => (x.2.2, x.1)) (htell.trans hann'.tellOf.symm)
    rw [List.map_map, List.map_map] at hsame
    exact hsame

end Device

/-! ## What a session makes of it -/

namespace Session

variable [DecidableEq K] {s t : Session σ K} {i k : Nat} {d : Device K} {a : Surface σ K}
  {answer : Answer K}

theorem step_sceneChanged_iff (hd : s.devices[i]? = some d) (ha : s.surfaces[k]? = some a)
    {limit : Nat} {area : Rect} : s.step limit (.sceneChanged i k area) = .ok (answer, t) ↔
      ∃ changed b, d.sceneChanged limit a area = some (changed, b) ∧ answer = .flag changed ∧
        t = s.setSurface k b := by
  constructor
  · intro h
    obtain ⟨d', hd', h⟩ := of_bind_ok h
    obtain ⟨a', b, ha', hact, rfl⟩ := of_onSurface h
    rw [of_deviceAt hd'] at hd
    rw [ha'] at ha
    cases hd
    cases ha
    obtain ⟨⟨changed, c⟩, hchange, he⟩ := Option.map_eq_some_iff.1 hact
    cases he
    exact ⟨changed, b, hchange, rfl, rfl⟩
  · rintro ⟨changed, b, hchange, rfl, rfl⟩
    rw [step, deviceAt_eq hd]
    refine onSurface_of_some ha ?_
    rw [hchange]
    rfl

theorem step_process_iff (hd : s.devices[i]? = some d) (ha : s.surfaces[k]? = some a)
    {limit : Nat} {r : Report} : s.step limit (.process i k r) = .ok (answer, t) ↔
      ∃ x, d.process limit a r = .ok x ∧ answer = .outcome x.outcome ∧
        t = { (s.setDevice i x.device).setSurface k x.surface with
          registry := s.registry.note r x.outcome } := by
  constructor
  · intro h
    obtain ⟨d', hd', h⟩ := of_bind_ok h
    obtain ⟨a', ha', h⟩ := of_bind_ok h
    obtain ⟨x, hx, h⟩ := of_bind_ok h
    cases h
    rw [of_deviceAt hd'] at hd
    rw [of_surfaceAt ha'] at ha
    cases hd
    cases ha
    exact ⟨x, hx, rfl, rfl⟩
  · rintro ⟨x, hx, rfl, rfl⟩
    rw [step, process, deviceAt_eq hd, surfaceAt_eq ha]
    show (d.process limit a r >>= _) = _
    rw [hx]
    rfl

end Session

variable [DecidableEq K]

/-- The scene changes around the place where a device that is in use and no touch was last, whoever
has its pointer; elements leave links and hits as they are when they are told of events. If there is
an answer to that, it is whether the pointer is over another element than before, and whether
anybody was told anything; the devices stay as they were, and nothing comes of asking again. If a
move at the place comes to an end, there is an answer, and all the pointers hover as after the move,
having told elements the same arrivals and departures. Both come to an end if all walks up the tree
do. A change of the scene that does not concern the device does nothing. -/
theorem scene_change_hovers_like_move {s : Session σ K} {i k : Nat} {d : Device K}
    {a : Surface σ K} {l : Layout K} (hd : s.devices[i]? = some d) (ha : s.surfaces[k]? = some a)
    (hl : Host.Keeps a.host l) (area : Rect) :
    (∀ p, d.disposed = false → d.pointer.info.kind ≠ .touch → d.position = some (a.root, p) →
      area.covers p = true →
      (∀ limit answer t, s.step limit (.sceneChanged i k area) = .ok (answer, t) →
        ∃ changed ds b, answer = .flag changed ∧ t = s.setSurface k b ∧
          a.Noticed d.pointer.info.id changed ds b ∧
          b.hover.deepest d.pointer.info.id = Host.hitTest a.host p ∧
          ∀ again, t.step again (.sceneChanged i k area) = .ok (.flag false, t)) ∧
      ∀ r : Report, r.kind = .move → r.root = a.root → r.position = p →
        (∀ limit answer m, s.step limit (.process i k r) = .ok (answer, m) →
          ∃ changed b c, s.step limit (.sceneChanged i k area) =
              .ok (.flag changed, s.setSurface k b) ∧
            m.surfaces[k]? = some c ∧ a.HoversAlike b c) ∧
        (Tree.Acyclic l.parentOf → ∃ bound x y, ∀ limit, bound ≤ limit →
          s.step limit (.sceneChanged i k area) = .ok x ∧
          s.step limit (.process i k r) = .ok y)) ∧
    ((d.disposed = true ∨ d.pointer.info.kind = .touch ∨
        ∀ p, d.position = some (a.root, p) → area.covers p = false) →
      ∀ limit, s.step limit (.sceneChanged i k area) = .ok (.flag false, s)) := by
  refine ⟨fun p hlive hkind hplace harea => ?_, fun hapart limit => ?_⟩
  · have hp := (d.hoverPosition_eq_some_iff ..).2 ⟨hlive, hkind, hplace, harea⟩
    refine ⟨fun limit answer t h => ?_, fun r hr hroot hposition => ⟨fun limit answer m h => ?_,
      fun hf => ?_⟩⟩
    · obtain ⟨changed, b, hchange, rfl, rfl⟩ := (Session.step_sceneChanged_iff hd ha).1 h
      obtain ⟨before, hhover, rfl⟩ := Device.of_sceneChanged hp hchange
      obtain ⟨ds, hnoticed⟩ := Surface.noticed_hoverAt hhover
      refine ⟨_, ds, b, rfl, rfl, hnoticed, Surface.deepest_hoverAt hhover, fun again => ?_⟩
      have hb := Session.surfaces_setSurface ha b
      refine (Session.step_sceneChanged_iff (s := s.setSurface k b) hd hb).2
        ⟨false, b, Device.sceneChanged_again hl hchange again, rfl, ?_⟩
      exact (Session.setSurface_self hb).symm
    · subst hposition
      obtain ⟨x, hx, rfl, rfl⟩ := (Session.step_process_iff hd ha).1 h
      obtain ⟨changed, b, hchange, halike⟩ := Device.sceneChanged_of_move hl hp hr hx
      refine ⟨changed, b, x.surface, ?_, ?_, halike⟩
      · exact (Session.step_sceneChanged_iff hd ha).2 ⟨changed, b, hchange, rfl, rfl⟩
      · exact Session.surfaces_setSurface (s := s.setDevice i x.device) ha x.surface
    · obtain ⟨⟨changed, b⟩, bound, hchange⟩ := Device.returns_sceneChanged hf hl d area
      obtain ⟨x, larger, hprocess⟩ := Device.exists_process hf hl hlive hroot
      let after : Session σ K := { (s.setDevice i x.device).setSurface k x.surface with
        registry := s.registry.note r x.outcome }
      refine ⟨max bound larger, (.flag changed, s.setSurface k b), (.outcome x.outcome, after),
        fun limit hle => ⟨?_, ?_⟩⟩
      · exact (Session.step_sceneChanged_iff hd ha).2
          ⟨changed, b, hchange limit (by omega), rfl, rfl⟩
      · exact (Session.step_process_iff hd ha).2 ⟨x, hprocess limit (by omega), rfl, rfl⟩
  · refine (Session.step_sceneChanged_iff hd ha).2 ⟨false, a, ?_, rfl, ?_⟩
    · rw [Device.sceneChanged, Device.hoverPosition_eq_none hapart]
    · exact (Session.setSurface_self ha).symm

/-- A mouse that `9` has captured was over `2` when that lay in `5`, and `3` is under it now, which
lies in `2`, in `1`. A change of the scene whose area has the mouse at a corner tells of the same
arrivals and departures as a move, which `9` handles before. -/
theorem captured_mouse_notices_three :
    let mouse : PointerIdentity := ⟨⟨1, Nat.one_pos⟩, .mouse, true⟩
    let scene : Scene Nat :=
      { root := ⟨1⟩, links := [(3, 2), (2, 1)], backdrop := some 3, handles := [(9, .moved)] }
    let a : Surface (Scene Nat) Nat :=
      { host := scene, hover := (Hover.empty.setPath mouse (.bare ⟨0, 0⟩ 0) [5, 2]).1 }
    let d : Device Nat :=
      { id := ⟨1⟩
        pointer := { info := mouse, captured := some 9 }
        position := some (⟨1⟩, ⟨3, 4⟩) }
    let s : Session (Scene Nat) Nat := { surfaces := [a], devices := [d] }
    let r : Report := { kind := .move, device := ⟨1⟩, root := ⟨1⟩, time := 8, position := ⟨3, 4⟩ }
    let area : Rect := ⟨0, 0, 3, 4⟩
    let change : Step Nat := .sceneChanged 0 0 area
    Host.Keeps a.host (Host.layout scene) ∧ area.covers ⟨3, 4⟩ = true ∧
    ∃ ds b c m, s.step 3 change = .ok (.flag true, s.setSurface 0 b) ∧
      a.Noticed mouse.id true ds b ∧
      ds.map (fun e => (e.node, e.event.kind)) =
        [(2, .leave), (5, .leave), (3, .enter), (2, .enter), (1, .enter)] ∧
      (s.setSurface 0 b).step 1 change = .ok (.flag false, s.setSurface 0 b) ∧
      s.step 3 (.process 0 0 r) = .ok (.outcome (.routed .moved 9 true), m) ∧
      m.surfaces[0]? = some c ∧ a.HoversAlike b c := by
  intro mouse scene a d s r area change
  have hkeeps : Host.Keeps a.host (Host.layout scene) :=
    (Host.steady_of_respond fun n e => rfl).keeps
  have harea : area.covers ⟨3, 4⟩ = true := by decide +kernel
  have hnews : (s.step 3 change).toOption.map (fun x => (x.1, x.2.surfaces.map fun a =>
      a.log.map fun e => (e.node, e.event.kind))) = some (.flag true,
        [[(2, .leave), (5, .leave), (3, .enter), (2, .enter), (1, .enter)]]) := by
    decide +kernel
  have houtcome : (s.step 3 (.process 0 0 r)).toOption.map (·.1) =
      some (.outcome (.routed .moved 9 true)) := by
    decide +kernel
  obtain ⟨hconcerned, -⟩ :=
    scene_change_hovers_like_move (s := s) (i := 0) (k := 0) (d := d) (a := a) rfl rfl hkeeps area
  obtain ⟨hchange, hmove⟩ := hconcerned ⟨3, 4⟩ rfl (by decide) rfl harea
  rcases hs : s.step 3 change with fault | ⟨answer, t⟩
  · rw [hs] at hnews
    cases hnews
  rcases hm : s.step 3 (.process 0 0 r) with fault | ⟨answer', m⟩
  · rw [hm] at houtcome
    cases houtcome
  obtain ⟨changed, ds, b, rfl, rfl, hnoticed, -, hagain⟩ := hchange 3 answer t hs
  obtain ⟨changed', b', c, hs', hc, halike⟩ := (hmove r rfl rfl rfl).1 3 answer' m hm
  obtain ⟨-, hsurfaces⟩ := Prod.mk.inj (Except.ok.inj (hs.symm.trans hs'))
  obtain rfl : b = b' := (List.cons.inj (congrArg Session.surfaces hsurfaces)).1
  rw [hs] at hnews
  obtain ⟨hanswer, hlog⟩ := Prod.mk.inj (Option.some.inj hnews)
  cases hanswer
  rw [hm] at houtcome
  cases houtcome
  have hds : b.log = ds := hnoticed.told.log
  have hnodes := (List.cons.inj hlog).1
  dsimp only at hnodes
  rw [hds] at hnodes
  exact ⟨hkeeps, harea, ds, b, c, m, rfl, hnoticed, hnodes, hagain 1, rfl, hc, halike⟩

end PointerRouting
