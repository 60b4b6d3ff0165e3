/-
Handling an event decides how far up it is told and nothing else. Requests made of twins leave them
twins, and where every walk up their trees ends there is a limit from which on no walk is cut short,
so that every request is answered on both.
-/
import PointerRouting.Proofs.Session.Twins
import PointerRouting.Proofs.Surface.Walk
import PointerRouting.Scene

namespace PointerRouting

variable {σ τ K : Type}

/-! ## Requests that are answered -/

/-- Under every limit from some bound on this is one and the same, and no walk is cut short. -/
def Settles {α : Type} (f : Nat → Except Fault α) : Prop :=
  ∃ x bound, x ≠ .error .endlessWalk ∧ ∀ limit, bound ≤ limit → f limit = x

theorem settles_const {α : Type} {x : Except Fault α} (h : x ≠ .error .endlessWalk) :
    Settles fun _ => x :=
  ⟨x, 0, h, fun _ _ => rfl⟩

theorem settles_ok {α : Type} (a : α) : Settles fun _ => .ok a := settles_const (by simp)

/-- One request after another settles if both do. -/
theorem Settles.bind {α β : Type} {f : Nat → Except Fault α} {g : Nat → α → Except Fault β}
    (h : Settles f) (hg : ∀ limit a, f limit = .ok a → Settles (g · a)) :
    Settles fun limit => f limit >>= g limit := by
  obtain ⟨x, bound, hx, hf⟩ := h
  cases x with
  | error fault =>
    -- the second request is not made, and no limit changes that
    have hne : (.error fault : Except Fault β) ≠ .error .endlessWalk := by
      rintro ⟨⟩
      exact hx rfl
    refine ⟨.error fault, bound, hne, fun limit hle => ?_⟩
    dsimp only
    rw [hf limit hle]
    rfl
  | ok a =>
    obtain ⟨y, larger, hy, hga⟩ := hg bound a (hf bound le_rfl)
    refine ⟨y, max bound larger, hy, fun limit hle => ?_⟩
    dsimp only
    rw [hf limit (by omega)]
    exact hga limit (by omega)

theorem Returns.settles {α β : Type} {f : Nat → Option α} {g : Nat → Except Fault β}
    (h : Returns f) (hg : ∀ a, ∃ b, ∀ limit, f limit = some a → g limit = .ok b) : Settles g := by
  obtain ⟨a, bound, hf⟩ := h
  obtain ⟨b, hb⟩ := hg a
  exact ⟨.ok b, bound, by simp, fun limit hle => hb limit (hf limit hle)⟩

variable [Host σ K] [Host τ K]

namespace Session

variable {layouts : Nat → Layout K} {s : Session σ K} {t : Session τ K}

/-- The host at a place keeps the layout given for it. -/
def Placed (layouts : Nat → Layout K) (s : Session σ K) : Prop :=
  ∀ (k : Nat) (a : Surface σ K), s.surfaces[k]? = some a → Host.Keeps a.host (layouts k)

theorem Twins.placed (h : s.Twins layouts t) : s.Placed layouts ∧ t.Placed layouts := by
  constructor
  · intro k a ha
    have hk := h.surfaces k
    rw [ha] at hk
    generalize t.surfaces[k]? = b at hk
    cases hk with
    | some hab => exact hab.left
  · intro k b hb
    have hk := h.surfaces k
    rw [hb] at hk
    generalize s.surfaces[k]? = a at hk
    cases hk with
    | some hab => exact hab.right

theorem twins_self (h : s.Placed layouts) : s.Twins layouts s where
  surfaces k := by
    rcases ha : s.surfaces[k]? with _ | a
    · exact .none
    · exact .some ⟨h k a ha, h k a ha, rfl, rfl⟩
  devices := rfl
  registry := rfl
  supply := rfl

omit [Host σ K] in
theorem settles_deviceAt (s : Session σ K) (i : Nat) : Settles fun _ => s.deviceAt i := by
  refine settles_const ?_
  unfold deviceAt
  split <;> simp

omit [Host σ K] in
theorem settles_surfaceAt (s : Session σ K) (k : Nat) : Settles fun _ => s.surfaceAt k := by
  refine settles_const ?_
  unfold surfaceAt
  split <;> simp

omit [Host σ K] in
theorem settles_onSurface (k : Nat) {act : Nat → Surface σ K → Option (Answer K × Surface σ K)}
    (hact : ∀ a, s.surfaces[k]? = some a → Returns (act · a)) :
    Settles fun limit => s.onSurface k (act limit) := by
  refine (settles_surfaceAt s k).bind fun _ a ha => ?_
  refine (hact a (of_surfaceAt ha)).settles fun x => ⟨(x.1, s.setSurface k x.2), fun limit hx => ?_⟩
  rw [hx]
  rfl

variable [DecidableEq K]

/-- Where there are no cycles a report is answered under every limit that is large enough. -/
theorem settles_process (hs : s.Placed layouts) (hl : ∀ k, Tree.Acyclic (layouts k).parentOf)
    (i k : Nat) (r : Report) : Settles fun limit => s.process limit i k r := by
  refine (settles_deviceAt s i).bind fun _ d _ => ?_
  refine (settles_surfaceAt s k).bind fun _ a ha => ?_
  have hprocess : Settles fun limit => d.process limit a r := by
    unfold Device.process
    split
    · exact settles_ok _
    · split
      · exact settles_const (by simp)
      · refine (Device.returns_perform (hl k) (hs k a (of_surfaceAt ha)) d r).settles
          fun handling => ⟨handling, fun limit hp => ?_⟩
        rw [hp]
  exact hprocess.bind fun _ handling _ => settles_ok _

theorem settles_step (hs : s.Placed layouts) (hl : ∀ k, Tree.Acyclic (layouts k).parentOf)
    {step : Step K} (hstep : ¬ step.Tells) : Settles fun limit => s.step limit step := by
  cases step with
  | process device surface report => exact settles_process hs hl device surface report
  | sceneChanged device surface area =>
    refine (settles_deviceAt s device).bind fun _ d _ => ?_
    refine settles_onSurface surface fun a ha => ?_
    exact (Device.returns_sceneChanged (hl surface) (hs surface a ha) d area).map _
  | repaint surface area =>
    refine settles_onSurface surface fun a ha => ?_
    dsimp only
    split
    · exact returns_some _
    · split
      · exact returns_some _
      · exact (Device.returns_sceneChanged (hl surface) (hs surface a ha) _ area).map _
  | detachCapture device surface element formerParent =>
    refine (settles_deviceAt s device).bind fun _ d _ => ?_
    refine (settles_surfaceAt s surface).bind fun _ a ha => ?_
    have hlinks := (hs surface a (of_surfaceAt ha)).parentOf
    rw [hlinks]
    refine (Device.returns_detach (hl surface) d element formerParent).settles
      fun x => ⟨(.flag x.1, s.setDevice device x.2), fun limit hx => ?_⟩
    rw [hx]
    rfl
  | hoverAt surface pointer details target =>
    refine settles_onSurface surface fun a ha => ?_
    exact (Surface.returns_hoverAt (hl surface) (hs surface a ha) pointer details target).map _
  | lineage surface node =>
    refine settles_onSurface surface fun a ha => Returns.map ?_ _
    unfold Surface.pathTo
    rw [(hs surface a ha).parentOf]
    exact (hl surface).returns_lineage node
  | bubble _ _ | deliver _ _ => exact absurd trivial hstep
  | endHover surface _ _ | endAllHover surface | detachHover surface _ | setPath surface _ _ _
  | areOver surface _ =>
    unfold step
    exact settles_onSurface surface fun a _ => returns_some _
  | capture device _ | disposeDevice device | disposePointer device | setRule device _ =>
    exact (settles_deviceAt s device).bind fun _ d _ => settles_ok _
  | addDevice _ | allocate | record _ _ | removeDevice _ | removeRoot _ | active _ =>
    exact settles_ok _

/-- So is every request of a run, under one limit for all of them. -/
theorem settles_run (hl : ∀ k, Tree.Acyclic (layouts k).parentOf) :
    ∀ {s : Session σ K} (steps : List (Step K)), s.Placed layouts →
      (∀ step ∈ steps, ¬ step.Tells) →
        ∃ bound, ∀ limit, bound ≤ limit → Ended (s.run limit steps).1
  | _, [], _, _ => ⟨0, fun _ _ => by simp [run, Ended]⟩
  | s, step :: steps, hs, hsteps => by
    obtain ⟨hstep, hsteps⟩ := List.forall_mem_cons.1 hsteps
    obtain ⟨x, bound, hx, hsettled⟩ := settles_step hs hl hstep
    have hstep_eq : ∀ limit, bound ≤ limit → s.step limit step = x := hsettled
    -- above the bound the rest of the run starts from one and the same session
    have hsame : ∀ limit, bound ≤ limit → s.attempt limit step = s.attempt bound step := by
      intro limit hle
      unfold attempt
      rw [hstep_eq limit hle, hstep_eq bound le_rfl]
    have hfirst : (s.attempt bound step).1 ≠ .error .endlessWalk := by
      rw [Ne, attempt_eq_error, hstep_eq bound le_rfl]
      exact hx
    have hplaced := (twins_attempt (twins_self hs) hstep hfirst hfirst).2.placed.1
    obtain ⟨larger, hrest⟩ := settles_run hl steps hplaced hsteps
    refine ⟨max bound larger, fun limit hle => ?_⟩
    rw [run_cons, hsame limit (by omega)]
    exact List.forall_mem_cons.2 ⟨hfirst, hrest limit (by omega)⟩

/-- Two sessions are twins: they differ in what their elements answer and in nothing that is asked
of a host. Led through the same requests, none of which asks for the answer of an element, they are
twins after each of them, and the requests have the same answers but for whether an event was
handled. Nothing is cut short from some limit on where every walk up their trees ends. -/
theorem handling_changes_no_routing (h : s.Twins layouts t) {steps : List (Step K)}
    (hsteps : ∀ step ∈ steps, ¬ step.Tells) :
    (∀ limit, Ended (s.run limit steps).1 → Ended (t.run limit steps).1 →
      (s.run limit steps).2.Twins layouts (t.run limit steps).2 ∧
        muted (s.run limit steps).1 = muted (t.run limit steps).1) ∧
    ((∀ k, Tree.Acyclic (layouts k).parentOf) → ∃ bound, ∀ limit, bound ≤ limit →
      Ended (s.run limit steps).1 ∧ Ended (t.run limit steps).1) := by
  refine ⟨fun limit => twins_run limit steps h hsteps, fun hl => ?_⟩
  obtain ⟨bound, hs⟩ := settles_run hl steps h.placed.1 hsteps
  obtain ⟨bound', ht⟩ := settles_run hl steps h.placed.2 hsteps
  exact ⟨max bound bound', fun limit hle => ⟨hs limit (by omega), ht limit (by omega)⟩⟩

/-- A mouse moves over an element that handles the move in one scene and passes it on to its parent
in the other. The mouse comes to be over both elements in either scene. -/
theorem move_handled_and_passed :
    let scene (handles : List (Nat × EventKind)) : Scene Nat :=
      { root := ⟨1⟩, links := [(5, 4)], backdrop := some 5, handles }
    let session (handles : List (Nat × EventKind)) : Session (Scene Nat) Nat :=
      { surfaces := [{ host := scene handles }]
        devices := [.ofPointer ⟨1⟩ ⟨⟨1, Nat.one_pos⟩, .mouse, true⟩ .standard] }
    let steps : List (Step Nat) :=
      [.process 0 0 { kind := .move, device := ⟨1⟩, root := ⟨1⟩, time := 0, position := ⟨0, 0⟩ }]
    let told (s : Session (Scene Nat) Nat) : List (List (Nat × EventKind)) :=
      s.surfaces.map fun a => a.log.map fun d => (d.node, d.event.kind)
    let s := session [(5, .moved)]
    let t := session []
    told (s.run 2 steps).2 = [[(5, .moved), (5, .enter), (4, .enter)]] ∧
    told (t.run 2 steps).2 = [[(5, .moved), (4, .moved), (5, .enter), (4, .enter)]] ∧
    (s.run 2 steps).1 ≠ (t.run 2 steps).1 ∧
    muted (s.run 2 steps).1 = muted (t.run 2 steps).1 ∧
    (s.run 2 steps).2.devices = (t.run 2 steps).2.devices := by
  intro scene session steps told s t
  have hkeeps : ∀ handles, Host.Keeps (scene handles) (Host.layout (scene [])) := fun handles =>
    (Host.steady_of_respond fun n e => rfl).keeps
  have htwins : s.Twins (fun _ => Host.layout (scene [])) t := by
    refine ⟨fun k => ?_, rfl, rfl, rfl⟩
    cases k with
    | zero => exact .some ⟨hkeeps _, hkeeps _, rfl, rfl⟩
    | succ k => exact .none
  have hsteps : ∀ step ∈ steps, ¬ step.Tells := by simp [steps, Step.Tells]
  have hs : Ended (s.run 2 steps).1 := by
    unfold Ended
    decide +kernel
  have ht : Ended (t.run 2 steps).1 := by
    unfold Ended
    decide +kernel
  obtain ⟨hfinal, hmuted⟩ := (handling_changes_no_routing htwins hsteps).1 2 hs ht
  refine ⟨?_, ?_, ?_, hmuted, hfinal.devices⟩
  · decide +kernel
  · decide +kernel
  · decide +kernel

end Session

end PointerRouting
