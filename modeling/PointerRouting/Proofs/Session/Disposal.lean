/-
A device that has been disposed of for good. In whatever state it was before, nothing that is
requested of it afterwards is done: every answer is the neutral one (`Step.idle`), nobody is told
anything, no tracker and no record of who was at work changes, and of the device only the rule for
multi-clicks can still be replaced. So in a run of any requests those to the device might as well
not have been made (`disposal_is_final`).

A request to another device or to a surface does not look at that rule, and what comes of it is the
same whatever the rule has become meanwhile (`alike_step_of_rule`).
-/
import PointerRouting.Proofs.Device.Disposal
import PointerRouting.Proofs.Session.Run

namespace PointerRouting

variable {σ K : Type}

namespace Step

/-- The answer to a request that nothing comes of. -/
def neutral : Step K → Answer K
  | .process .. => .outcome .stale
  | .sceneChanged .. | .detachCapture .. => .flag false
  | .capture .. => .node none
  | _ => .done

/-- The surface that a device is to look at for a request. -/
def surface? : Step K → Option Nat
  | .process _ surface _ => some surface
  | .sceneChanged _ surface _ => some surface
  | .detachCapture _ surface _ _ => some surface
  | _ => none

/-- What a request to a device comes to that does nothing, where there are so many surfaces. -/
def idle (surfaces : Nat) (step : Step K) : Except Fault (Answer K) :=
  match step.surface? with
  | none => .ok step.neutral
  | some k => if k < surfaces then .ok step.neutral else .error (.noSurface k)

end Step

/-! ## Devices without a use -/

namespace Device

/-- The device and its pointer have been disposed of, and nobody has the pointer. -/
structure Inert (d : Device K) : Prop where
  disposed : d.disposed = true
  pointer : d.pointer.disposed = true
  free : d.pointer.captured = none

theorem inert_dispose [DecidableEq K] {d : Device K} (hd : d.Reached) : d.dispose.Inert where
  disposed := rfl
  pointer := rfl
  free := hd.disposed.released rfl

variable {d : Device K}

theorem Inert.setRule (h : d.Inert) (rule : ClickRule) : (d.setRule rule).Inert :=
  ⟨h.disposed, h.pointer, h.free⟩

theorem Inert.capture_eq (h : d.Inert) (target : Option K) : d.capture target = (none, d) := by
  rw [capture, Pointer.capture, if_pos h.pointer]

theorem Inert.disposePointer_eq (h : d.Inert) : d.disposePointer = d := by
  have hp : d.pointer.dispose = d.pointer := by
    rw [Pointer.dispose, Pointer.capture_of_disposed h.pointer, ← h.pointer]
  rw [disposePointer, hp]

theorem Inert.dispose_eq (h : d.Inert) : d.dispose = d := by
  rw [dispose, h.disposePointer_eq, ← h.disposed]

theorem Inert.detach_eq [DecidableEq K] (h : d.Inert) (parentOf : K → Option K) (limit : Nat)
    (element : K) (formerParent : Option K) :
    d.detach parentOf limit element formerParent = some (false, d) := by
  rw [detach, Pointer.detach, h.free]
  rfl

variable [Host σ K] [DecidableEq K]

/-- An inert device ignores every report. -/
theorem Inert.process_eq (h : d.Inert) (limit : Nat) (s : Surface σ K) (r : Report) :
    d.process limit s r = .ok ⟨.stale, d, s⟩ := by
  rw [process, if_pos h.disposed]

theorem Inert.sceneChanged_eq (h : d.Inert) (limit : Nat) (s : Surface σ K) (area : Rect) :
    d.sceneChanged limit s area = some (false, s) := by
  have hp : d.hoverPosition s.root area = none := by simp [hoverPosition, h.disposed]
  rw [sceneChanged, hp]

end Device

namespace Session

section

variable {s : Session σ K} {i : Nat} {d : Device K}

theorem setDevice_self (hd : s.devices[i]? = some d) : s.setDevice i d = s :=
  congrArg (fun devices => { s with devices }) (set_of_getElem? hd)

theorem setDevice_setDevice (s : Session σ K) (i : Nat) (d e : Device K) :
    (s.setDevice i d).setDevice i e = s.setDevice i e :=
  congrArg (fun devices => { s with devices }) (List.set_set ..)

theorem setDevice_comm {j : Nat} (hj : j ≠ i) (s : Session σ K) (d e : Device K) :
    (s.setDevice i d).setDevice j e = (s.setDevice j e).setDevice i d :=
  congrArg (fun devices => { s with devices }) (List.set_comm d e (Ne.symm hj))

theorem devices_setDevice (hd : s.devices[i]? = some d) (e : Device K) :
    (s.setDevice i e).devices[i]? = some e :=
  List.getElem?_set_self (List.getElem?_eq_some_iff.1 hd).1

theorem deviceAt_setDevice {j : Nat} (hj : j ≠ i) (s : Session σ K) (d : Device K) :
    (s.setDevice i d).deviceAt j = s.deviceAt j := by
  rw [deviceAt, deviceAt, setDevice, List.getElem?_set_ne (Ne.symm hj)]

theorem deviceAt_eq (hd : s.devices[i]? = some d) : s.deviceAt i = .ok d := by
  rw [deviceAt, hd]

theorem surfaceAt_eq {k : Nat} {a : Surface σ K} (ha : s.surfaces[k]? = some a) :
    s.surfaceAt k = .ok a := by
  rw [surfaceAt, ha]

theorem surfaces_setSurface {k : Nat} {a : Surface σ K} (ha : s.surfaces[k]? = some a)
    (b : Surface σ K) : (s.setSurface k b).surfaces[k]? = some b :=
  List.getElem?_set_self (List.getElem?_eq_some_iff.1 ha).1

theorem setSurface_self {k : Nat} {a : Surface σ K} (ha : s.surfaces[k]? = some a) :
    s.setSurface k a = s :=
  congrArg (fun surfaces => { s with surfaces }) (set_of_getElem? ha)

theorem surfaceAt_cases (s : Session σ K) (k : Nat) :
    (∃ a, s.surfaces[k]? = some a ∧ k < s.surfaces.length ∧ s.surfaceAt k = .ok a) ∨
      (¬ k < s.surfaces.length ∧ s.surfaceAt k = .error (.noSurface k)) := by
  unfold surfaceAt
  rcases ha : s.surfaces[k]? with _ | a
  · exact .inr ⟨Nat.not_lt.2 (List.getElem?_eq_none_iff.1 ha), rfl⟩
  · exact .inl ⟨a, rfl, (List.getElem?_eq_some_iff.1 ha).1, rfl⟩

/-! ## Requests to the device -/

theorem onDevice_of_same (hd : s.devices[i]? = some d) {act : Device K → Answer K × Device K}
    {answer : Answer K} (h : act d = (answer, d)) : s.onDevice i act = .ok (answer, s) := by
  rw [onDevice, deviceAt_eq hd]
  show Except.ok ((act d).1, s.setDevice i (act d).2) = _
  rw [h, setDevice_self hd]

theorem onSurface_of_some {k : Nat} {a b : Surface σ K} (ha : s.surfaces[k]? = some a)
    {act : Surface σ K → Option (Answer K × Surface σ K)} {answer : Answer K}
    (h : act a = some (answer, b)) : s.onSurface k act = .ok (answer, s.setSurface k b) := by
  rw [onSurface, surfaceAt_eq ha]
  simp only [bind, Except.bind, h]
  rfl

theorem onSurface_of_same {act : Surface σ K → Option (Answer K × Surface σ K)}
    {answer : Answer K} (h : ∀ a, act a = some (answer, a)) (s : Session σ K) (k : Nat) :
    s.onSurface k act =
      if k < s.surfaces.length then .ok (answer, s) else .error (.noSurface k) := by
  rcases surfaceAt_cases s k with ⟨a, ha, hk, -⟩ | ⟨hk, hat⟩
  · rw [onSurface_of_some ha (h a), setSurface_self ha, if_pos hk]
  · rw [onSurface, hat, if_neg hk]
    rfl

end

variable [DecidableEq K] [Host σ K] {s : Session σ K} {i : Nat} {d : Device K} {step : Step K}

/-- A request to a device without a use replaces its rule, or nothing comes of it. -/
theorem step_of_inert (hd : s.devices[i]? = some d) (h : d.Inert) (hstep : step.device? = some i)
    (limit : Nat) :
    (∃ rule, step = .setRule i rule) ∨
      s.step limit step = (step.idle s.surfaces.length).map (·, s) := by
  have hat := deviceAt_eq hd
  cases step <;> simp only [Step.device?, Option.some.injEq, reduceCtorEq] at hstep <;>
    subst hstep
  case setRule rule => exact .inl ⟨rule, rfl⟩
  case process k r =>
    refine .inr ?_
    rw [step, process, hat]
    rcases surfaceAt_cases s k with ⟨a, ha, hk, hsurface⟩ | ⟨hk, hsurface⟩
    · simp only [hsurface, bind, Except.bind, h.process_eq, setDevice_self hd, setSurface_self ha,
        Step.idle, Step.surface?, if_pos hk]
      rfl
    · simp only [hsurface, Step.idle, Step.surface?, if_neg hk]
      rfl
  case sceneChanged k area =>
    have hact : ∀ a : Surface σ K, (d.sceneChanged limit a area).map
        (fun x => ((.flag x.1 : Answer K), x.2)) = some (.flag false, a) := by
      intro a
      rw [h.sceneChanged_eq]
      rfl
    refine .inr ?_
    rw [step, hat]
    refine (onSurface_of_same hact s k).trans ?_
    simp only [Step.idle, Step.surface?]
    split <;> rfl
  case detachCapture k element formerParent =>
    refine .inr ?_
    rw [step, hat]
    rcases surfaceAt_cases s k with ⟨a, ha, hk, hsurface⟩ | ⟨hk, hsurface⟩
    · simp only [hsurface, bind, Except.bind, h.detach_eq, setDevice_self hd, Step.idle,
        Step.surface?, if_pos hk]
      rfl
    · simp only [hsurface, Step.idle, Step.surface?, if_neg hk]
      rfl
  case capture target =>
    refine .inr ?_
    rw [step]
    show _ = Except.ok (Answer.node none, s)
    exact onDevice_of_same hd (by rw [h.capture_eq])
  case disposeDevice =>
    refine .inr ?_
    rw [step]
    show _ = Except.ok (Answer.done, s)
    exact onDevice_of_same hd (by rw [h.dispose_eq])
  case disposePointer =>
    refine .inr ?_
    rw [step]
    show _ = Except.ok (Answer.done, s)
    exact onDevice_of_same hd (by rw [h.disposePointer_eq])

/-- Whatever is asked of an inert device, the answer is the idle one and all that can change is its
rule. -/
theorem attempt_of_inert (hd : s.devices[i]? = some d) (h : d.Inert) (hstep : step.device? = some i)
    (limit : Nat) :
    ∃ rule, s.attempt limit step =
      (step.idle s.surfaces.length, s.setDevice i (d.setRule rule)) := by
  unfold attempt
  rcases step_of_inert hd h hstep limit with ⟨rule, rfl⟩ | hidle
  · refine ⟨rule, ?_⟩
    rw [step, onDevice, deviceAt_eq hd]
    rfl
  · refine ⟨d.rule, ?_⟩
    have hself : s.setDevice i (d.setRule d.rule) = s := setDevice_self hd
    rw [hidle, hself]
    cases step.idle s.surfaces.length <;> rfl

/-! ## Requests to others -/

/-- The same answers, and the same session afterwards but for the rule of the device at `i`. -/
def SameButRule (i : Nat) (d : Device K) (rule : ClickRule) (x y : Answer K × Session σ K) : Prop :=
  x.1 = y.1 ∧ y.2 = x.2.setDevice i (d.setRule rule)

omit [DecidableEq K] [Host σ K] in
theorem alike_onDevice_of_rule {j : Nat} (hj : j ≠ i) (rule : ClickRule)
    (act : Device K → Answer K × Device K) :
    Alike (SameButRule i d rule) (s.onDevice j act)
      ((s.setDevice i (d.setRule rule)).onDevice j act) := by
  unfold onDevice
  rw [deviceAt_setDevice hj]
  rcases s.deviceAt j with fault | e
  · exact .refused fault
  · exact .granted ⟨rfl, setDevice_comm hj s _ _⟩

omit [DecidableEq K] [Host σ K] in
theorem alike_onSurface_of_rule (k : Nat) (rule : ClickRule)
    {act act' : Surface σ K → Option (Answer K × Surface σ K)} (hact : ∀ a, act a = act' a) :
    Alike (SameButRule i d rule) (s.onSurface k act)
      ((s.setDevice i (d.setRule rule)).onSurface k act') := by
  obtain rfl : act = act' := funext hact
  unfold onSurface
  change Alike _ (s.surfaceAt k >>= _) (s.surfaceAt k >>= _)
  rcases s.surfaceAt k with fault | a
  · exact .refused fault
  · dsimp only [bind, Except.bind]
    rcases act a with _ | ⟨answer, b⟩
    · exact .refused _
    · exact .granted ⟨rfl, rfl⟩

omit [DecidableEq K] [Host σ K] in
/-- Devices are looked for by their numbers, which their rules have no part in. -/
theorem find?_setDevice_of_rule (hd : s.devices[i]? = some d) (rule : ClickRule) (id : DeviceId) :
    ((s.setDevice i (d.setRule rule)).devices.find? (·.id = id)).map (·.setRule rule) =
      (s.devices.find? (·.id = id)).map (·.setRule rule) := by
  have hruled : (s.devices.set i (d.setRule rule)).map (·.setRule rule) =
      s.devices.map (·.setRule rule) := by
    have hmap : (s.devices.map (·.setRule rule))[i]? = some (d.setRule rule) := by
      rw [List.getElem?_map, hd, Option.map_some]
    rw [List.map_set]
    exact set_of_getElem? hmap
  have hfind : ∀ l : List (Device K), (l.find? (·.id = id)).map (·.setRule rule) =
      (l.map (·.setRule rule)).find? (·.id = id) := by
    intro l
    rw [List.find?_map]
    rfl
  rw [hfind, hfind]
  exact congrArg _ hruled

/-- A request that is not addressed to the device does not look at its rule. -/
theorem alike_step_of_rule (hd : s.devices[i]? = some d) (hstep : step.device? ≠ some i)
    (rule : ClickRule) (limit : Nat) :
    Alike (SameButRule i d rule) (s.step limit step)
      ((s.setDevice i (d.setRule rule)).step limit step) := by
  cases step with
  | process j k r =>
    have hj : j ≠ i := fun h => hstep (congrArg some h)
    rw [Session.step, Session.step, process, process, deviceAt_setDevice hj]
    rcases s.deviceAt j with fault | e
    · exact .refused fault
    change Alike _ (s.surfaceAt k >>= _) (s.surfaceAt k >>= _)
    rcases s.surfaceAt k with fault | a
    · exact .refused fault
    change Alike _ (e.process limit a r >>= _) (e.process limit a r >>= _)
    rcases e.process limit a r with fault | handling
    · exact .refused fault
    refine .granted ⟨rfl, ?_⟩
    dsimp only
    rw [setDevice_comm hj]
    rfl
  | sceneChanged j k area =>
    have hj : j ≠ i := fun h => hstep (congrArg some h)
    rw [Session.step, Session.step, deviceAt_setDevice hj]
    rcases s.deviceAt j with fault | e
    · exact .refused fault
    · exact alike_onSurface_of_rule k rule fun _ => rfl
  | repaint k area =>
    rw [Session.step, Session.step]
    refine alike_onSurface_of_rule k rule fun scene => ?_
    have hregistry : (s.setDevice i (d.setRule rule)).registry = s.registry := rfl
    rw [hregistry]
    rcases s.registry.active scene.root with _ | id
    · rfl
    have hfind := find?_setDevice_of_rule hd rule id
    dsimp only
    generalize (s.setDevice i (d.setRule rule)).devices.find? (·.id = id) = found' at hfind ⊢
    generalize s.devices.find? (·.id = id) = found at hfind ⊢
    rcases found with _ | e <;> rcases found' with _ | e'
    · rfl
    · cases hfind
    · cases hfind
    · have hscene : e'.sceneChanged limit scene area = e.sceneChanged limit scene area :=
        congrArg (·.sceneChanged limit scene area) (Option.some.inj hfind)
      dsimp only
      rw [hscene]
  | detachCapture j k element formerParent =>
    have hj : j ≠ i := fun h => hstep (congrArg some h)
    rw [Session.step, Session.step, deviceAt_setDevice hj]
    rcases s.deviceAt j with fault | e
    · exact .refused fault
    change Alike _ (s.surfaceAt k >>= _) (s.surfaceAt k >>= _)
    rcases s.surfaceAt k with fault | a
    · exact .refused fault
    dsimp only [bind, Except.bind]
    rcases e.detach (Host.parentOf a.host) limit element formerParent with _ | ⟨changed, e'⟩
    · exact .refused _
    · exact .granted ⟨rfl, setDevice_comm hj s _ _⟩
  | capture j _ | disposeDevice j | disposePointer j | setRule j _ =>
    rw [Session.step, Session.step]
    exact alike_onDevice_of_rule (fun h => hstep (congrArg some h)) rule _
  | addDevice draft =>
    have hi : i < s.devices.length := (List.getElem?_eq_some_iff.1 hd).1
    refine .granted ⟨rfl, ?_⟩
    exact congrArg (fun devices => { (s.addDevice draft).2 with devices })
      (List.set_append_left _ _ hi).symm
  | hoverAt k _ _ _ | endHover k _ _ | endAllHover k | detachHover k _ | setPath k _ _ _
  | areOver k _ | lineage k _ | bubble k _ | deliver k _ =>
    rw [Session.step, Session.step]
    exact alike_onSurface_of_rule k rule fun _ => rfl
  | allocate | record _ _ | removeDevice _ | removeRoot _ | active _ => exact .granted ⟨rfl, rfl⟩

/-- The rule of a device does not show in what is asked of others. -/
theorem attempt_of_rule (hd : s.devices[i]? = some d) (hstep : step.device? ≠ some i)
    (rule : ClickRule) (limit : Nat) :
    (s.setDevice i (d.setRule rule)).attempt limit step =
      ((s.attempt limit step).1, (s.attempt limit step).2.setDevice i (d.setRule rule)) := by
  have hboth := attempt_of_alike (A := Eq) (R := fun s t => t = s.setDevice i (d.setRule rule))
    rfl (alike_step_of_rule hd hstep rule limit)
  exact Prod.ext hboth.1.eq.symm hboth.2

/-- A request that is not addressed to a device leaves it as it is, and no surface comes or goes. -/
theorem keeps_attempt (hd : s.devices[i]? = some d) (hstep : step.device? ≠ some i) (limit : Nat) :
    (s.attempt limit step).2.devices[i]? = some d ∧
      (s.attempt limit step).2.surfaces.length = s.surfaces.length := by
  unfold attempt
  rcases h : s.step limit step with fault | ⟨answer, t⟩
  · exact ⟨hd, rfl⟩
  dsimp only
  cases step with
  | process j k r =>
    obtain ⟨e, -, h⟩ := of_bind_ok h
    obtain ⟨a, -, h⟩ := of_bind_ok h
    obtain ⟨handling, -, h⟩ := of_bind_ok h
    cases h
    exact ⟨(List.getElem?_set_ne fun hj => hstep (congrArg some hj)).trans hd, List.length_set⟩
  | sceneChanged j k area =>
    obtain ⟨e, -, h⟩ := of_bind_ok h
    obtain ⟨a, b, -, -, rfl⟩ := of_onSurface h
    exact ⟨hd, List.length_set⟩
  | detachCapture j k element formerParent =>
    obtain ⟨e, -, h⟩ := of_bind_ok h
    obtain ⟨a, -, h⟩ := of_bind_ok h
    split at h <;> cases h
    exact ⟨(List.getElem?_set_ne fun hj => hstep (congrArg some hj)).trans hd, rfl⟩
  | capture j _ | disposeDevice j | disposePointer j | setRule j _ =>
    obtain ⟨e, -, h⟩ := of_bind_ok h
    cases h
    exact ⟨(List.getElem?_set_ne fun hj => hstep (congrArg some hj)).trans hd, rfl⟩
  | addDevice draft =>
    cases h
    exact ⟨(List.getElem?_append_left (List.getElem?_eq_some_iff.1 hd).1).trans hd, rfl⟩
  | repaint k _ | hoverAt k _ _ _ | endHover k _ _ | endAllHover k | detachHover k _
  | setPath k _ _ _ | areOver k _ | lineage k _ | bubble k _ | deliver k _ =>
    rw [Session.step] at h
    obtain ⟨a, b, -, -, rfl⟩ := of_onSurface h
    exact ⟨hd, List.length_set⟩
  | allocate | record _ _ | removeDevice _ | removeRoot _ | active _ =>
    cases h
    exact ⟨hd, rfl⟩

/-! ## Runs -/

/-- The requests that are not addressed to the device at `i`. -/
def others (i : Nat) (steps : List (Step K)) : List (Step K) := steps.filter (·.device? ≠ some i)

theorem keeps_run (limit : Nat) : ∀ {s : Session σ K} (steps : List (Step K)),
    s.devices[i]? = some d → (∀ step ∈ steps, step.device? ≠ some i) →
      (s.run limit steps).2.devices[i]? = some d
  | _, [], hd, _ => hd
  | s, step :: steps, hd, hsteps => by
    obtain ⟨hstep, hsteps⟩ := List.forall_mem_cons.1 hsteps
    exact keeps_run limit steps (keeps_attempt hd hstep limit).1 hsteps

/-- In a run from any rule of the device, its requests are idle and do not show to the others. -/
theorem run_of_inert (h : d.Inert) (limit : Nat) :
    ∀ {s : Session σ K} (steps : List (Step K)) (rule : ClickRule), s.devices[i]? = some d →
      ∃ later, ((s.setDevice i (d.setRule rule)).run limit steps).2 =
          (s.run limit (others i steps)).2.setDevice i (d.setRule later) ∧
        ((s.setDevice i (d.setRule rule)).run limit steps).1.filter (·.1.device? ≠ some i) =
          (s.run limit (others i steps)).1 ∧
        ∀ x ∈ ((s.setDevice i (d.setRule rule)).run limit steps).1, x.1.device? = some i →
          x.2 = x.1.idle s.surfaces.length
  | s, [], rule, hd => ⟨rule, rfl, rfl, by simp [run]⟩
  | s, step :: steps, rule, hd => by
    by_cases hstep : step.device? = some i
    · have hothers : others i (step :: steps) = others i steps :=
        List.filter_cons_of_neg (by simpa using hstep)
      obtain ⟨replaced, hattempt⟩ := attempt_of_inert (devices_setDevice hd (d.setRule rule))
        (h.setRule rule) hstep limit
      rw [setDevice_setDevice] at hattempt
      obtain ⟨later, hfinal, hanswers, hidle⟩ := run_of_inert h limit steps replaced hd
      refine ⟨later, ?_⟩
      rw [hothers, run_cons, hattempt]
      refine ⟨hfinal, ?_, ?_⟩
      · exact (List.filter_cons_of_neg (by simpa using hstep)).trans hanswers
      · exact List.forall_mem_cons.2 ⟨fun _ => rfl, hidle⟩
    · have hothers : others i (step :: steps) = step :: others i steps :=
        List.filter_cons_of_pos (by simpa using hstep)
      obtain ⟨hkept, hlength⟩ := keeps_attempt hd hstep limit
      obtain ⟨later, hfinal, hanswers, hidle⟩ := run_of_inert h limit steps rule hkept
      refine ⟨later, ?_⟩
      rw [hothers, run_cons, run_cons, attempt_of_rule hd hstep]
      refine ⟨hfinal, ?_, ?_⟩
      · refine (List.filter_cons_of_pos (by simpa using hstep)).trans ?_
        rw [hanswers]
      · rw [hlength] at hidle
        exact List.forall_mem_cons.2 ⟨fun hi => absurd hi hstep, hidle⟩

/-- A device is disposed of in any state it can come to. In every run from there on, whatever is
requested, each request to the device has its idle answer, and the other requests have the answers
they have without those to the device. The session comes to what it comes to without them, so that
nobody was told anything for the device, no tracker noticed it and it was not noted as being at
work. It stays disposed of and without an owner, where it was, with the presses it had made; only
its rule may be another. Nor is there any state of any device in which somebody has a pointer that
has been disposed of. -/
theorem disposal_is_final (hd : d.Reached) (hs : s.devices[i]? = some d.dispose) (limit : Nat)
    (steps : List (Step K)) :
    (∀ x ∈ (s.run limit steps).1, x.1.device? = some i → x.2 = x.1.idle s.surfaces.length) ∧
    (s.run limit steps).1.filter (·.1.device? ≠ some i) = (s.run limit (others i steps)).1 ∧
    (∃ e, (s.run limit steps).2 = (s.run limit (others i steps)).2.setDevice i e ∧
      (s.run limit steps).2.devices[i]? = some e ∧ (∃ rule, e = d.dispose.setRule rule) ∧
      e.disposed = true ∧ e.pointer.disposed = true ∧ e.pointer.captured = none ∧
      e.position = d.position ∧ e.clicks = d.clicks) ∧
    ∀ e : Device K, e.Reached → e.pointer.disposed = true → e.pointer.captured = none := by
  have hinert := Device.inert_dispose hd
  have hself : s.setDevice i (d.dispose.setRule d.dispose.rule) = s := setDevice_self hs
  obtain ⟨rule, hfinal, hanswers, hidle⟩ := run_of_inert hinert limit steps d.dispose.rule hs
  rw [hself] at hfinal hanswers hidle
  have hkept : (s.run limit (others i steps)).2.devices[i]? = some d.dispose :=
    keeps_run limit _ hs fun step hstep => by simpa using (List.mem_filter.1 hstep).2
  have hruled := hinert.setRule rule
  refine ⟨hidle, hanswers, ⟨_, hfinal, ?_, ⟨rule, rfl⟩, hruled.disposed, hruled.pointer,
    hruled.free, rfl, rfl⟩, fun e he => he.released⟩
  rw [hfinal]
  exact devices_setDevice hkept _

/-- A mouse that has been captured by an element is disposed of. It is asked to move, to be captured
again, to answer a change of a scene that is not there and to count by another rule, while a second
mouse moves over the element. -/
theorem second_mouse_moves_alone :
    let mouse (id : Nat) (h : 0 < id) : Device Nat :=
      .ofPointer ⟨id⟩ ⟨⟨id, h⟩, .mouse, true⟩ .standard
    let d : Device Nat := ((mouse 1 Nat.one_pos).capture (some 5)).2
    let s : Session (Scene Nat) Nat :=
      { surfaces := [{ host := { root := ⟨1⟩, backdrop := some 5 } }]
        devices := [d.dispose, mouse 2 Nat.two_pos] }
    let move (id : Nat) : Report :=
      { kind := .move, device := ⟨id⟩, root := ⟨1⟩, time := 0, position := ⟨0, 0⟩ }
    let second : List (Step Nat) := [.process 1 0 (move 2)]
    let steps : List (Step Nat) :=
      [.process 0 0 (move 1), .capture 0 (some 5), .sceneChanged 0 1 ⟨0, 0, 9, 9⟩] ++ second ++
        [.setRule 0 ⟨0, 0, 0⟩, .process 0 0 (move 1)]
    d.Reached ∧ d.pointer.captured = some 5 ∧ s.devices[0]? = some d.dispose ∧
      (s.run 1 steps).1.map (·.2.toOption) =
        [some (.outcome .stale), some (.node none), none, some (.outcome (.routed .moved 5 false)),
          some .done, some (.outcome .stale)] ∧
      (s.run 1 steps).1.filter (·.1.device? ≠ some 0) = (s.run 1 second).1 ∧
      ∃ rule, (s.run 1 steps).2 = (s.run 1 second).2.setDevice 0 (d.dispose.setRule rule) := by
  intro mouse d s move second steps
  have hreached : d.Reached := .captured _ (.made _ _ _)
  obtain ⟨-, hanswers, ⟨e, hfinal, -, ⟨rule, rfl⟩, -⟩, -⟩ :=
    disposal_is_final (s := s) (i := 0) hreached rfl 1 steps
  refine ⟨hreached, rfl, rfl, ?_, hanswers, rule, hfinal⟩
  decide +kernel

end Session

end PointerRouting
