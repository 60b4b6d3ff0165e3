/-
Requests one after another. A session goes on after a request it refuses as if that had not been
made (`attempt`), so a run has an answer for every request. A request that is addressed to a device
concerns that device and its pointer alone: the other devices stay as they are, every pointer
belongs to whom it belonged, and each surface is at most touched by the pointer (`Confined`).
-/
import PointerRouting.Session
import PointerRouting.Proofs.Surface.Touch

namespace PointerRouting

variable {σ K : Type}

/-- The device that a request is addressed to, by its place in the session. -/
def Step.device? : Step K → Option Nat
  | .process device _ _ => some device
  | .sceneChanged device _ _ => some device
  | .detachCapture device _ _ _ => some device
  | .capture device _ => some device
  | .disposeDevice device => some device
  | .disposePointer device => some device
  | .setRule device _ => some device
  | _ => none

/-! ## Two requests side by side -/

/-- Both are refused for the same fault, or both are granted with results that `R` relates. -/
inductive Alike {α β : Type} (R : α → β → Prop) : Except Fault α → Except Fault β → Prop
  | refused (fault : Fault) : Alike R (.error fault) (.error fault)
  | granted {a : α} {b : β} : R a b → Alike R (.ok a) (.ok b)

/-- Requests that come out alike go on alike if what follows them does. -/
theorem Alike.bind {α β γ δ : Type} {R : α → β → Prop} {S : γ → δ → Prop} {x : Except Fault α}
    {y : Except Fault β} {f : α → Except Fault γ} {g : β → Except Fault δ} (h : Alike R x y)
    (hnext : ∀ a b, x = .ok a → y = .ok b → R a b → Alike S (f a) (g b)) :
    Alike S (x >>= f) (y >>= g) := by
  cases h with
  | refused fault => exact .refused fault
  | granted hab => exact hnext _ _ rfl rfl hab

theorem alike_of_map {α β γ : Type} {f : α → γ} {g : β → γ} {x : Except Fault α}
    {y : Except Fault β} (h : x.map f = y.map g) : Alike (fun a b => f a = g b) x y := by
  rcases x with fault | a <;> rcases y with fault' | b <;>
    simp only [Except.map, Except.error.injEq, Except.ok.injEq, reduceCtorEq] at h
  · subst h
    exact .refused fault
  · exact .granted h

theorem Alike.map_eq {α β γ : Type} {f : α → γ} {g : β → γ} {x : Except Fault α}
    {y : Except Fault β} (h : Alike (fun a b => f a = g b) x y) : x.map f = y.map g := by
  cases h with
  | refused fault => rfl
  | granted hab => exact congrArg Except.ok hab

theorem Alike.eq {α : Type} {x y : Except Fault α} (h : Alike Eq x y) : x = y := by
  cases h with
  | refused fault => rfl
  | granted hab => rw [hab]

namespace Session

/-- Every tracker is filed. -/
def Filed (s : Session σ K) : Prop := ∀ a ∈ s.surfaces, a.hover.Filed

/-! ## What a request to a device can change -/

/-- The session `s` becomes `t` by something that concerns the device at `i` and the pointer `p`
alone. -/
structure Confined [Host σ K] (s : Session σ K) (i : Nat) (p : PointerId) (t : Session σ K) :
    Prop where
  others : ∀ j, j ≠ i → t.devices[j]? = s.devices[j]?
  pointers : t.devices.map (·.pointer.info) = s.devices.map (·.pointer.info)
  surfaces : ∀ k : Nat, Option.Rel (Surface.Touches p) s.surfaces[k]? t.surfaces[k]?

section

variable [Host σ K] {s t : Session σ K} {i k : Nat} {p : PointerId}

theorem set_of_getElem? {α : Type} {l : List α} {i : Nat} {a : α} (h : l[i]? = some a) :
    l.set i a = l := by
  obtain ⟨hi, rfl⟩ := List.getElem?_eq_some_iff.1 h
  exact List.set_getElem_self hi

theorem confined_refl (s : Session σ K) (i : Nat) (p : PointerId) : s.Confined i p s where
  others _ _ := rfl
  pointers := rfl
  surfaces k := by
    rcases s.surfaces[k]? with _ | a
    · exact .none
    · exact .some (Surface.touches_refl p a)

theorem confined_setDevice {d d' : Device K} (hd : s.devices[i]? = some d)
    (hinfo : d'.pointer.info = d.pointer.info) : s.Confined i p (s.setDevice i d') where
  others j hj := List.getElem?_set_ne (Ne.symm hj)
  pointers := by
    show (s.devices.set i d').map (·.pointer.info) = s.devices.map (·.pointer.info)
    have hsame : (s.devices.map (·.pointer.info))[i]? = some d.pointer.info := by
      rw [List.getElem?_map, hd, Option.map_some]
    rw [List.map_set, hinfo]
    exact set_of_getElem? hsame
  surfaces := (confined_refl s i p).surfaces

theorem Confined.setSurface (h : s.Confined i p t) {a b : Surface σ K}
    (ha : s.surfaces[k]? = some a) (hab : a.Touches p b) : s.Confined i p (t.setSurface k b) where
  others := h.others
  pointers := h.pointers
  surfaces j := by
    show Option.Rel _ _ (t.surfaces.set k b)[j]?
    have hk := h.surfaces k
    rw [List.getElem?_set]
    split
    · rename_i hj
      subst hj
      rw [ha] at hk ⊢
      rcases ht : t.surfaces[k]? with _ | c
      · rw [ht] at hk
        cases hk
      · rw [if_pos (List.getElem?_eq_some_iff.1 ht).1]
        exact .some hab
    · exact h.surfaces j

end

/-! ## One request -/

theorem of_bind_ok {α β : Type} {x : Except Fault α} {f : α → Except Fault β} {b : β}
    (h : x >>= f = .ok b) : ∃ a, x = .ok a ∧ f a = .ok b := by
  cases x with
  | error fault => cases h
  | ok a => exact ⟨a, rfl, h⟩

theorem of_deviceAt {s : Session σ K} {i : Nat} {d : Device K} (h : s.deviceAt i = .ok d) :
    s.devices[i]? = some d := by
  unfold deviceAt at h
  split at h <;> cases h
  assumption

theorem of_surfaceAt {s : Session σ K} {k : Nat} {a : Surface σ K} (h : s.surfaceAt k = .ok a) :
    s.surfaces[k]? = some a := by
  unfold surfaceAt at h
  split at h <;> cases h
  assumption

theorem of_onSurface {s t : Session σ K} {k : Nat} {answer : Answer K}
    {act : Surface σ K → Option (Answer K × Surface σ K)}
    (h : s.onSurface k act = .ok (answer, t)) :
    ∃ a b, s.surfaces[k]? = some a ∧ act a = some (answer, b) ∧ t = s.setSurface k b := by
  obtain ⟨a, ha, h⟩ := of_bind_ok h
  rcases hact : act a with _ | ⟨answer', b⟩
  · rw [hact] at h
    cases h
  · rw [hact] at h
    cases h
    exact ⟨a, b, of_surfaceAt ha, hact, rfl⟩

variable [DecidableEq K] [Host σ K]

/-- The answer to a request, and the session after it; a refused request leaves it as it was. -/
def attempt (limit : Nat) (s : Session σ K) (step : Step K) :
    Except Fault (Answer K) × Session σ K :=
  match s.step limit step with
  | .ok (answer, t) => (.ok answer, t)
  | .error fault => (.error fault, s)

theorem attempt_eq_error {limit : Nat} {s : Session σ K} {step : Step K} {fault : Fault} :
    (s.attempt limit step).1 = .error fault ↔ s.step limit step = .error fault := by
  unfold attempt
  rcases s.step limit step with fault' | ⟨answer, t⟩ <;> simp

/-- The answers to some requests made one after another, each beside the request, and the session
after them. -/
def run (limit : Nat) : Session σ K → List (Step K) →
    List (Step K × Except Fault (Answer K)) × Session σ K
  | s, [] => ([], s)
  | s, step :: steps =>
    let (answer, s) := s.attempt limit step
    let (answers, s) := run limit s steps
    ((step, answer) :: answers, s)

theorem run_cons (limit : Nat) (s : Session σ K) (step : Step K) (steps : List (Step K)) :
    s.run limit (step :: steps) =
      let later := (s.attempt limit step).2.run limit steps
      ((step, (s.attempt limit step).1) :: later.1, later.2) := rfl

theorem attempt_of_alike {τ : Type} [Host τ K] {A : Answer K → Answer K → Prop}
    {R : Session σ K → Session τ K → Prop} {s : Session σ K} {t : Session τ K} {step : Step K}
    {limit : Nat} (hst : R s t)
    (h : Alike (fun x y => A x.1 y.1 ∧ R x.2 y.2) (s.step limit step) (t.step limit step)) :
    Alike A (s.attempt limit step).1 (t.attempt limit step).1 ∧
      R (s.attempt limit step).2 (t.attempt limit step).2 := by
  unfold attempt
  generalize s.step limit step = x at h ⊢
  generalize t.step limit step = y at h ⊢
  cases h with
  | refused fault => exact ⟨.refused fault, hst⟩
  | granted hxy => exact ⟨.granted hxy.1, hxy.2⟩

/-- A request to a device either changes that device alone, its pointer staying the same one, or is
one of three that look at a surface. -/
theorem step_cases {step : Step K} {i : Nat} (h : step.device? = some i) (limit : Nat) :
    (∃ act : Device K → Answer K × Device K, (∀ d, (act d).2.pointer.info = d.pointer.info) ∧
      ∀ s : Session σ K, s.step limit step = s.onDevice i act) ∨
    (∃ k r, step = .process i k r) ∨ (∃ k area, step = .sceneChanged i k area) ∨
      ∃ k element formerParent, step = .detachCapture i k element formerParent := by
  cases step <;> simp only [Step.device?, Option.some.injEq, reduceCtorEq] at h <;> subst h
  case process k r => exact .inr (.inl ⟨k, r, rfl⟩)
  case sceneChanged k area => exact .inr (.inr (.inl ⟨k, area, rfl⟩))
  case detachCapture k element formerParent =>
    exact .inr (.inr (.inr ⟨k, element, formerParent, rfl⟩))
  case capture target =>
    exact .inl ⟨fun d => (.node (d.capture target).1, (d.capture target).2),
      fun d => d.pointer.info_capture target, fun _ => rfl⟩
  case disposeDevice =>
    exact .inl ⟨fun d => (.done, d.dispose), fun d => d.pointer.info_capture none, fun _ => rfl⟩
  case disposePointer =>
    exact .inl ⟨fun d => (.done, d.disposePointer), fun d => d.pointer.info_capture none,
      fun _ => rfl⟩
  case setRule rule =>
    exact .inl ⟨fun d => (.done, d.setRule rule), fun _ => rfl, fun _ => rfl⟩

/-- A request to a device that the session does not have is refused. -/
theorem attempt_of_no_device {s : Session σ K} {step : Step K} {i : Nat}
    (h : step.device? = some i) (hd : s.devices[i]? = none) (limit : Nat) :
    s.attempt limit step = (.error (.noDevice i), s) := by
  have hat : s.deviceAt i = .error (.noDevice i) := by
    unfold deviceAt
    rw [hd]
  have hstep : s.step limit step = .error (.noDevice i) := by
    rcases step_cases (σ := σ) h limit with
      ⟨act, -, heq⟩ | ⟨k, r, rfl⟩ | ⟨k, area, rfl⟩ | ⟨k, e, f, rfl⟩
    · rw [heq, onDevice, hat]
      rfl
    · rw [step, process, hat]
      rfl
    · rw [step, hat]
      rfl
    · rw [step, hat]
      rfl
  rw [attempt, hstep]

/-- A request to a device is confined to that device and its pointer, whether it is answered or
refused. -/
theorem confined_attempt {s : Session σ K} {step : Step K} {i : Nat} {p : PointerId}
    (h : step.device? = some i) (hp : ∀ d, s.devices[i]? = some d → d.pointer.info.id = p)
    (hf : s.Filed) (limit : Nat) :
    s.Confined i p (s.attempt limit step).2 := by
  unfold attempt
  rcases hr : s.step limit step with fault | ⟨answer, t⟩
  · exact confined_refl s i p
  dsimp only
  rcases step_cases (σ := σ) h limit with
    ⟨act, hact, heq⟩ | ⟨k, r, rfl⟩ | ⟨k, area, rfl⟩ | ⟨k, e, f, rfl⟩
  · rw [heq] at hr
    obtain ⟨d, hd, hr⟩ := of_bind_ok hr
    cases hr
    exact confined_setDevice (of_deviceAt hd) (hact d)
  · obtain ⟨d, hd, hr⟩ := of_bind_ok hr
    obtain ⟨a, ha, hr⟩ := of_bind_ok hr
    obtain ⟨handling, hh, hr⟩ := of_bind_ok hr
    cases hr
    have hd := of_deviceAt hd
    have ha := of_surfaceAt ha
    have htouch := Device.touches_process (hf a (List.mem_of_getElem? ha)) hh
    rw [hp d hd] at htouch
    have hdevice : s.Confined i p (s.setDevice i handling.device) :=
      confined_setDevice hd (Device.info_of_process hh)
    have hboth := hdevice.setSurface ha htouch
    exact ⟨hboth.others, hboth.pointers, hboth.surfaces⟩
  · obtain ⟨d, hd, hr⟩ := of_bind_ok hr
    obtain ⟨a, b, ha, hact, rfl⟩ := of_onSurface hr
    obtain ⟨⟨changed, c⟩, hscene, he⟩ := Option.map_eq_some_iff.1 hact
    cases he
    have htouch := Device.touches_sceneChanged hscene
    rw [hp d (of_deviceAt hd)] at htouch
    exact (confined_refl s i p).setSurface ha htouch
  · obtain ⟨d, hd, hr⟩ := of_bind_ok hr
    obtain ⟨a, ha, hr⟩ := of_bind_ok hr
    split at hr
    · cases hr
    · rename_i changed d' hdetach
      cases hr
      exact confined_setDevice (of_deviceAt hd) (Device.info_of_detach hdetach)

/-! ## Filed trackers -/

omit [DecidableEq K] [Host σ K] in
theorem filed_setSurface {s : Session σ K} (hs : s.Filed) {b : Surface σ K} (hb : b.hover.Filed)
    (k : Nat) : (s.setSurface k b).Filed := by
  intro a ha
  rcases List.mem_or_eq_of_mem_set ha with ha | rfl
  · exact hs a ha
  · exact hb

omit [DecidableEq K] [Host σ K] in
theorem filed_onSurface {s t : Session σ K} (hs : s.Filed) {k : Nat} {answer : Answer K}
    {act : Surface σ K → Option (Answer K × Surface σ K)}
    (hact : ∀ a answer b, a.hover.Filed → act a = some (answer, b) → b.hover.Filed)
    (h : s.onSurface k act = .ok (answer, t)) : t.Filed := by
  obtain ⟨a, b, ha, hb, rfl⟩ := of_onSurface h
  exact filed_setSurface hs (hact a answer b (hs a (List.mem_of_getElem? ha)) hb) k

omit [DecidableEq K] [Host σ K] in
theorem filed_onSurface_some {s t : Session σ K} (hs : s.Filed) {k : Nat} {answer : Answer K}
    {f : Surface σ K → Answer K × Surface σ K} (hf : ∀ a, a.hover.Filed → (f a).2.hover.Filed)
    (h : s.onSurface k (fun a => some (f a)) = .ok (answer, t)) : t.Filed := by
  refine filed_onSurface hs (fun a answer b ha hact => ?_) h
  have hfiled := hf a ha
  rw [Option.some.inj hact] at hfiled
  exact hfiled

omit [DecidableEq K] [Host σ K] in
theorem filed_onSurface_map {α : Type} {s t : Session σ K} (hs : s.Filed) {k : Nat}
    {answer : Answer K} {f : Surface σ K → Option α} {g : Surface σ K → α → Answer K × Surface σ K}
    (hf : ∀ a x, a.hover.Filed → f a = some x → (g a x).2.hover.Filed)
    (h : s.onSurface k (fun a => (f a).map (g a)) = .ok (answer, t)) : t.Filed := by
  refine filed_onSurface hs (fun a answer b ha hact => ?_) h
  obtain ⟨x, hx, he⟩ := Option.map_eq_some_iff.1 hact
  have hfiled := hf a x ha hx
  rw [he] at hfiled
  exact hfiled

/-- Whatever is requested, every entry stays filed under its pointer. -/
theorem filed_step {s t : Session σ K} (hs : s.Filed) {limit : Nat} {step : Step K}
    {answer : Answer K} (h : s.step limit step = .ok (answer, t)) : t.Filed := by
  cases step with
  | process device surface report =>
    obtain ⟨d, -, h⟩ := of_bind_ok h
    obtain ⟨a, ha, h⟩ := of_bind_ok h
    obtain ⟨handling, hh, h⟩ := of_bind_ok h
    cases h
    have hf := hs a (List.mem_of_getElem? (of_surfaceAt ha))
    exact filed_setSurface hs ((Device.touches_process hf hh).filed hf) surface
  | sceneChanged device surface area =>
    obtain ⟨d, -, h⟩ := of_bind_ok h
    exact filed_onSurface_map hs (fun a x hf hscene =>
      (Device.touches_sceneChanged hscene).filed hf) h
  | repaint surface area =>
    refine filed_onSurface hs (fun a answer b hf hact => ?_) h
    split at hact
    · cases hact
      exact hf
    · split at hact
      · cases hact
        exact hf
      · obtain ⟨⟨changed, c⟩, hscene, he⟩ := Option.map_eq_some_iff.1 hact
        cases he
        exact (Device.touches_sceneChanged hscene).filed hf
  | hoverAt surface pointer details target =>
    exact filed_onSurface_map hs (fun a x hf hhover => (Surface.touches_hoverAt hhover).filed hf) h
  | endHover surface pointer details =>
    rw [step] at h
    exact filed_onSurface_some hs (fun a hf =>
      (Surface.touches_endHover hf pointer details).filed hf) h
  | endAllHover surface =>
    rw [step] at h
    exact filed_onSurface_some hs (fun a hf => Surface.filed_endHoverWhere hf _) h
  | detachHover surface element =>
    rw [step] at h
    exact filed_onSurface_some hs (fun a hf => Surface.filed_endHoverWhere hf _) h
  | setPath surface pointer details path =>
    rw [step] at h
    exact filed_onSurface_some hs (fun a hf => hf.setPath pointer details path) h
  | areOver surface nodes | deliver surface event =>
    rw [step] at h
    exact filed_onSurface_some hs (fun a hf => hf) h
  | lineage surface node | bubble surface event =>
    rw [step] at h
    exact filed_onSurface_map hs (fun a x hf _ => hf) h
  | detachCapture device surface element formerParent =>
    obtain ⟨d, -, h⟩ := of_bind_ok h
    obtain ⟨a, -, h⟩ := of_bind_ok h
    split at h <;> cases h
    exact hs
  | capture device _ | disposeDevice device | disposePointer device | setRule device _ =>
    obtain ⟨d, -, h⟩ := of_bind_ok h
    cases h
    exact hs
  | addDevice draft =>
    cases h
    exact hs
  | allocate | record _ _ | removeDevice _ | removeRoot _ | active _ =>
    cases h
    exact hs

omit [DecidableEq K] [Host σ K] in
/-- Nothing is stored in a session that has just been started. -/
theorem filed_start (hosts : List σ) (drafts : List DeviceDraft) :
    (start hosts drafts : Session σ K).Filed := by
  have hall : ∀ (drafts : List DeviceDraft) (s : Session σ K), s.Filed →
      (drafts.foldl (fun s draft => (s.addDevice draft).2) s).Filed := by
    intro drafts
    induction drafts with
    | nil => exact fun s hs => hs
    | cons draft drafts ih => exact fun s hs => ih (s.addDevice draft).2 hs
  refine hall drafts _ fun a ha => ?_
  obtain ⟨host, -, rfl⟩ := List.mem_map.1 ha
  exact Hover.proper_empty.toFiled

/-- So every session that was started and led through some requests is filed. -/
theorem filed_run {limit : Nat} : ∀ {s : Session σ K} (steps : List (Step K)), s.Filed →
    (s.run limit steps).2.Filed
  | _, [], hs => hs
  | s, step :: steps, hs => by
    have hnext : (s.attempt limit step).2.Filed := by
      unfold attempt
      rcases hr : s.step limit step with fault | ⟨answer, t⟩
      · exact hs
      · exact filed_step hs hr
    exact filed_run steps hnext

end Session

end PointerRouting
