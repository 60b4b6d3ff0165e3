/-
Two sessions that are equal but for their hosts, which have the same layouts and whose elements
answer as they please, each by a history of its own. Led through the same requests they stay so
(`twins_run`), and the answers to the requests differ at most in whether an event was handled. A
request that runs into an endless walk in one of them says nothing about the other, where the event
may have been handled on its way.
-/
import PointerRouting.Proofs.Session.Run
import PointerRouting.Proofs.Surface.Twin

namespace PointerRouting

variable {σ τ K : Type}

/-! ## Two requests, if both are answered -/

/-- Related as `Alike` has it, unless one of them is refused for an endless walk. -/
def Near {α β : Type} (R : α → β → Prop) (x : Except Fault α) (y : Except Fault β) : Prop :=
  x ≠ .error .endlessWalk → y ≠ .error .endlessWalk → Alike R x y

theorem Alike.near {α β : Type} {R : α → β → Prop} {x : Except Fault α} {y : Except Fault β}
    (h : Alike R x y) : Near R x y :=
  fun _ _ => h

theorem Near.bind {α β γ δ : Type} {R : α → β → Prop} {S : γ → δ → Prop} {x : Except Fault α}
    {y : Except Fault β} {f : α → Except Fault γ} {g : β → Except Fault δ} (h : Near R x y)
    (hnext : ∀ a b, x = .ok a → y = .ok b → R a b → Near S (f a) (g b)) :
    Near S (x >>= f) (y >>= g) := by
  intro hf hg
  have hx : x ≠ .error .endlessWalk := by
    rintro rfl
    exact hf rfl
  have hy : y ≠ .error .endlessWalk := by
    rintro rfl
    exact hg rfl
  cases h hx hy with
  | refused fault => exact .refused fault
  | granted hab => exact hnext _ _ rfl rfl hab hf hg

/-- The answer with nothing said about whether an event was handled. -/
def Answer.mute : Answer K → Answer K
  | .outcome o => .outcome o.mute
  | other => other

/-- A request that an element be told of an event and its answer be given, which is all that the
answer to the request says. -/
def Step.Tells : Step K → Prop
  | .bubble _ _ | .deliver _ _ => True
  | _ => False

theorem Outcome.isStale_mute (o : Outcome K) : o.mute.isStale = o.isStale := by
  cases o <;> rfl

variable [Host σ K] [Host τ K]

theorem Device.near_process [DecidableEq K] {l : Layout K} {a : Surface σ K} {b : Surface τ K}
    (h : a.Twins l b) (d : Device K) (limit : Nat) (r : Report) :
    Near (fun x y => x.outcome.mute = y.outcome.mute ∧ x.device = y.device ∧
      x.surface.Twins l y.surface) (d.process limit a r) (d.process limit b r) := by
  unfold process
  rw [← h.root]
  split
  · exact (Alike.granted ⟨rfl, rfl, h⟩).near
  split
  · exact (Alike.refused _).near
  intro hx hy
  rcases ha : d.perform limit a r with _ | x
  · rw [ha] at hx
    exact absurd rfl hx
  rcases hb : d.perform limit b r with _ | y
  · rw [hb] at hy
    exact absurd rfl hy
  exact .granted (twins_perform h ha hb)

namespace Session

/-- The sessions are equal but for their hosts and the record of their deliveries. The hosts at a
place have the layout given for it, and the arrivals and departures they were told of are the
same. -/
structure Twins (layouts : Nat → Layout K) (s : Session σ K) (t : Session τ K) : Prop where
  surfaces : ∀ k : Nat, Option.Rel (Surface.Twins (layouts k)) s.surfaces[k]? t.surfaces[k]?
  devices : s.devices = t.devices
  registry : s.registry = t.registry
  supply : s.supply = t.supply

section

variable {layouts : Nat → Layout K} {s : Session σ K} {t : Session τ K}

theorem Twins.deviceAt (h : s.Twins layouts t) (i : Nat) : s.deviceAt i = t.deviceAt i := by
  unfold Session.deviceAt
  rw [h.devices]

theorem Twins.surfaceAt (h : s.Twins layouts t) (k : Nat) :
    Alike (Surface.Twins (layouts k)) (s.surfaceAt k) (t.surfaceAt k) := by
  unfold Session.surfaceAt
  have hk := h.surfaces k
  generalize s.surfaces[k]? = a at hk ⊢
  generalize t.surfaces[k]? = b at hk ⊢
  cases hk with
  | none => exact .refused _
  | some hab => exact .granted hab

theorem Twins.setDevice (h : s.Twins layouts t) (i : Nat) (d : Device K) :
    (s.setDevice i d).Twins layouts (t.setDevice i d) :=
  { h with devices := congrArg (·.set i d) h.devices }

theorem Twins.setSurface (h : s.Twins layouts t) {k : Nat} {a : Surface σ K} {b : Surface τ K}
    (hab : a.Twins (layouts k) b) : (s.setSurface k a).Twins layouts (t.setSurface k b) where
  surfaces j := by
    show Option.Rel _ (s.surfaces.set k a)[j]? (t.surfaces.set k b)[j]?
    have hj := h.surfaces j
    by_cases hk : k = j
    · subst hk
      rw [List.getElem?_set_self', List.getElem?_set_self']
      generalize s.surfaces[k]? = a? at hj ⊢
      generalize t.surfaces[k]? = b? at hj ⊢
      cases hj with
      | none => exact .none
      | some _ => exact .some hab
    · rw [List.getElem?_set_ne hk, List.getElem?_set_ne hk]
      exact hj
  devices := h.devices
  registry := h.registry
  supply := h.supply

/-- Answers that are equal but for whether an event was handled, with twins after them. -/
def Echo (layouts : Nat → Layout K) (x : Answer K × Session σ K) (y : Answer K × Session τ K) :
    Prop :=
  x.1.mute = y.1.mute ∧ x.2.Twins layouts y.2

theorem near_onDevice (h : s.Twins layouts t) (i : Nat) (act : Device K → Answer K × Device K) :
    Near (Echo layouts) (s.onDevice i act) (t.onDevice i act) := by
  unfold onDevice
  rw [← h.deviceAt]
  rcases s.deviceAt i with fault | d
  · exact (Alike.refused fault).near
  · exact (Alike.granted ⟨rfl, h.setDevice i _⟩).near

theorem near_onSurface (h : s.Twins layouts t) (k : Nat)
    {act : Surface σ K → Option (Answer K × Surface σ K)}
    {act' : Surface τ K → Option (Answer K × Surface τ K)}
    (hact : ∀ a b, a.Twins (layouts k) b → ∀ x a' y b', act a = some (x, a') →
      act' b = some (y, b') → x.mute = y.mute ∧ a'.Twins (layouts k) b') :
    Near (Echo layouts) (s.onSurface k act) (t.onSurface k act') := by
  refine (h.surfaceAt k).near.bind fun a b _ _ hab => ?_
  intro hx hy
  rcases ha : act a with _ | ⟨x, a'⟩
  · rw [ha] at hx
    exact absurd rfl hx
  rcases hb : act' b with _ | ⟨y, b'⟩
  · rw [hb] at hy
    exact absurd rfl hy
  obtain ⟨hmute, htwins⟩ := hact a b hab x a' y b' ha hb
  exact .granted ⟨hmute, h.setSurface htwins⟩

/-- A request about a surface that is never refused for an endless walk. -/
theorem near_onSurface_some (h : s.Twins layouts t) (k : Nat)
    {f : Surface σ K → Answer K × Surface σ K} {g : Surface τ K → Answer K × Surface τ K}
    (hfg : ∀ a b, a.Twins (layouts k) b →
      (f a).1.mute = (g b).1.mute ∧ (f a).2.Twins (layouts k) (g b).2) :
    Near (Echo layouts) (s.onSurface k fun a => some (f a))
      (t.onSurface k fun b => some (g b)) := by
  refine near_onSurface h k fun a b hab x a' y b' ha hb => ?_
  have hboth := hfg a b hab
  rw [Option.some.inj ha, Option.some.inj hb] at hboth
  exact hboth

/-- A request about a surface whose answer and effect are read off a result that twins share. -/
theorem near_onSurface_map {α : Type} (h : s.Twins layouts t) (k : Nat)
    {f : Surface σ K → Option (α × Surface σ K)} {g : Surface τ K → Option (α × Surface τ K)}
    (answer : α → Answer K)
    (hfg : ∀ a b, a.Twins (layouts k) b → ∀ x a' y b', f a = some (x, a') →
      g b = some (y, b') → x = y ∧ a'.Twins (layouts k) b') :
    Near (Echo layouts) (s.onSurface k fun a => (f a).map fun x => (answer x.1, x.2))
      (t.onSurface k fun b => (g b).map fun y => (answer y.1, y.2)) := by
  refine near_onSurface h k fun a b hab x a' y b' ha hb => ?_
  obtain ⟨⟨x, c⟩, hf, hea⟩ := Option.map_eq_some_iff.1 ha
  obtain ⟨⟨y, c'⟩, hg, heb⟩ := Option.map_eq_some_iff.1 hb
  obtain ⟨rfl, htwins⟩ := hfg a b hab x c y c' hf hg
  cases hea
  cases heb
  exact ⟨rfl, htwins⟩

variable [DecidableEq K]

/-- A report to twin sessions has the same answer in both but for whether the event was handled. -/
theorem near_process (h : s.Twins layouts t) (limit i k : Nat) (r : Report) :
    Near (Echo layouts) (s.process limit i k r) (t.process limit i k r) := by
  unfold process
  rw [← h.deviceAt]
  rcases s.deviceAt i with fault | d
  · exact (Alike.refused fault).near
  refine (h.surfaceAt k).near.bind fun a b _ _ hab => ?_
  refine (Device.near_process hab d limit r).bind fun x y _ _ ⟨hmute, hdevice, hsurface⟩ => ?_
  have hboth := (h.setDevice i x.device).setSurface hsurface
  -- of an outcome the registry looks at no more than whether it is stale
  have hnote : s.registry.note r x.outcome = t.registry.note r y.outcome := by
    unfold Registry.note
    rw [h.registry, ← Outcome.isStale_mute, hmute, Outcome.isStale_mute]
  rw [← hdevice]
  refine (Alike.granted ⟨congrArg Answer.outcome hmute, ?_⟩).near
  exact ⟨hboth.surfaces, hboth.devices, hnote, hboth.supply⟩

theorem near_repaint (h : s.Twins layouts t) (limit k : Nat) (area : Rect) :
    Near (Echo layouts) (s.repaint limit k area) (t.repaint limit k area) := by
  unfold repaint
  refine near_onSurface h k fun a b hab x a' y b' ha hb => ?_
  rw [← hab.root, ← h.registry, ← h.devices] at hb
  split at ha
  · rename_i hnone
    rw [hnone] at hb
    cases ha
    cases hb
    exact ⟨rfl, hab⟩
  · rename_i id hid
    rw [hid] at hb
    dsimp only at hb
    split at ha
    · rename_i hnone
      rw [hnone] at hb
      cases ha
      cases hb
      exact ⟨rfl, hab⟩
    · rename_i d hd
      rw [hd] at hb
      obtain ⟨⟨changed, c⟩, hscene, hea⟩ := Option.map_eq_some_iff.1 ha
      obtain ⟨⟨changed', c'⟩, hscene', heb⟩ := Option.map_eq_some_iff.1 hb
      obtain ⟨rfl, htwins⟩ := Device.twins_sceneChanged hab hscene hscene'
      cases hea
      cases heb
      exact ⟨rfl, htwins⟩

/-- Whatever is requested of twins, but that an element be told of an event, leaves them twins and
has the same answer but for whether an event was handled. -/
theorem near_step (h : s.Twins layouts t) {step : Step K} (hstep : ¬ step.Tells) (limit : Nat) :
    Near (Echo layouts) (s.step limit step) (t.step limit step) := by
  cases step with
  | process device surface report => exact near_process h limit device surface report
  | sceneChanged device surface area =>
    change Near _ (s.deviceAt device >>= _) (t.deviceAt device >>= _)
    rw [← h.deviceAt]
    rcases s.deviceAt device with fault | d
    · exact (Alike.refused fault).near
    exact near_onSurface_map h surface .flag fun a b hab x a' y b' ha hb =>
      Device.twins_sceneChanged hab ha hb
  | repaint surface area => exact near_repaint h limit surface area
  | detachCapture device surface element formerParent =>
    change Near _ (s.deviceAt device >>= _) (t.deviceAt device >>= _)
    rw [← h.deviceAt]
    rcases s.deviceAt device with fault | d
    · exact (Alike.refused fault).near
    refine (h.surfaceAt surface).near.bind fun a b _ _ hab => ?_
    rw [hab.left.parentOf, hab.right.parentOf]
    rcases d.detach (layouts surface).parentOf limit element formerParent with _ | ⟨changed, d'⟩
    · exact (Alike.refused _).near
    · exact (Alike.granted ⟨rfl, h.setDevice device d'⟩).near
  | capture device _ | disposeDevice device | disposePointer device | setRule device _ =>
    rw [step, step]
    exact near_onDevice h device _
  | addDevice draft =>
    refine (Alike.granted ?_).near
    rw [h.supply, h.devices]
    exact ⟨rfl, h.surfaces, rfl, h.registry, rfl⟩
  | allocate =>
    refine (Alike.granted ?_).near
    rw [h.supply]
    exact ⟨rfl, h.surfaces, h.devices, h.registry, rfl⟩
  | hoverAt surface pointer details target =>
    exact near_onSurface_map h surface .node fun a b hab x a' y b' ha hb => hab.hoverAt ha hb
  | endHover surface pointer details =>
    rw [step, step]
    exact near_onSurface_some h surface fun a b hab => ⟨rfl, hab.endHover pointer details⟩
  | endAllHover surface =>
    rw [step, step]
    exact near_onSurface_some h surface fun a b hab => ⟨rfl, hab.endHoverWhere _⟩
  | detachHover surface element =>
    rw [step, step]
    refine near_onSurface_some h surface fun a b hab => ⟨?_, hab.endHoverWhere _⟩
    rw [hab.hover]
  | setPath surface pointer details path =>
    rw [step, step]
    refine near_onSurface_some h surface fun a b hab => ?_
    rw [hab.hover]
    exact ⟨rfl, hab.setHover _⟩
  | areOver surface nodes =>
    rw [step, step]
    refine near_onSurface_some h surface fun a b hab => ⟨?_, hab⟩
    rw [hab.hover]
  | lineage surface node =>
    refine near_onSurface h surface fun a b hab x a' y b' ha hb => ?_
    rw [hab.pathTo] at ha
    obtain ⟨path, hpath, hea⟩ := Option.map_eq_some_iff.1 ha
    obtain ⟨path', hpath', heb⟩ := Option.map_eq_some_iff.1 hb
    rw [hpath] at hpath'
    cases hpath'
    cases hea
    cases heb
    exact ⟨rfl, hab⟩
  | bubble _ _ | deliver _ _ => exact absurd trivial hstep
  | record root device =>
    refine (Alike.granted ⟨rfl, h.surfaces, h.devices, ?_, h.supply⟩).near
    exact congrArg (·.record root device) h.registry
  | removeDevice device =>
    refine (Alike.granted ⟨rfl, h.surfaces, h.devices, ?_, h.supply⟩).near
    exact congrArg (·.removeDevice device) h.registry
  | removeRoot root =>
    refine (Alike.granted ⟨rfl, h.surfaces, h.devices, ?_, h.supply⟩).near
    exact congrArg (·.removeRoot root) h.registry
  | active root =>
    refine (Alike.granted ⟨?_, h⟩).near
    rw [h.registry]

/-! ## Runs -/

/-- Requests that are not cut short leave twins twins. -/
theorem twins_attempt (h : s.Twins layouts t) {step : Step K} (hstep : ¬ step.Tells) {limit : Nat}
    (hs : (s.attempt limit step).1 ≠ .error .endlessWalk)
    (ht : (t.attempt limit step).1 ≠ .error .endlessWalk) :
    (s.attempt limit step).1.map Answer.mute = (t.attempt limit step).1.map Answer.mute ∧
      (s.attempt limit step).2.Twins layouts (t.attempt limit step).2 := by
  rw [Ne, attempt_eq_error] at hs ht
  obtain ⟨hanswer, hnext⟩ := attempt_of_alike (A := fun x y => x.mute = y.mute)
    (R := fun s t => s.Twins layouts t) h (near_step h hstep limit hs ht)
  exact ⟨hanswer.map_eq, hnext⟩

/-- No request was refused for an endless walk. -/
def Ended (answers : List (Step K × Except Fault (Answer K))) : Prop :=
  ∀ x ∈ answers, x.2 ≠ .error .endlessWalk

/-- The answers with nothing said about whether an event was handled. -/
def muted (answers : List (Step K × Except Fault (Answer K))) :
    List (Step K × Except Fault (Answer K)) :=
  answers.map fun x => (x.1, x.2.map Answer.mute)

/-- Twin sessions stay twins through any requests, if no walk is cut short in either. -/
theorem twins_run (limit : Nat) : ∀ {s : Session σ K} {t : Session τ K} (steps : List (Step K)),
    s.Twins layouts t → (∀ step ∈ steps, ¬ step.Tells) → Ended (s.run limit steps).1 →
      Ended (t.run limit steps).1 →
      (s.run limit steps).2.Twins layouts (t.run limit steps).2 ∧
        muted (s.run limit steps).1 = muted (t.run limit steps).1
  | _, _, [], h, _, _, _ => ⟨h, rfl⟩
  | s, t, step :: steps, h, hsteps, hs, ht => by
    obtain ⟨hstep, hsteps⟩ := List.forall_mem_cons.1 hsteps
    obtain ⟨hfirst, hs⟩ := List.forall_mem_cons.1 hs
    obtain ⟨hfirst', ht⟩ := List.forall_mem_cons.1 ht
    obtain ⟨hanswer, hnext⟩ := twins_attempt h hstep hfirst hfirst'
    obtain ⟨hfinal, hrest⟩ := twins_run limit steps hnext hsteps hs ht
    exact ⟨hfinal, congrArg₂ (fun x xs => (step, x) :: xs) hanswer hrest⟩

end

end Session

end PointerRouting
