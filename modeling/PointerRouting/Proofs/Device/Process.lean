/-
What comes of processing a report on a live device. It stays live, a press over an element and a
release are the only reports that change who has the pointer (`captured_of_process`), and every
event but a press goes to whoever has it (`outcome_of_process`). A run of reports over any surfaces
is a list of `Turn`s.
-/
import PointerRouting.Proofs.Device.Phases

namespace PointerRouting

variable {σ K : Type} [Host σ K]

namespace Device

variable [DecidableEq K]

/-! ## Who has the pointer -/

/-- Neither the device nor its pointer has been disposed of. -/
def Live (d : Device K) : Prop := d.disposed = false ∧ d.pointer.disposed = false

omit [Host σ K] [DecidableEq K] in
theorem capture_captured {d : Device K} (hd : d.Live) (target : Option K) :
    (d.capture target).2.pointer.captured = target ∧ (d.capture target).2.Live := by
  simp [capture, Pointer.capture, Live, hd.1, hd.2]

/-- Who has the pointer after a report on a surface. -/
def ownerAfter (d : Device K) (s : Surface σ K) (r : Report) : Option K :=
  match r.action with
  | .press _ => (Host.hitTest s.host r.position).or d.pointer.captured
  | .release _ => none
  | _ => d.pointer.captured

/-- A report hands the pointer of a live device to its next owner and leaves the device live. -/
theorem captured_of_process {d : Device K} {limit : Nat} {s : Surface σ K} {r : Report}
    {handling : Handling σ K} (hd : d.Live) (h : d.process limit s r = .ok handling) :
    handling.device.pointer.captured = d.ownerAfter s r ∧ handling.device.Live := by
  -- noting the place of a report changes nothing about who is live or captured
  have hplaced : (d.placed r).Live := hd
  rw [device_of_used hd.1 h]
  unfold next ownerAfter
  cases r.action with
  | press button =>
    cases Host.hitTest s.host r.position with
    | none => exact ⟨rfl, hd⟩
    | some target => exact capture_captured hplaced (some target)
  | release _ => exact capture_captured hplaced none
  | move | send _ | leave => exact ⟨rfl, hd⟩

/-! ## What is sent to whom -/

/-- The element that a report is for on a surface: a press is for what is under the pointer, and
everything else that sends an event for whoever has the pointer, if anybody has. -/
def addressee (d : Device K) (s : Surface σ K) (r : Report) : Option K :=
  match r.action with
  | .press _ => Host.hitTest s.host r.position
  | .leave => none
  | _ => d.pointer.captured.or (Host.hitTest s.host r.position)

omit [DecidableEq K] in
/-- The addressee is whom the report calls for an event to be sent to, if it calls for one. -/
theorem addressee_eq (d : Device K) (s : Surface σ K) (r : Report) :
    d.addressee s r = (d.message (Host.hitTest s.host r.position) r).map (·.2) := by
  unfold addressee message
  cases r.action with
  | press _ | release _ | move | send _ =>
    dsimp only
    rw [Option.map_map]
    exact Option.map_id'.symm
  | leave => rfl

/-- A live device sends an event of the kind its action calls for to the addressee of the
report. -/
theorem outcome_of_process {d : Device K} {limit : Nat} {s : Surface σ K} {r : Report}
    {handling : Handling σ K} (hd : d.Live) (h : d.process limit s r = .ok handling) :
    handling.outcome.target = d.addressee s r ∧
      handling.outcome.kind = (d.addressee s r).bind fun _ => r.action.eventKind := by
  obtain ⟨outcome, stage, surface, hsent, -, rfl⟩ := phases_of_used hd.1 h
  rw [addressee_eq]
  rcases dispatch_cases hsent with ⟨hm, rfl, -⟩ | ⟨payload, target, response, hm, -, rfl⟩
  · rw [hm]
    exact (kind_silence r).symm
  · rw [hm]
    exact ⟨rfl, (kind_of_message hm).symm⟩

end Device

/-! ## One report after another -/

/-- A report brought to a device on a surface, with what came of it. -/
structure Turn (σ K : Type) where
  limit : Nat
  surface : Surface σ K
  report : Report
  handling : Handling σ K

namespace Turn

/-- What is under the pointer when the report comes. -/
def hit (t : Turn σ K) : Option K := Host.hitTest t.surface.host t.report.position

end Turn

namespace Device

variable [DecidableEq K]

/-- A device processes some reports, each on a surface that may have nothing to do with the one
before, and is `d'` in the end. -/
def Turns : Device K → List (Turn σ K) → Device K → Prop
  | d, [], d' => d = d'
  | d, t :: ts, d' =>
    d.process t.limit t.surface t.report = .ok t.handling ∧ Turns t.handling.device ts d'

theorem turns_append : ∀ {d d' : Device K} {ts us : List (Turn σ K)},
    d.Turns (ts ++ us) d' ↔ ∃ m, d.Turns ts m ∧ m.Turns us d'
  | _, _, [], us => by simp [Turns]
  | _, _, t :: ts, us => by
    simp only [List.cons_append, Turns, turns_append]
    constructor
    · rintro ⟨h, m, h1, h2⟩; exact ⟨m, ⟨h, h1⟩, h2⟩
    · rintro ⟨m, ⟨h, h1⟩, h2⟩; exact ⟨h, m, h1, h2⟩

theorem turns_snoc {d d' : Device K} {ts : List (Turn σ K)} {t : Turn σ K} :
    d.Turns (ts ++ [t]) d' ↔ ∃ m, d.Turns ts m ∧
      m.process t.limit t.surface t.report = .ok t.handling ∧ t.handling.device = d' := by
  rw [turns_append]
  rfl

/-- The turns that a device takes over some reports, each brought to the surface beside it, if it
refuses none of them. -/
def turnsOver (limit : Nat) : Device K → List (Surface σ K × Report) →
    Option (List (Turn σ K) × Device K)
  | d, [] => some ([], d)
  | d, (surface, report) :: rest =>
    match d.process limit surface report with
    | .error _ => none
    | .ok handling =>
      (turnsOver limit handling.device rest).map fun (turns, d) =>
        (⟨limit, surface, report, handling⟩ :: turns, d)

theorem turns_turnsOver {limit : Nat} : ∀ {d d' : Device K} {reports : List (Surface σ K × Report)}
    {turns : List (Turn σ K)}, d.turnsOver limit reports = some (turns, d') →
      d.Turns turns d' ∧ turns.map (fun t => (t.surface, t.report)) = reports
  | d, d', [], turns, h => by cases h; exact ⟨rfl, rfl⟩
  | d, d', (surface, report) :: rest, turns, h => by
    unfold turnsOver at h
    rcases hp : d.process limit surface report with _ | handling
    · rw [hp] at h; cases h
    · rw [hp] at h
      obtain ⟨⟨turns', m⟩, hrest, he⟩ := Option.map_eq_some_iff.1 h
      cases he
      obtain ⟨ht, hmap⟩ := turns_turnsOver hrest
      exact ⟨⟨hp, ht⟩, by rw [List.map_cons, hmap]⟩

/-- A live device stays live through any reports. -/
theorem live_of_turns : ∀ {d d' : Device K} {ts : List (Turn σ K)}, d.Live → d.Turns ts d' →
    d'.Live
  | _, _, [], hd, h => h ▸ hd
  | _, _, _ :: _, hd, h => live_of_turns (captured_of_process hd h.1).2 h.2

end Device

end PointerRouting
