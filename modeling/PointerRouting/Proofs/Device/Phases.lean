/-
A report in two phases. First the device sends what the report calls for (`dispatch`), then its
hovering follows (`follow`). What it sends, and the device that is left (`next`), are settled by
the report and by what is under the pointer alone: no answer of an element is consulted for either.

`perform_eq` says that processing is just these two phases, and `dispatch_cases` and `follow_cases`
say all that each of them can do. Whoever asks what a report does, or compares two ways of
processing it, has these to look at and not seven kinds of reports. A change of the scene has one
phase, which is that of a move without the event (`sceneChanged_cases`).
-/
import PointerRouting.Device
import PointerRouting.Proofs.Hover.Entry
import PointerRouting.Proofs.Stage.Delivery

namespace PointerRouting

variable {σ K : Type}

/-! ## Pointers -/

theorem Pointer.info_capture (p : Pointer K) (target : Option K) :
    (p.capture target).2.info = p.info := by
  unfold Pointer.capture
  split <;> rfl

/-- The removal of an element leaves a pointer as it was, or hands it to the former parent. -/
theorem Pointer.detach_cases [DecidableEq K] {p p' : Pointer K} {parentOf : K → Option K}
    {limit : Nat} {element : K} {formerParent : Option K} {changed : Bool}
    (h : p.detach parentOf limit element formerParent = some (changed, p')) :
    p' = p ∨ p' = (p.capture formerParent).2 := by
  unfold detach at h
  split at h
  · cases h
    exact .inl rfl
  · obtain ⟨within, -, he⟩ := Option.map_eq_some_iff.1 h
    split at he <;> cases he
    · exact .inr rfl
    · exact .inl rfl

/-! ## What a report calls for -/

/-- The kind of event that an action sends. -/
def Action.eventKind : Action → Option EventKind
  | .press _ => some .pressed
  | .release _ => some .released
  | .move => some .moved
  | .send payload => some payload.kind
  | .leave => none

/-- The report tells that the pointer left its root, or that a button went down on the frame
around it. -/
def Report.Departs (r : Report) : Prop := r.kind = .leave ∨ r.kind = .frameDown

instance (r : Report) : Decidable r.Departs := inferInstanceAs (Decidable (_ ∨ _))

/-- The report tells of a move, or of a button that changed while others are held. -/
def Report.Moves (r : Report) : Prop :=
  r.kind = .move ∨ (∃ button, r.kind = .down button ∧ 1 < r.buttons.count) ∨
    ∃ button, r.kind = .up button ∧ r.buttons.count ≠ 0

theorem Report.action_eq_leave_iff (r : Report) : r.action = .leave ↔ r.Departs := by
  unfold action Departs
  cases r.kind with
  | down _ | up _ => dsimp only; split <;> simp
  | move | wheel _ | magnify _ | rotate _ | swipe _ | leave | frameDown => simp

theorem Report.action_eq_move_iff (r : Report) : r.action = .move ↔ r.Moves := by
  unfold action Moves
  cases r.kind with
  | down _ | up _ => dsimp only; split <;> simp_all
  | move | wheel _ | magnify _ | rotate _ | swipe _ | leave | frameDown => simp

theorem Report.Moves.not_departs {r : Report} (h : r.Moves) : ¬ r.Departs := by
  rw [← r.action_eq_leave_iff, r.action_eq_move_iff.2 h]
  simp

theorem kind_of_send {r : Report} {payload : Payload} (h : r.action = .send payload) :
    payload.kind ∈ [EventKind.wheel, .magnify, .rotate, .swipe] := by
  unfold Report.action at h
  cases hk : r.kind <;> rw [hk] at h <;> dsimp only at h <;> (try split at h) <;> cases h <;>
    simp [Payload.kind]

namespace Device

/-- The device once the place of a report is noted. -/
def placed (d : Device K) (r : Report) : Device K :=
  { d with position := some (r.root, r.position) }

/-- The device after a press over `target`. -/
def grasped (d : Device K) (r : Report) (button : Button) (target : K) : Device K :=
  { ((d.placed r).capture (some target)).2 with
    clicks := d.clicks.press d.rule ⟨r.time, r.position, button⟩ }

/-- The device after a report, with `hit` under the pointer. -/
def next (d : Device K) (hit : Option K) (r : Report) : Device K :=
  match r.action, hit with
  | .press button, some target => d.grasped r button target
  | .release _, _ => ((d.placed r).capture none).2
  | .leave, _ => { d with position := none }
  | _, _ => d.placed r

theorem info_grasped (d : Device K) (r : Report) (button : Button) (target : K) :
    (d.grasped r button target).pointer.info = d.pointer.info :=
  d.pointer.info_capture (some target)

theorem info_next (d : Device K) (hit : Option K) (r : Report) :
    (d.next hit r).pointer.info = d.pointer.info := by
  unfold next
  split
  · exact d.info_grasped ..
  · exact d.pointer.info_capture none
  · rfl
  · rfl

/-- What a report has a device send and to which element, with `hit` under the pointer. -/
def message (d : Device K) (hit : Option K) (r : Report) : Option (Payload × K) :=
  match r.action with
  | .press button => hit.map fun target =>
    (.pressed button (d.clicks.press d.rule ⟨r.time, r.position, button⟩).count, target)
  | .release button => (d.pointer.captured.or hit).map fun target =>
    (.released (d.clicks.button.getD button), target)
  | .move => (d.pointer.captured.or hit).map fun target => (.moved r.samples, target)
  | .send payload => (d.pointer.captured.or hit).map fun target => (payload, target)
  | .leave => none

/-- What is sent is of the kind that the action calls for. -/
theorem kind_of_message {d : Device K} {hit : Option K} {r : Report} {payload : Payload}
    {target : K} (h : d.message hit r = some (payload, target)) :
    r.action.eventKind = some payload.kind := by
  unfold message at h
  cases ha : r.action with
  | leave =>
    rw [ha] at h
    cases h
  | press _ | release _ | move | send _ =>
    rw [ha] at h
    obtain ⟨_, -, he⟩ := Option.map_eq_some_iff.1 h
    cases he
    rfl

/-- No report has a device send an arrival or a departure. -/
theorem message_plain {d : Device K} {hit : Option K} {r : Report} {payload : Payload} {target : K}
    (h : d.message hit r = some (payload, target)) : payload ≠ .enter ∧ payload ≠ .leave := by
  have hkind := kind_of_message h
  cases ha : r.action with
  | leave =>
    rw [ha] at hkind
    cases hkind
  | send sent =>
    have hsent := kind_of_send ha
    rw [ha] at hkind
    rw [Option.some.inj hkind] at hsent
    constructor <;> rintro rfl <;> simp [Payload.kind] at hsent
  | press _ | release _ | move =>
    rw [ha] at hkind
    constructor <;> rintro rfl <;> cases hkind

/-! ## The first phase: sending -/

/-- What comes of a report that has nothing sent. -/
def silence (r : Report) : Outcome K := if r.action = .leave then .left else .noTarget

theorem kind_silence (r : Report) :
    (silence r : Outcome K).kind = none ∧ (silence r : Outcome K).target = none := by
  unfold silence
  split <;> exact ⟨rfl, rfl⟩

section

variable [Host σ K]

/-- Sends what a report calls for. -/
def dispatch (d : Device K) (limit : Nat) (s : Stage σ K) (r : Report) :
    Option (Outcome K × Stage σ K) :=
  match d.message (Host.hitTest s.host r.position) r with
  | none => some (silence r, s)
  | some (payload, target) => d.send limit s r payload target

theorem send_congr {d d' : Device K} (h : d.pointer.info = d'.pointer.info) (limit : Nat)
    (s : Stage σ K) (r : Report) (payload : Payload) (target : K) :
    d.send limit s r payload target = d'.send limit s r payload target := by
  unfold send event
  rw [h]

/-- To send an event to the element that a report concerns is to send what the report calls for. -/
theorem route_eq_dispatch (d : Device K) (limit : Nat) (s : Stage σ K) {r : Report}
    {payload : Payload} (hleave : r.action ≠ .leave)
    (hmessage : ∀ hit, d.message hit r = (d.pointer.captured.or hit).map fun target =>
      (payload, target)) :
    (d.placed r).route limit s r payload = d.dispatch limit s r := by
  have htarget : (d.placed r).targetOf s r =
      d.pointer.captured.or (Host.hitTest s.host r.position) := rfl
  unfold route dispatch
  rw [htarget, hmessage]
  cases d.pointer.captured.or (Host.hitTest s.host r.position) with
  | none => simp [silence, hleave]
  | some target => rfl

/-- A report has nothing sent, or an event that bubbles from the element it is for. -/
theorem dispatch_cases {d : Device K} {limit : Nat} {s t : Stage σ K} {r : Report}
    {outcome : Outcome K} (h : d.dispatch limit s r = some (outcome, t)) :
    (d.message (Host.hitTest s.host r.position) r = none ∧ outcome = silence r ∧ t = s) ∨
      ∃ payload target response,
        d.message (Host.hitTest s.host r.position) r = some (payload, target) ∧
        s.bubble limit (d.event s r payload target) = some (response, t) ∧
        outcome = .routed payload.kind target (response = .handled) := by
  unfold dispatch at h
  split at h
  · rename_i hm
    cases h
    exact .inl ⟨hm, rfl, rfl⟩
  · rename_i payload target hm
    obtain ⟨⟨response, stage⟩, hbubble, he⟩ := Option.map_eq_some_iff.1 h
    cases he
    exact .inr ⟨payload, target, response, hm, hbubble, rfl⟩

/-- Nobody is told of an arrival or a departure before the hovering follows. -/
theorem told_dispatch {d : Device K} {limit : Nat} {s t : Stage σ K} {r : Report}
    {outcome : Outcome K} (h : d.dispatch limit s r = some (outcome, t)) :
    ∃ ds, s.Told ds t ∧ ∀ e ∈ ds, e.event.payload ≠ .enter ∧ e.event.payload ≠ .leave := by
  rcases dispatch_cases h with ⟨-, -, rfl⟩ | ⟨payload, target, response, hm, hbubble, -⟩
  · exact ⟨[], rfl, by simp⟩
  · obtain ⟨ds, hds, hevent⟩ := Stage.told_bubble hbubble
    refine ⟨ds, hds, fun e he => ?_⟩
    rw [hevent e he]
    exact message_plain hm

end

/-! ## The second phase: hovering -/

variable [Host σ K] [DecidableEq K]

/-- Has the hovering follow a report, with `hit` under the pointer when it came. -/
def follow (d : Device K) (limit : Nat) (s : Surface σ K) (hit : Option K) (r : Report) :
    Option (Surface σ K) :=
  match r.action with
  | .move =>
    if d.pointer.info.kind = .touch then some s
    else (s.hoverAt limit d.pointer.info (Details.ofReport r) hit).map (·.2)
  | .leave => some (d.leave s r).surface
  | _ => some s

/-- The hovering follows moves, of anything but a touch, and departures, and no other report. -/
theorem follow_cases {d : Device K} {limit : Nat} {s t : Surface σ K} {hit : Option K} {r : Report}
    (h : d.follow limit s hit r = some t) :
    (r.Moves ∧ d.pointer.info.kind ≠ .touch ∧ ∃ before,
      s.hoverAt limit d.pointer.info (Details.ofReport r) hit = some (before, t)) ∨
    (r.Departs ∧ t = (d.leave s r).surface) ∨
    ((r.Moves → d.pointer.info.kind = .touch) ∧ ¬ r.Departs ∧ t = s) := by
  rw [← r.action_eq_move_iff, ← r.action_eq_leave_iff]
  unfold follow at h
  cases ha : r.action with
  | move =>
    rw [ha] at h
    dsimp only at h
    split at h
    · rename_i htouch
      cases h
      exact .inr (.inr ⟨fun _ => htouch, by simp, rfl⟩)
    · rename_i hkind
      obtain ⟨⟨before, surface⟩, hhover, rfl⟩ := Option.map_eq_some_iff.1 h
      exact .inl ⟨rfl, hkind, before, hhover⟩
  | leave =>
    rw [ha] at h
    cases h
    exact .inr (.inl ⟨rfl, rfl⟩)
  | press _ | release _ | send _ =>
    rw [ha] at h
    cases h
    exact .inr (.inr ⟨by simp, by simp, rfl⟩)

/-- After a move of anything but a touch the pointer is put over what was under it. -/
theorem hoverAt_of_moves {d : Device K} {limit : Nat} {s t : Surface σ K} {hit : Option K}
    {r : Report} (hmoves : r.Moves) (hkind : d.pointer.info.kind ≠ .touch)
    (h : d.follow limit s hit r = some t) :
    ∃ before, s.hoverAt limit d.pointer.info (Details.ofReport r) hit = some (before, t) := by
  rcases follow_cases h with ⟨-, -, hhover⟩ | ⟨hdeparts, -⟩ | ⟨htouch, -, -⟩
  · exact hhover
  · exact absurd hdeparts hmoves.not_departs
  · exact absurd (htouch hmoves) hkind

/-! ## Both phases -/

theorem perform_eq (d : Device K) (limit : Nat) (s : Surface σ K) (r : Report) :
    d.perform limit s r =
      let hit := Host.hitTest s.host r.position
      (d.dispatch limit s.toStage r).bind fun sent =>
        (d.follow limit { s with toStage := sent.2 } hit r).map
          fun surface => ⟨sent.1, d.next hit r, surface⟩ := by
  unfold perform
  cases ha : r.action with
  | press button =>
    change (d.placed r).press limit s r button = _
    unfold press dispatch message follow next silence
    rw [ha]
    cases Host.hitTest s.host r.position with
    | none => rfl
    | some target =>
      change ((d.grasped r button target).send limit s.toStage r _ target).map _ =
        (d.send limit s.toStage r _ target).bind _
      rw [send_congr (d.info_grasped r button target)]
      exact Option.map_eq_bind
  | release button =>
    change ((d.placed r).route limit s.toStage r
      (.released (d.clicks.button.getD button))).map _ = _
    rw [d.route_eq_dispatch limit s.toStage (by simp [ha]) fun hit => by rw [message, ha]]
    unfold follow next
    rw [ha]
    exact Option.map_eq_bind
  | move =>
    change (d.placed r).move limit s r = _
    unfold move follow next
    rw [d.route_eq_dispatch limit s.toStage (by simp [ha]) fun hit => by rw [message, ha], ha]
    cases d.dispatch limit s.toStage r with
    | none => rfl
    | some sent =>
      by_cases htouch : d.pointer.info.kind = .touch
      · simp [placed, htouch]
      · simp [placed, htouch, Function.comp_def]
  | send payload =>
    change ((d.placed r).route limit s.toStage r payload).map _ = _
    unfold follow next
    rw [d.route_eq_dispatch limit s.toStage (by simp [ha]) fun hit => by rw [message, ha], ha]
    exact Option.map_eq_bind
  | leave =>
    unfold dispatch message follow next silence
    rw [ha]
    rfl

/-- A report is ignored by a device that has been disposed of, and goes through both phases
otherwise. -/
theorem phases_of_process {d : Device K} {limit : Nat} {s : Surface σ K} {r : Report}
    {handling : Handling σ K} (h : d.process limit s r = .ok handling) :
    (d.disposed = true ∧ handling = ⟨.stale, d, s⟩) ∨
      (d.disposed = false ∧ s.root = r.root ∧ ∃ outcome stage surface,
        d.dispatch limit s.toStage r = some (outcome, stage) ∧
        d.follow limit { s with toStage := stage } (Host.hitTest s.host r.position) r =
          some surface ∧
        handling = ⟨outcome, d.next (Host.hitTest s.host r.position) r, surface⟩) := by
  unfold process at h
  split at h
  · rename_i hd
    cases h
    exact .inl ⟨hd, rfl⟩
  · rename_i hd
    split at h
    · cases h
    · rename_i hroot
      rw [perform_eq] at h
      split at h
      · cases h
      · rename_i handling' hp
        cases h
        obtain ⟨⟨outcome, stage⟩, hsent, hp⟩ := Option.bind_eq_some_iff.1 hp
        obtain ⟨surface, hfollow, rfl⟩ := Option.map_eq_some_iff.1 hp
        exact .inr ⟨by simpa using hd, Decidable.not_not.1 hroot, outcome, stage, surface, hsent,
          hfollow, rfl⟩

/-- A report to a device that is in use goes through both phases. -/
theorem phases_of_used {d : Device K} {limit : Nat} {s : Surface σ K} {r : Report}
    {handling : Handling σ K} (hd : d.disposed = false) (h : d.process limit s r = .ok handling) :
    ∃ outcome stage surface, d.dispatch limit s.toStage r = some (outcome, stage) ∧
      d.follow limit { s with toStage := stage } (Host.hitTest s.host r.position) r =
        some surface ∧
      handling = ⟨outcome, d.next (Host.hitTest s.host r.position) r, surface⟩ := by
  rcases phases_of_process h with ⟨hdisposed, -⟩ | ⟨-, -, hphases⟩
  · rw [hd] at hdisposed
    cases hdisposed
  · exact hphases

/-! ## The device after a report -/

/-- A report leaves a device as it was, if that has been disposed of, or else as `next` says. -/
theorem device_of_process {d : Device K} {limit : Nat} {s : Surface σ K} {r : Report}
    {handling : Handling σ K} (h : d.process limit s r = .ok handling) :
    (d.disposed = true ∧ handling.device = d) ∨
      (d.disposed = false ∧ handling.device = d.next (Host.hitTest s.host r.position) r) := by
  rcases phases_of_process h with ⟨hd, rfl⟩ | ⟨hd, -, _, _, _, -, -, rfl⟩
  · exact .inl ⟨hd, rfl⟩
  · exact .inr ⟨hd, rfl⟩

theorem device_of_used {d : Device K} {limit : Nat} {s : Surface σ K} {r : Report}
    {handling : Handling σ K} (hd : d.disposed = false) (h : d.process limit s r = .ok handling) :
    handling.device = d.next (Host.hitTest s.host r.position) r := by
  obtain ⟨_, _, _, -, -, rfl⟩ := phases_of_used hd h
  rfl

/-- A pointer stays the one it is whatever is reported of it. -/
theorem info_of_process {d : Device K} {limit : Nat} {s : Surface σ K} {r : Report}
    {handling : Handling σ K} (h : d.process limit s r = .ok handling) :
    handling.device.pointer.info = d.pointer.info := by
  rcases device_of_process h with ⟨-, hd⟩ | ⟨-, hd⟩
  · rw [hd]
  · rw [hd]
    exact d.info_next _ r

omit [Host σ K] in
theorem info_of_detach {d d' : Device K} {parentOf : K → Option K} {limit : Nat} {element : K}
    {formerParent : Option K} {changed : Bool}
    (h : d.detach parentOf limit element formerParent = some (changed, d')) :
    d'.pointer.info = d.pointer.info := by
  obtain ⟨⟨changed, pointer⟩, hp, he⟩ := Option.map_eq_some_iff.1 h
  cases he
  rcases Pointer.detach_cases hp with rfl | rfl
  · rfl
  · exact d.pointer.info_capture formerParent

/-! ## Changes of the scene -/

section

variable {d : Device K} {s t : Surface σ K} {area : Rect} {position : Point} {changed : Bool}
  {limit : Nat}

/-- A change of the scene around the place of a device puts its pointer over what is there. -/
theorem sceneChanged_eq_hoverAt (hp : d.hoverPosition s.root area = some position)
    (limit : Nat) :
    d.sceneChanged limit s area =
      (s.hoverAt limit d.pointer.info (s.hover.detailsAt d.pointer.info.id position)
        (Host.hitTest s.host position)).map
          fun (before, t) => (decide (before ≠ Host.hitTest s.host position), t) := by
  rw [sceneChanged, hp]
  rfl

theorem of_sceneChanged (hp : d.hoverPosition s.root area = some position)
    (h : d.sceneChanged limit s area = some (changed, t)) :
    ∃ before, s.hoverAt limit d.pointer.info (s.hover.detailsAt d.pointer.info.id position)
        (Host.hitTest s.host position) = some (before, t) ∧
      changed = decide (before ≠ Host.hitTest s.host position) := by
  rw [sceneChanged_eq_hoverAt hp] at h
  obtain ⟨⟨before, surface⟩, hhover, he⟩ := Option.map_eq_some_iff.1 h
  cases he
  exact ⟨before, hhover, rfl⟩

/-- A change of the scene that concerns no place of the device does nothing, and any other puts its
pointer over what is at that place. -/
theorem sceneChanged_cases (h : d.sceneChanged limit s area = some (changed, t)) :
    (d.hoverPosition s.root area = none ∧ changed = false ∧ t = s) ∨
      ∃ position before, d.hoverPosition s.root area = some position ∧
        s.hoverAt limit d.pointer.info (s.hover.detailsAt d.pointer.info.id position)
          (Host.hitTest s.host position) = some (before, t) ∧
        changed = decide (before ≠ Host.hitTest s.host position) := by
  rcases hp : d.hoverPosition s.root area with _ | position
  · rw [sceneChanged, hp] at h
    cases h
    exact .inl ⟨rfl, rfl, rfl⟩
  · obtain ⟨before, hhover, hchanged⟩ := of_sceneChanged hp h
    exact .inr ⟨position, before, rfl, hhover, hchanged⟩

end

end Device

end PointerRouting
