/-
The presses that a device counts. Whatever is done with it, its memory of presses is that of the
reports that make a press: a button goes down over something while no other is held, and the device
is in use. A press that is sent carries the count at which the memory arrives with it, and nothing
else that is done, a chord or a press over nothing included, goes on with a run of presses or breaks
it (`clicks_are_of_presses`).

The memory keeps the place of the last press and not the root in which the place is. So the press
after it is held against that place whichever root it is in itself, and a press in one root can be
counted as the second of a run that began in another (`count_after_press`).
-/
import PointerRouting.Proofs.Capture.Release
import PointerRouting.Proofs.Click.Count

namespace PointerRouting

variable {σ K : Type}

/-! ## Counts one after another -/

namespace Clicks

/-- What each of some more presses counts as. -/
def counts : Clicks → List RuledPress → List Nat
  | _, [] => []
  | c, p :: presses => (c.press p.rule p.press).count :: counts (c.press p.rule p.press) presses

theorem counts_append : ∀ (c : Clicks) (presses more : List RuledPress),
    c.counts (presses ++ more) = c.counts presses ++ (c.pressAll presses).counts more
  | _, [], _ => rfl
  | c, p :: presses, more => by
    rw [List.cons_append, counts, counts, counts_append, List.cons_append]
    rfl

end Clicks

/-! ## The press that a report makes -/

/-- The count that an event tells. -/
def Payload.clicks? : Payload → Option Nat
  | .pressed _ clicks => some clicks
  | _ => none

theorem Payload.clicks?_crossing {payload : Payload} (h : payload = .enter ∨ payload = .leave) :
    payload.clicks? = none := by
  rcases h with rfl | rfl <;> rfl

/-- The press that a report makes under a rule, with `hit` under the pointer: a button goes down
over something while no other is held. -/
def Report.press? (r : Report) (hit : Option K) (rule : ClickRule) : Option RuledPress :=
  match r.kind, hit with
  | .down button, some _ =>
    if r.buttons.count ≤ 1 then some ⟨rule, ⟨r.time, r.position, button⟩⟩ else none
  | _, _ => none

theorem Report.press?_eq (r : Report) (hit : Option K) (rule : ClickRule) :
    r.press? hit rule = match r.action, hit with
      | .press button, some _ => some ⟨rule, ⟨r.time, r.position, button⟩⟩
      | _, _ => none := by
  unfold press? action
  cases r.kind with
  | down button =>
    by_cases hone : r.buttons.count ≤ 1
    · have hnot : ¬ 1 < r.buttons.count := Nat.not_lt.2 hone
      cases hit <;> simp [hone, hnot]
    · cases hit <;> simp [hone, Nat.not_le.1 hone]
  | up button =>
    by_cases hnone : r.buttons.count = 0 <;> cases hit <;> simp [hnone]
  | move | wheel _ | magnify _ | rotate _ | swipe _ | leave | frameDown => rfl

theorem Report.press_of_press? {r : Report} {hit : Option K} {rule : ClickRule} {p : RuledPress}
    (h : r.press? hit rule = some p) : ∃ button, p = ⟨rule, ⟨r.time, r.position, button⟩⟩ := by
  rw [r.press?_eq] at h
  split at h
  · rename_i button _ _
    exact ⟨button, (Option.some.inj h).symm⟩
  · cases h

namespace Device

theorem clicks_next (d : Device K) (hit : Option K) (r : Report) :
    (d.next hit r).clicks = d.clicks.pressAll (r.press? hit d.rule).toList := by
  rw [r.press?_eq]
  unfold next
  cases r.action with
  | press button => cases hit <;> rfl
  | release _ | move | send _ | leave => rfl

theorem rule_next (d : Device K) (hit : Option K) (r : Report) :
    (d.next hit r).rule = d.rule ∧ (d.next hit r).disposed = d.disposed := by
  unfold next
  split <;> exact ⟨rfl, rfl⟩

/-- The count of the press that a device sends is the one its memory arrives at. -/
theorem clicks?_message (d : Device K) (hit : Option K) (r : Report) :
    (d.message hit r).bind (fun sent => sent.1.clicks?) =
      (r.press? hit d.rule).map fun p => (d.clicks.press p.rule p.press).count := by
  rw [r.press?_eq]
  unfold message
  cases ha : r.action with
  | press button => cases hit <;> rfl
  | release _ | move => cases d.pointer.captured.or hit <;> rfl
  | send payload =>
    have hkind := kind_of_send ha
    have hnone : payload.clicks? = none := by
      cases payload <;> simp [Payload.kind] at hkind <;> rfl
    cases d.pointer.captured.or hit with
    | none => rfl
    | some target => exact hnone
  | leave => rfl

/-! ## What can be done with a device -/

/-- Something done with a device. -/
inductive Use (σ K : Type) where
  | process (turn : Turn σ K)
  /-- Tells the device of a change of the scene, by which `before` becomes `after`. -/
  | sceneChanged (limit : Nat) (before : Surface σ K) (area : Rect) (changed : Bool)
    (after : Surface σ K)
  | detach (parentOf : K → Option K) (limit : Nat) (element : K) (formerParent : Option K)
    (changed : Bool)
  | capture (target : Option K)
  | setRule (rule : ClickRule)
  | disposePointer
  | dispose

namespace Use

/-- The deliveries made in a use. -/
def news : Use σ K → List (Delivery K)
  | process t => t.news
  | sceneChanged _ before _ _ after => after.log.drop before.log.length
  | _ => []

/-- The count of the press that is sent in a use, if one is. -/
def sentCount : Use σ K → Option Nat
  | process t =>
    if t.handling.outcome.kind = some .pressed then
      t.news.head?.bind fun e => e.event.payload.clicks?
    else none
  | _ => none

/-- The rule in force after a use, if the device is still in use then. -/
def ruleAfter : Option ClickRule → Use σ K → Option ClickRule
  | _, dispose => none
  | some _, setRule rule => some rule
  | rule, _ => rule

variable [Host σ K]

/-- The press that is made in a use, with a rule in force. -/
def press? (rule : ClickRule) : Use σ K → Option RuledPress
  | process t => t.report.press? t.hit rule
  | _ => none

end Use

/-- The rule in force, if the device is in use. -/
def inForce (d : Device K) : Option ClickRule := if d.disposed then none else some d.rule

theorem inForce_of_disposed {d : Device K} (hd : d.disposed = true) : d.inForce = none := by
  rw [inForce, if_pos hd]

theorem inForce_of_used {d : Device K} (hd : d.disposed = false) : d.inForce = some d.rule := by
  rw [inForce, hd]
  rfl

theorem rule_of_inForce {d : Device K} {rule : ClickRule} (h : d.inForce = some rule) :
    d.rule = rule := by
  cases hd : d.disposed with
  | true =>
    rw [inForce_of_disposed hd] at h
    cases h
  | false =>
    rw [inForce_of_used hd] at h
    exact Option.some.inj h

section

variable [Host σ K]

/-- The presses that are made in some uses, each under the rule in force when it is made. -/
def presses : Option ClickRule → List (Use σ K) → List RuledPress
  | _, [] => []
  | rule, u :: uses => (rule.bind u.press?).toList ++ presses (Use.ruleAfter rule u) uses

variable [DecidableEq K]

/-- A use makes the device `d` the device `d'`. -/
def Takes (d : Device K) : Use σ K → Device K → Prop
  | .process t, d' => d.process t.limit t.surface t.report = .ok t.handling ∧ d' = t.handling.device
  | .sceneChanged limit before area changed after, d' =>
    d.sceneChanged limit before area = some (changed, after) ∧ d' = d
  | .detach parentOf limit element formerParent changed, d' =>
    d.detach parentOf limit element formerParent = some (changed, d')
  | .capture target, d' => d' = (d.capture target).2
  | .setRule rule, d' => d' = d.setRule rule
  | .disposePointer, d' => d' = d.disposePointer
  | .dispose, d' => d' = d.dispose

/-- Some uses, one after another, make the device `d` the device `d'`. -/
def Uses : Device K → List (Use σ K) → Device K → Prop
  | d, [], d' => d = d'
  | d, u :: uses, d' => ∃ m, d.Takes u m ∧ Uses m uses d'

theorem uses_append : ∀ {d d' : Device K} {uses more : List (Use σ K)},
    d.Uses (uses ++ more) d' ↔ ∃ m, d.Uses uses m ∧ m.Uses more d'
  | _, _, [], more => by simp [Uses]
  | _, _, u :: uses, more => by
    simp only [List.cons_append, Uses, uses_append]
    constructor
    · rintro ⟨x, hx, m, h1, h2⟩
      exact ⟨m, ⟨x, hx, h1⟩, h2⟩
    · rintro ⟨m, ⟨x, hx, h1⟩, h2⟩
      exact ⟨x, hx, m, h1, h2⟩

omit [DecidableEq K] in
/-- The presses made in some turns. -/
theorem presses_turns (rule : ClickRule) (more : List (Use σ K)) : ∀ turns : List (Turn σ K),
    presses (some rule) (turns.map .process ++ more) =
      turns.filterMap (fun t => t.report.press? t.hit rule) ++ presses (some rule) more
  | [] => rfl
  | t :: turns => by
    rw [List.map_cons, List.cons_append, List.filterMap_cons]
    show (t.report.press? t.hit rule).toList ++ presses (some rule) _ = _
    rw [presses_turns rule more turns]
    cases t.report.press? t.hit rule <;> rfl

theorem uses_of_turns : ∀ {d d' : Device K} {turns : List (Turn σ K)}, d.Turns turns d' →
    d.Uses (turns.map .process) d'
  | _, _, [], h => h
  | _, _, t :: _, ⟨hp, hrest⟩ => ⟨t.handling.device, ⟨hp, rfl⟩, uses_of_turns hrest⟩

/-! ## One use -/

/-- What elements are told in a report is what the device sends, as the outcome has it, and then
arrivals and departures. -/
theorem news_of_process {d : Device K} {t : Turn σ K} (hd : d.disposed = false)
    (h : d.process t.limit t.surface t.report = .ok t.handling) :
    ∃ sent hovered, t.news = sent ++ hovered ∧
      d.Dispatched t.surface.toStage t.report t.handling.outcome sent ∧
      ∀ e ∈ hovered, e.event.payload = .enter ∨ e.event.payload = .leave := by
  obtain ⟨_, _, _, hsent, hfollow, he⟩ := phases_of_used hd h
  obtain ⟨sent, htold, hdispatched⟩ := dispatched_of_dispatch hsent
  obtain ⟨hovered, hmore, hcross⟩ := crosses_follow hfollow
  unfold Turn.news
  rw [he]
  exact ⟨sent, hovered, (htold.append hmore).drop_log, hdispatched, hcross⟩

omit [Host σ K] [DecidableEq K] in
theorem kind_eq_pressed_iff (payload : Payload) :
    payload.kind = .pressed ↔ payload.clicks? ≠ none := by
  cases payload <;> simp [Payload.kind, Payload.clicks?]

theorem sentCount_process {d : Device K} {t : Turn σ K} (hd : d.disposed = false)
    (h : d.process t.limit t.surface t.report = .ok t.handling) :
    (Use.process t).sentCount =
      (t.report.press? t.hit d.rule).map fun p => (d.clicks.press p.rule p.press).count := by
  obtain ⟨sent, hovered, hnews, hsent, -⟩ := news_of_process hd h
  have hcalled := hsent.called
  rw [← clicks?_message]
  show ite _ _ _ = (d.message (Host.hitTest t.surface.host t.report.position) t.report).bind _
  rw [← hcalled, hnews]
  cases sent with
  | nil =>
    have hnot : t.handling.outcome.kind ≠ some .pressed := by
      intro hkind
      refine hsent.routed_iff.2 ?_ rfl
      cases ho : t.handling.outcome with
      | routed kind target handled => exact ⟨kind, target, handled, rfl⟩
      | noTarget | left | stale =>
        rw [ho] at hkind
        cases hkind
    rw [if_neg hnot]
    rfl
  | cons e rest =>
    have hkind : t.handling.outcome.kind = some e.event.payload.kind :=
      (hsent.event e (List.mem_cons_self ..)).1
    simp only [hkind, Option.some.injEq, kind_eq_pressed_iff, List.cons_append, List.head?_cons,
      Option.map_some, Option.bind_some]
    split
    · rfl
    · rename_i hnone
      exact (Decidable.not_not.1 hnone).symm

theorem sentCount_of_pressed {d : Device K} {t : Turn σ K} (hd : d.disposed = false)
    (h : d.process t.limit t.surface t.report = .ok t.handling) {e : Delivery K}
    (he : e ∈ t.news) {button : Button} {clicks : Nat}
    (hpressed : e.event.payload = .pressed button clicks) :
    (Use.process t).sentCount = some clicks := by
  obtain ⟨sent, hovered, hnews, hsent, hcross⟩ := news_of_process hd h
  rw [hnews] at he
  rcases List.mem_append.1 he with he | he
  · -- the event is the same on its whole way up
    obtain ⟨first, rest, rfl⟩ := List.exists_cons_of_ne_nil (List.ne_nil_of_mem he)
    have hkind := (hsent.event e he).1
    have hfirst := hsent.same first (List.mem_cons_self ..) e he
    simp [Use.sentCount, hnews, hkind, hfirst, Event.kind, hpressed, Payload.kind,
      Payload.clicks?]
  · have hnone := Payload.clicks?_crossing (hcross e he)
    rw [hpressed] at hnone
    cases hnone

theorem crosses_sceneChanged {d : Device K} {limit : Nat} {s t : Surface σ K} {area : Rect}
    {changed : Bool} (h : d.sceneChanged limit s area = some (changed, t)) : s.Crosses t := by
  rcases sceneChanged_cases h with ⟨-, -, rfl⟩ | ⟨_, _, -, hhover, -⟩
  · exact ⟨[], rfl, by simp⟩
  · obtain ⟨ds, hds, hann, -⟩ := Surface.announces_hoverAt hhover
    exact ⟨ds, hds, hann.tellOf.crosses⟩

omit [Host σ K] in
theorem clicks_of_detach {d d' : Device K} {parentOf : K → Option K} {limit : Nat} {element : K}
    {formerParent : Option K} {changed : Bool}
    (h : d.detach parentOf limit element formerParent = some (changed, d')) :
    d'.clicks = d.clicks ∧ d'.inForce = d.inForce := by
  obtain ⟨⟨changed, pointer⟩, -, he⟩ := Option.map_eq_some_iff.1 h
  cases he
  exact ⟨rfl, rfl⟩

/-- A device that is no longer in use sends nothing and stays as it is. -/
theorem idle_of_process {d : Device K} {t : Turn σ K} (hd : d.disposed = true)
    (h : d.process t.limit t.surface t.report = .ok t.handling) :
    t.handling.device = d ∧ t.news = [] ∧ (Use.process t).sentCount = none := by
  rcases phases_of_process h with ⟨-, he⟩ | ⟨hlive, -⟩
  · have hnews : t.news = [] := by
      unfold Turn.news
      rw [he, List.drop_length]
    exact ⟨by rw [he], hnews, by simp [Use.sentCount, he, Outcome.kind]⟩
  · rw [hd] at hlive
    cases hlive

/-- A use adds the press it makes to the memory of the device. -/
theorem clicks_of_takes {d m : Device K} {u : Use σ K} (h : d.Takes u m) :
    m.clicks = d.clicks.pressAll (d.inForce.bind u.press?).toList ∧
      m.inForce = u.ruleAfter d.inForce := by
  cases u with
  | process t =>
    obtain ⟨hp, rfl⟩ := h
    rcases device_of_process hp with ⟨hd, he⟩ | ⟨hd, he⟩
    · rw [he, inForce_of_disposed hd]
      exact ⟨rfl, rfl⟩
    · obtain ⟨hrule, hlive⟩ := d.rule_next (Host.hitTest t.surface.host t.report.position) t.report
      rw [he, inForce_of_used (hlive.trans hd), inForce_of_used hd, hrule]
      exact ⟨d.clicks_next _ t.report, rfl⟩
  | sceneChanged _ _ _ _ _ =>
    obtain ⟨-, rfl⟩ := h
    cases m.inForce <;> exact ⟨rfl, rfl⟩
  | detach _ _ _ _ _ =>
    obtain ⟨hclicks, hforce⟩ := clicks_of_detach h
    rw [hclicks, hforce]
    cases d.inForce <;> exact ⟨rfl, rfl⟩
  | capture _ | disposePointer =>
    subst h
    show d.clicks = _ ∧ d.inForce = _
    cases d.inForce <;> exact ⟨rfl, rfl⟩
  | setRule rule =>
    subst h
    cases hd : d.disposed with
    | true =>
      rw [inForce_of_disposed hd]
      exact ⟨rfl, inForce_of_disposed hd⟩
    | false =>
      rw [inForce_of_used hd]
      exact ⟨rfl, inForce_of_used hd⟩
  | dispose =>
    subst h
    cases d.inForce <;> exact ⟨rfl, rfl⟩

/-- What a use sends is the count of the press it makes. -/
theorem sentCount_of_takes {d m : Device K} {u : Use σ K} (h : d.Takes u m) :
    u.sentCount = (d.inForce.bind u.press?).map fun p => (d.clicks.press p.rule p.press).count := by
  cases u with
  | process t =>
    cases hd : d.disposed with
    | true =>
      rw [(idle_of_process hd h.1).2.2, inForce_of_disposed hd]
      rfl
    | false =>
      rw [sentCount_process hd h.1, inForce_of_used hd]
      rfl
  | sceneChanged _ _ _ _ _ | detach _ _ _ _ _ | capture _ | setRule _ | disposePointer | dispose =>
    cases d.inForce <;> rfl

theorem counts_of_uses : ∀ {d d' : Device K} {uses : List (Use σ K)}, d.Uses uses d' →
    uses.filterMap Use.sentCount = d.clicks.counts (presses d.inForce uses) ∧
      d'.clicks = d.clicks.pressAll (presses d.inForce uses)
  | _, _, [], h => by cases h; exact ⟨rfl, rfl⟩
  | d, d', u :: uses, ⟨m, hm, hrest⟩ => by
    obtain ⟨hclicks, hrule⟩ := clicks_of_takes hm
    obtain ⟨hcounts, hall⟩ := counts_of_uses hrest
    rw [hclicks, hrule] at hcounts hall
    rw [presses, Clicks.counts_append, Clicks.pressAll_append, ← hcounts, List.filterMap_cons,
      sentCount_of_takes hm]
    refine ⟨?_, hall⟩
    cases d.inForce.bind u.press? <;> rfl

/-- No press is told of in a use but the one whose count is sent. -/
theorem pressed_of_takes {d m : Device K} {u : Use σ K} (h : d.Takes u m) {e : Delivery K}
    (he : e ∈ u.news) {button : Button} {n : Nat} (hpressed : e.event.payload = .pressed button n) :
    u.sentCount = some n := by
  cases u with
  | process t =>
    cases hd : d.disposed with
    | true =>
      rw [Use.news, (idle_of_process hd h.1).2.1] at he
      cases he
    | false => exact sentCount_of_pressed hd h.1 he hpressed
  | sceneChanged limit before area changed after =>
    obtain ⟨ds, hds, hcross⟩ := crosses_sceneChanged h.1
    rw [Use.news, hds.drop_log] at he
    have hnone := Payload.clicks?_crossing (hcross e he)
    rw [hpressed] at hnone
    cases hnone
  | detach _ _ _ _ _ | capture _ | setRule _ | disposePointer | dispose => cases he

theorem pressed_of_uses : ∀ {d d' : Device K} {uses : List (Use σ K)}, d.Uses uses d' →
    ∀ u ∈ uses, ∀ e ∈ u.news, ∀ button n, e.event.payload = .pressed button n →
      u.sentCount = some n
  | _, _, [], _, _, hu => by cases hu
  | _, _, u :: _, ⟨m, hm, hrest⟩, v, hv => by
    rcases List.mem_cons.1 hv with rfl | hv
    · intro e he button n hpressed
      exact pressed_of_takes hm he hpressed
    · exact pressed_of_uses hrest v hv

/-- Whatever is done with a new device, the presses it sends are, in order, the presses that are
made while it is in use, with the counts that a memory of nothing but these has of them, each under
the rule in force then. The memory of the device is that memory, and no element is told of any other
press. -/
theorem clicks_are_of_presses {id : DeviceId} {pointer : PointerIdentity} {rule : ClickRule}
    {uses : List (Use σ K)} {d : Device K} (h : (ofPointer id pointer rule).Uses uses d) :
    uses.filterMap Use.sentCount = Clicks.fresh.counts (presses (some rule) uses) ∧
      d.clicks = Clicks.after (presses (some rule) uses) ∧
      ∀ u ∈ uses, ∀ e ∈ u.news, ∀ button n, e.event.payload = .pressed button n →
        u.sentCount = some n := by
  obtain ⟨hcounts, hclicks⟩ := counts_of_uses h
  exact ⟨hcounts, hclicks, pressed_of_uses h⟩

/-- Left goes down over an element, right goes down and up beside it, and left goes up. Then left
goes down over nothing, and later over the element again: that is the second press of a run. The one
after the device is disposed of is none. -/
theorem chord_breaks_no_run :
    let d : Device Nat := .ofPointer ⟨1⟩ ⟨⟨1, Nat.one_pos⟩, .mouse, true⟩ .standard
    ∃ (uses : List (Use (Scene Nat) Nat)) (d' : Device Nat), d.Uses uses d' ∧
      presses (some .standard) uses =
        [⟨.standard, ⟨100, ⟨3, 4⟩, .left⟩⟩, ⟨.standard, ⟨600, ⟨1, 4⟩, .left⟩⟩] ∧
      uses.filterMap Use.sentCount = [1, 2] ∧ d'.clicks.count = 2 := by
  intro d
  let showing (n : Option Nat) : Surface (Scene Nat) Nat :=
    { host := { root := ⟨1⟩, backdrop := n } }
  let report (kind : ReportKind) (bits : UInt8) (time : Nat) (x : Float) : Report :=
    { kind, device := ⟨1⟩, root := ⟨1⟩, time, position := ⟨x, 4⟩, buttons := ⟨bits⟩ }
  let reports :=
    [(showing (some 5), report (.down .left) 1 100 3),
      (showing (some 5), report (.down .right) 5 150 3),
      (showing (some 5), report (.up .right) 1 160 3),
      (showing (some 5), report (.up .left) 0 200 3),
      (showing none, report (.down .left) 1 300 90), (showing none, report (.up .left) 0 350 90),
      (showing (some 5), report (.down .left) 1 600 1)]
  obtain ⟨⟨turns, m⟩, hrun⟩ := Option.isSome_iff_exists.1
    (by decide +kernel : (d.turnsOver 1 reports).isSome = true)
  obtain ⟨ht, hmap⟩ := turns_turnsOver hrun
  let late : Turn (Scene Nat) Nat :=
    { limit := 1, surface := showing (some 5), report := report (.down .left) 1 620 1
      handling := ⟨.stale, m.dispose, showing (some 5)⟩ }
  have huses : d.Uses (turns.map .process ++ [.dispose, .process late]) m.dispose :=
    uses_append.2 ⟨m, uses_of_turns ht, m.dispose, rfl, m.dispose, ⟨rfl, rfl⟩, rfl⟩
  have hmade : turns.filterMap (fun t => t.report.press? t.hit .standard) =
      [⟨.standard, ⟨100, ⟨3, 4⟩, .left⟩⟩, ⟨.standard, ⟨600, ⟨1, 4⟩, .left⟩⟩] := by
    have hreports : reports.filterMap
        (fun x => x.2.press? (Host.hitTest x.1.host x.2.position) .standard) =
          [⟨.standard, ⟨100, ⟨3, 4⟩, .left⟩⟩, ⟨.standard, ⟨600, ⟨1, 4⟩, .left⟩⟩] := by
      decide +kernel
    rw [← hreports, ← hmap, List.filterMap_map]
    rfl
  have hpresses : presses (some .standard) (turns.map .process ++ [.dispose, .process late]) =
      [⟨.standard, ⟨100, ⟨3, 4⟩, .left⟩⟩, ⟨.standard, ⟨600, ⟨1, 4⟩, .left⟩⟩] := by
    rw [presses_turns, hmade]
    rfl
  obtain ⟨hcounts, hclicks, -⟩ := clicks_are_of_presses huses
  rw [hpresses] at hcounts hclicks
  refine ⟨_, _, huses, hpresses, hcounts.trans ?_, (congrArg Clicks.count hclicks).trans ?_⟩
  · decide +kernel
  · decide +kernel

/-! ## The press before -/

/-- Nothing that is done without sending a press changes the memory of a device. -/
theorem clicks_of_unsent {d d' : Device K} {uses : List (Use σ K)} (h : d.Uses uses d')
    (hnone : ∀ u ∈ uses, u.sentCount = none) : d'.clicks = d.clicks := by
  obtain ⟨hcounts, hclicks⟩ := counts_of_uses h
  rw [List.filterMap_eq_nil_iff.2 hnone] at hcounts
  cases hpresses : presses d.inForce uses with
  | nil => rw [hclicks, hpresses]; rfl
  | cons p rest =>
    rw [hpresses] at hcounts
    cases hcounts

/-- What is known of a report with which a press is sent. -/
theorem press_of_sent {d m : Device K} {t : Turn σ K} (h : d.Takes (.process t) m) {n : Nat}
    (hn : (Use.process t).sentCount = some n) :
    ∃ button, n = (d.clicks.press d.rule ⟨t.report.time, t.report.position, button⟩).count ∧
      m.clicks = d.clicks.press d.rule ⟨t.report.time, t.report.position, button⟩ := by
  have hclicks := (clicks_of_takes h).1
  rw [sentCount_of_takes h] at hn
  obtain ⟨p, hp, hcount⟩ := Option.map_eq_some_iff.1 hn
  obtain ⟨rule, hrule, hpress⟩ := Option.bind_eq_some_iff.1 hp
  obtain rfl : d.rule = rule := rule_of_inForce hrule
  obtain ⟨button, rfl⟩ := Report.press_of_press? hpress
  rw [hp] at hclicks
  exact ⟨button, hcount.symm, hclicks⟩

/-- A press is counted against the last one sent before it, whatever was done in between: it is one
more in its run if it falls in the rectangle around the place of that press, by the rule then, and
comes within the interval in force now. In which roots the two places are does not matter. -/
theorem count_after_press {d m m' d' : Device K} {t t' : Turn σ K} {between : List (Use σ K)}
    {n n' : Nat} (ht : d.Takes (.process t) m) (hn : (Use.process t).sentCount = some n)
    (hb : m.Uses between m') (hnone : ∀ u ∈ between, u.sentCount = none)
    (ht' : m'.Takes (.process t') d') (hn' : (Use.process t').sentCount = some n') :
    n' = if (Rect.around t.report.position d.rule.area).covers t'.report.position = true ∧
        t'.report.time - t.report.time ≤ m'.rule.interval then min (n + 1) (2 ^ 32 - 1) else 1 := by
  obtain ⟨button, hfirst, hclicks⟩ := press_of_sent ht hn
  obtain ⟨button', hsecond, -⟩ := press_of_sent ht' hn'
  rw [hsecond, clicks_of_unsent hb hnone, hclicks, hfirst]
  exact d.clicks.count_press_press ⟨d.rule, _⟩ ⟨m'.rule, _⟩

/-- Left goes down and up in one root, and down again at the same place of another root. -/
theorem press_in_two_roots_turns :
    let d : Device Nat := .ofPointer ⟨1⟩ ⟨⟨1, Nat.one_pos⟩, .mouse, true⟩ .standard
    ∃ (first up second : Turn (Scene Nat) Nat) (d' : Device Nat), d.Turns [first, up, second] d' ∧
      (Use.process first).sentCount = some 1 ∧ (Use.process up).sentCount = none ∧
      (Use.process second).sentCount = some 2 ∧
      first.report.root = ⟨1⟩ ∧ second.report.root = ⟨2⟩ := by
  intro d
  let showing (root : RootId) (n : Nat) : Surface (Scene Nat) Nat :=
    { host := { root, backdrop := some n } }
  let report (kind : ReportKind) (root : RootId) (time : Nat) (bits : UInt8) : Report :=
    { kind, device := ⟨1⟩, root, time, position := ⟨1, 2⟩, buttons := ⟨bits⟩ }
  let reports :=
    [(showing ⟨1⟩ 5, report (.down .left) ⟨1⟩ 0 1), (showing ⟨1⟩ 5, report (.up .left) ⟨1⟩ 50 0),
      (showing ⟨2⟩ 7, report (.down .left) ⟨2⟩ 100 1)]
  have hcounts : ((d.turnsOver 1 reports).map fun x => x.1.map fun t =>
      (Use.process t).sentCount) = some [some 1, none, some 2] := by decide +kernel
  obtain ⟨⟨turns, d'⟩, hrun, hsent⟩ := Option.map_eq_some_iff.1 hcounts
  obtain ⟨ht, hmap⟩ := turns_turnsOver hrun
  obtain ⟨first, turns, rfl, h1, hmap⟩ := List.map_eq_cons_iff.1 hmap
  obtain ⟨up, turns, rfl, -, hmap⟩ := List.map_eq_cons_iff.1 hmap
  obtain ⟨second, turns, rfl, h3, hmap⟩ := List.map_eq_cons_iff.1 hmap
  obtain rfl := List.map_eq_nil_iff.1 hmap
  simp only [Prod.mk.injEq] at h1 h3
  simp only [List.map_cons, List.map_nil, List.cons.injEq, and_true] at hsent
  obtain ⟨hfirst, hup, hsecond⟩ := hsent
  refine ⟨first, up, second, d', ht, hfirst, hup, hsecond, ?_, ?_⟩
  · rw [h1.2]
  · rw [h3.2]

/-- A press in another root is near enough to be the second of a run. -/
theorem second_press_in_other_root :
    let d : Device Nat := .ofPointer ⟨1⟩ ⟨⟨1, Nat.one_pos⟩, .mouse, true⟩ .standard
    ∃ (first up second : Turn (Scene Nat) Nat) (m m' d' : Device Nat),
      d.Takes (.process first) m ∧ (Use.process first).sentCount = some 1 ∧
      m.Uses [.process up] m' ∧ (Use.process up).sentCount = none ∧
      m'.Takes (.process second) d' ∧ (Use.process second).sentCount = some 2 ∧
      first.report.root ≠ second.report.root ∧
      (Rect.around first.report.position d.rule.area).covers second.report.position = true ∧
      second.report.time - first.report.time ≤ m'.rule.interval := by
  intro d
  obtain ⟨first, up, second, d', ht, hfirst, hup, hsecond, hroot, hother⟩ :=
    press_in_two_roots_turns
  obtain ⟨h1, h2, h3, rfl⟩ := ht
  have hnone : ∀ u ∈ [Use.process up], u.sentCount = none := by
    intro u hu
    rw [List.mem_singleton.1 hu]
    exact hup
  have hb : first.handling.device.Uses [.process up] up.handling.device := ⟨_, ⟨h2, rfl⟩, rfl⟩
  have hcount := count_after_press ⟨h1, rfl⟩ hfirst hb hnone ⟨h3, rfl⟩ hsecond
  split at hcount
  · rename_i hnear
    refine ⟨first, up, second, _, _, _, ⟨h1, rfl⟩, hfirst, hb, hup, ⟨h3, rfl⟩, hsecond, ?_, hnear⟩
    rw [hroot, hother]
    decide
  · cases hcount

/-- So a press can count for more than one although the one before was in another root. -/
theorem not_single_in_other_root : ¬ ∀ (d m m' d' : Device Nat) (t t' : Turn (Scene Nat) Nat)
    (between : List (Use (Scene Nat) Nat)) (n n' : Nat), d.Live →
    d.Takes (.process t) m → (Use.process t).sentCount = some n →
    m.Uses between m' → (∀ u ∈ between, u.sentCount = none) →
    m'.Takes (.process t') d' → (Use.process t').sentCount = some n' →
    t.report.root ≠ t'.report.root → n' = 1 := by
  intro hsingle
  obtain ⟨first, up, second, d', ht, hfirst, hup, hsecond, hroot, hother⟩ :=
    press_in_two_roots_turns
  obtain ⟨h1, h2, h3, rfl⟩ := ht
  have hone := hsingle _ _ _ _ first second [.process up] 1 2 ⟨rfl, rfl⟩ ⟨h1, rfl⟩ hfirst
    ⟨_, ⟨h2, rfl⟩, rfl⟩ (by simpa using hup) ⟨h3, rfl⟩ hsecond (by rw [hroot, hother]; decide)
  cases hone

end

end Device

end PointerRouting
