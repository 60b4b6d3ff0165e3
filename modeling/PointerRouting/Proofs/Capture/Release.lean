/-
Which button a release names. A release that ends a hold names the last button whose press was
counted, and a press is counted where it hits something (`Turn.counted`). So it names the button
that began the hold if that press hit something. If it hit nothing, the release names the last
button that was pressed over something before the hold, or the one that goes up if there was none.
-/
import PointerRouting.Proofs.Capture.Hold
import PointerRouting.Proofs.Device.Account

namespace PointerRouting

variable {σ K : Type} [Host σ K]

/-! ## What a turn tells and counts -/

omit [Host σ K] in
/-- The button of a press that hits something. -/
def Report.counted (r : Report) (hit : Option K) : Option Button :=
  match r.action, hit with
  | .press button, some _ => some button
  | _, _ => none

namespace Turn

/-- The deliveries that a turn adds to the record. -/
def news (t : Turn σ K) : List (Delivery K) :=
  t.handling.surface.log.drop t.surface.log.length

/-- The button that a turn counts as pressed. -/
def counted (t : Turn σ K) : Option Button := t.report.counted t.hit

end Turn

/-- The button of the last press that hit something in some turns, or else the one before. -/
def lastCounted (before : Option Button) (turns : List (Turn σ K)) : Option Button :=
  turns.foldl (fun button t => t.counted.or button) before

theorem lastCounted_append (before : Option Button) (turns more : List (Turn σ K)) :
    lastCounted before (turns ++ more) = lastCounted (lastCounted before turns) more :=
  List.foldl_append

theorem lastCounted_of_none {before : Option Button} : ∀ {turns : List (Turn σ K)},
    (∀ t ∈ turns, t.counted = none) → lastCounted before turns = before
  | [], _ => rfl
  | t :: turns, h => by
    obtain ⟨ht, hturns⟩ := List.forall_mem_cons.1 h
    show lastCounted (t.counted.or before) turns = before
    rw [ht]
    exact lastCounted_of_none hturns

variable [DecidableEq K]

namespace Surface

/-- The surface `a` becomes `b` by telling elements of nothing but arrivals and departures. -/
def Crosses (a b : Surface σ K) : Prop :=
  ∃ ds, a.Told ds b.toStage ∧ ∀ e ∈ ds, e.event.payload = .enter ∨ e.event.payload = .leave

end Surface

namespace Device

theorem crosses_follow {d : Device K} {limit : Nat} {a b : Surface σ K} {hit : Option K}
    {r : Report} (h : d.follow limit a hit r = some b) : a.Crosses b := by
  obtain ⟨ds, hds, hfollowed⟩ := followed_of_follow h
  exact ⟨ds, hds, hfollowed.tellOf.crosses⟩

/-- What is told in a report is what the report has the device send, and then arrivals and
departures. -/
theorem told_process {d : Device K} {limit : Nat} {s : Surface σ K} {r : Report}
    {handling : Handling σ K} (h : d.process limit s r = .ok handling) :
    ∃ ds, s.Told ds handling.surface.toStage ∧ ∀ e ∈ ds,
      (∃ target, d.message (Host.hitTest s.host r.position) r = some (e.event.payload, target)) ∨
        e.event.payload = .enter ∨ e.event.payload = .leave := by
  rcases phases_of_process h with ⟨-, rfl⟩ | ⟨-, -, outcome, stage, surface, hsent, hfollow, rfl⟩
  · exact ⟨[], rfl, by simp⟩
  obtain ⟨es, hes, hcross⟩ := crosses_follow hfollow
  rcases dispatch_cases hsent with ⟨-, -, rfl⟩ | ⟨payload, target, response, hm, hbubble, -⟩
  · exact ⟨es, hes, fun e he => .inr (hcross e he)⟩
  · obtain ⟨ds, hds, hevent⟩ := Stage.told_bubble hbubble
    refine ⟨ds ++ es, hds.append hes, fun e he => ?_⟩
    rcases List.mem_append.1 he with he | he
    · refine .inl ⟨target, ?_⟩
      rw [hm, hevent e he]
      rfl
    · exact .inr (hcross e he)

omit [Host σ K] [DecidableEq K] in
theorem release_of_message {d : Device K} {hit : Option K} {r : Report} {named : Button}
    {target : K} (h : d.message hit r = some (.released named, target)) :
    ∃ last, r.action = .release last ∧ named = d.clicks.button.getD last := by
  unfold message at h
  cases ha : r.action with
  | release last =>
    rw [ha] at h
    obtain ⟨_, -, he⟩ := Option.map_eq_some_iff.1 h
    cases he
    exact ⟨last, rfl, rfl⟩
  | send payload =>
    rw [ha] at h
    obtain ⟨_, -, he⟩ := Option.map_eq_some_iff.1 h
    cases he
    have hkind := kind_of_send ha
    simp [Payload.kind] at hkind
  | press _ | move =>
    rw [ha] at h
    obtain ⟨_, -, he⟩ := Option.map_eq_some_iff.1 h
    cases he
  | leave =>
    rw [ha] at h
    cases h

/-- A release that elements are told of is what the report has the device send. -/
theorem release_of_process {d : Device K} {limit : Nat} {s : Surface σ K} {r : Report}
    {handling : Handling σ K} (h : d.process limit s r = .ok handling) {e : Delivery K}
    (he : e ∈ handling.surface.log.drop s.log.length) {named : Button}
    (hnamed : e.event.payload = .released named) :
    ∃ last, r.action = .release last ∧ named = d.clicks.button.getD last := by
  obtain ⟨ds, hds, hevents⟩ := told_process h
  rw [hds.drop_log] at he
  -- a release is neither an arrival nor a departure
  rcases hevents e he with ⟨target, hsent⟩ | henter | hleave
  · rw [hnamed] at hsent
    exact release_of_message hsent
  · rw [hnamed] at henter
    cases henter
  · rw [hnamed] at hleave
    cases hleave

omit [Host σ K] [DecidableEq K] in
theorem button_next (d : Device K) (hit : Option K) (r : Report) :
    (d.next hit r).clicks.button = (r.counted hit).or d.clicks.button := by
  unfold next Report.counted
  cases r.action with
  | press button => cases hit <;> rfl
  | release _ | move | send _ | leave => rfl

/-- The button remembered after some turns is the last one counted. -/
theorem button_of_turns : ∀ {d d' : Device K} {turns : List (Turn σ K)}, d.Live →
    d.Turns turns d' → d'.clicks.button = lastCounted d.clicks.button turns
  | d, _, [], _, h => by cases h; rfl
  | d, d', t :: turns, hd, ⟨hp, hrest⟩ => by
    have hlive := (captured_of_process hd hp).2
    rw [button_of_turns hlive hrest, device_of_used hd.1 hp, button_next]
    rfl

end Device

/-! ## The button of a release -/

omit [Host σ K] [DecidableEq K] in
theorem Hold.neutral_of_mem {before during : List (Turn σ K)} {opening t : Turn σ K}
    (h : Hold before opening during) {held : Buttons}
    (hw : heldAfter (before ++ opening :: during) = some held) (ht : t ∈ during) :
    t.report.action.Neutral := by
  obtain ⟨first, last, rfl⟩ := List.append_of_mem ht
  have hsplit : before ++ opening :: (first ++ t :: last) =
      (before ++ opening :: (first ++ [t])) ++ last := by simp
  rw [hsplit] at hw
  obtain ⟨held', hw⟩ := heldAfter_of_append hw
  exact (h.part ⟨last, by simp⟩).neutral hw

omit [DecidableEq K] in
/-- Within a hold nothing is counted but perhaps the press that begins it. -/
theorem Hold.lastCounted_eq {before during : List (Turn σ K)} {opening : Turn σ K}
    (h : Hold before opening during) {held : Buttons}
    (hw : heldAfter (before ++ opening :: during) = some held) (start : Option Button) :
    lastCounted start (before ++ opening :: during) =
      opening.counted.or (lastCounted start before) := by
  have hduring : ∀ t ∈ during, t.counted = none := by
    intro t ht
    have hn := h.neutral_of_mem hw ht
    unfold Turn.counted Report.counted
    split
    · rename_i button _ ha _
      exact absurd ha (hn button).1
    · rfl
  rw [lastCounted_append]
  exact lastCounted_of_none hduring

/-- A live device processes reports whose button changes fit together. Every release it sends ends
a hold. The release names the button that began the hold if that was pressed over something. If it
was pressed over nothing, the release names the last button that was pressed over something before
the hold, or the one that goes up if there is none. -/
theorem release_names_last_counted {d d' : Device K} (hd : d.Live) {turns rest : List (Turn σ K)}
    {t : Turn σ K} (h : d.Turns (turns ++ t :: rest) d') {held : Buttons}
    (hw : heldAfter (turns ++ t :: rest) = some held) {e : Delivery K} (he : e ∈ t.news)
    {named : Button} (hnamed : e.event.payload = .released named) :
    ∃ before opening during first last, turns = before ++ opening :: during ∧
      Hold before opening during ∧ heldAfter (turns ++ [t]) = some Flags.empty ∧
      opening.report.action = .press first ∧ t.report.action = .release last ∧
      (opening.hit ≠ none → named = first) ∧
      (opening.hit = none → named = (lastCounted d.clicks.button before).getD last) := by
  rw [List.append_cons] at h hw
  obtain ⟨m', hm', -⟩ := Device.turns_append.1 h
  obtain ⟨m, hm, hp, rfl⟩ := Device.turns_snoc.1 hm'
  obtain ⟨after, hafter⟩ := heldAfter_of_append hw
  obtain ⟨holding, hholding, hfollow⟩ := heldAfter_snoc_some hafter
  obtain ⟨last, ha, hname⟩ := Device.release_of_process hp he hnamed
  -- of the three kinds of actions only the third, which lets go of all buttons, is a release
  rcases action_of_follow hfollow with ⟨hn, -⟩ | ⟨b, hb, -, -⟩ | ⟨b, -, hne, hempty⟩
  · exact absurd ha (hn last).2
  · rw [hb] at ha
    cases ha
  subst hempty
  obtain ⟨before, opening, during, rfl, hhold⟩ := exists_hold turns hholding hne
  obtain ⟨first, hfirst⟩ := hhold.press hholding
  have hcounted : opening.counted = opening.hit.map fun _ => first := by
    unfold Turn.counted Report.counted
    rw [hfirst]
    cases opening.hit <;> rfl
  rw [Device.button_of_turns hd hm, hhold.lastCounted_eq hholding, hcounted] at hname
  refine ⟨before, opening, during, first, last, rfl, hhold, hafter, hfirst, ha, ?_, ?_⟩
  · intro hhit
    obtain ⟨x, hx⟩ := Option.ne_none_iff_exists'.1 hhit
    rw [hx] at hname
    exact hname
  · intro hmiss
    rw [hmiss] at hname
    exact hname

/-- Left goes down and up over an element, then right goes down over nothing and up over the element
again: what is sent, turn by turn. -/
theorem missed_press_turns :
    let d : Device Nat := .ofPointer ⟨1⟩ ⟨⟨1, Nat.one_pos⟩, .mouse, true⟩ .standard
    ∃ (first second opening closing : Turn (Scene Nat) Nat) (d' : Device Nat),
      d.Turns [first, second, opening, closing] d' ∧
      heldAfter [first, second, opening, closing] = some Flags.empty ∧
      Hold [first, second] opening [] ∧ opening.report.action = .press .right ∧
      ∃ e ∈ closing.news, e.event.payload = .released .left := by
  intro d
  let showing (n : Option Nat) : Surface (Scene Nat) Nat :=
    { host := { root := ⟨1⟩, backdrop := n } }
  let report (kind : ReportKind) (bits : UInt8) : Report :=
    { kind, device := ⟨1⟩, root := ⟨1⟩, time := 0, position := ⟨0, 0⟩, buttons := ⟨bits⟩ }
  let reports :=
    [(showing (some 5), report (.down .left) 1), (showing (some 5), report (.up .left) 0),
      (showing none, report (.down .right) 4), (showing (some 5), report (.up .right) 0)]
  obtain ⟨⟨turns, d'⟩, hrun⟩ := Option.isSome_iff_exists.1
    (by decide +kernel : (d.turnsOver 1 reports).isSome = true)
  have hnews : ((d.turnsOver 1 reports).map fun x => x.1.map fun t =>
      t.news.map (·.event.payload)) =
        some [[.pressed .left 1], [.released .left], [], [.released .left]] := by
    decide +kernel
  obtain ⟨ht, hmap⟩ := Device.turns_turnsOver hrun
  obtain ⟨first, turns, rfl, h1, hmap⟩ := List.map_eq_cons_iff.1 hmap
  obtain ⟨second, turns, rfl, h2, hmap⟩ := List.map_eq_cons_iff.1 hmap
  obtain ⟨opening, turns, rfl, h3, hmap⟩ := List.map_eq_cons_iff.1 hmap
  obtain ⟨closing, turns, rfl, h4, hmap⟩ := List.map_eq_cons_iff.1 hmap
  obtain rfl := List.map_eq_nil_iff.1 hmap
  simp only [Prod.mk.injEq] at h1 h2 h3 h4
  have hfold : ∀ ts : List (Turn (Scene Nat) Nat), heldAfter ts =
      (ts.map fun t => t.report).foldlM (fun held r => r.follow held) Flags.empty := fun ts => by
    rw [List.foldlM_map]
    rfl
  have hhold : Hold [first, second] opening [] := by
    constructor
    · rw [hfold]
      simp only [List.map_cons, List.map_nil, h1.2, h2.2]
      decide
    · intro part hp
      rw [List.prefix_nil.1 hp, hfold]
      simp only [List.cons_append, List.nil_append, List.map_cons, List.map_nil, h1.2, h2.2, h3.2]
      decide
  refine ⟨first, second, opening, closing, d', ht, ?_, hhold, ?_, ?_⟩
  · rw [hfold]
    simp only [List.map_cons, List.map_nil, h1.2, h2.2, h3.2, h4.2]
    decide
  · rw [h3.2]
    decide
  · rw [hrun] at hnews
    simp only [Option.map_some, Option.some.injEq, List.map_cons, List.map_nil, List.cons.injEq,
      and_true] at hnews
    obtain ⟨e, he, hpayload⟩ := List.mem_map.1 (hnews.2.2.2 ▸ List.mem_singleton.2 rfl)
    exact ⟨e, he, hpayload⟩

/-- The release after a press over nothing names the button of the hold before. -/
theorem left_named_after_right :
    let d : Device Nat := .ofPointer ⟨1⟩ ⟨⟨1, Nat.one_pos⟩, .mouse, true⟩ .standard
    d.Live ∧ ∃ (turns : List (Turn (Scene Nat) Nat)) (t : Turn (Scene Nat) Nat) (d' : Device Nat),
      d.Turns (turns ++ [t]) d' ∧ heldAfter (turns ++ [t]) = some Flags.empty ∧
      ∃ e ∈ t.news, e.event.payload = .released .left ∧
      ∃ before opening during first last, turns = before ++ opening :: during ∧
        Hold before opening during ∧ opening.report.action = .press first ∧
        t.report.action = .release last ∧ (opening.hit ≠ none → .left = first) ∧
        (opening.hit = none → .left = (lastCounted none before).getD last) := by
  intro d
  obtain ⟨first, second, opening, closing, d', ht, hw, -, -, e, he, hnamed⟩ := missed_press_turns
  have ht : d.Turns ([first, second, opening] ++ closing :: []) d' := ht
  obtain ⟨before, opening', during, pressed, last, hsplit, hhold, -, hpress, hrelease, hhit,
    hmiss⟩ := release_names_last_counted ⟨rfl, rfl⟩ ht hw he hnamed
  exact ⟨⟨rfl, rfl⟩, [first, second, opening], closing, d', ht, hw, e, he, hnamed, before, opening',
    during, pressed, last, hsplit, hhold, hpress, hrelease, hhit, hmiss⟩

/-- So a release does not always name the button that began the hold it ends. -/
theorem not_released_as_pressed : ¬ ∀ (d d' : Device Nat)
    (before during : List (Turn (Scene Nat) Nat)) (opening closing : Turn (Scene Nat) Nat)
    (pressed named : Button) (e : Delivery Nat), d.Live →
    d.Turns (before ++ opening :: (during ++ [closing])) d' →
    heldAfter (before ++ opening :: (during ++ [closing])) = some Flags.empty →
    Hold before opening during → opening.report.action = .press pressed →
    e ∈ closing.news → e.event.payload = .released named → named = pressed := by
  intro hpressed
  obtain ⟨first, second, opening, closing, d', ht, hw, hhold, hpress, e, he, hnamed⟩ :=
    missed_press_turns
  have hsame := hpressed _ d' [first, second] [] opening closing .right .left e ⟨rfl, rfl⟩ ht hw
    hhold hpress he hnamed
  cases hsame

end PointerRouting
