/-
Drags. A hold lasts from the report with which the first button goes down to the one with which
the last button goes up. On a live device that nobody has captured, under any run of reports whose
button changes fit together, the pointer belongs throughout a hold to the element that its first
press hit, and to nobody between holds. So the first press, the last release and all that is sent
in between go to that element, wherever the pointer is by then, and there is no second press or
release within a hold.

A report that fits the buttons held before it presses exactly when nothing was held before it and
releases exactly when nothing is held after it (`action_of_follow`); the rest is one induction on
the run for the time between holds and one for the time within.
-/
import PointerRouting.Proofs.Device.Process
import PointerRouting.Scene
import Mathlib.Data.List.Induction

namespace PointerRouting

/-! ## Counting buttons -/

theorem forall_buttons {P : Buttons → Prop} (h : ∀ i : Fin 256, P ⟨UInt8.ofNat i⟩) (s : Buttons) :
    P s := by
  have hs := h ⟨s.bits.toNat, s.bits.toNat_lt⟩
  rw [show UInt8.ofNat s.bits.toNat = s.bits from UInt8.ofNat_toNat] at hs
  exact hs

theorem count_eq_zero_iff (s : Buttons) : s.count = 0 ↔ s = Flags.empty :=
  forall_buttons (P := fun s => s.count = 0 ↔ s = Flags.empty) (by decide +kernel) s

theorem count_union_flag (s : Buttons) (b : Button) (h : s.holds b = false) :
    (s.union b.flag).count = s.count + 1 := by
  revert h
  refine forall_buttons
    (P := fun s => s.holds b = false → (s.union b.flag).count = s.count + 1) ?_ s
  cases b <;> decide +kernel

theorem holds_empty (b : Button) : (Flags.empty : Buttons).holds b = false := by
  cases b <;> rfl

/-! ## Reports that fit together -/

/-- The buttons held after a report, if it fits the buttons held before it: a button that goes down
was not held and is held now, one that goes up was held and is not now. -/
def Report.follow (held : Buttons) (r : Report) : Option Buttons :=
  match r.kind with
  | .down b => if held.holds b = false ∧ r.buttons = held.union b.flag then some r.buttons else none
  | .up b => if held.holds b = true ∧ r.buttons = held.diff b.flag then some r.buttons else none
  | _ => some held

/-- The action neither begins nor ends a hold. -/
def Action.Neutral (a : Action) : Prop := ∀ b, a ≠ .press b ∧ a ≠ .release b

theorem follow_down {held held' : Buttons} {r : Report} {b : Button} (hk : r.kind = .down b)
    (h : r.follow held = some held') :
    held' ≠ Flags.empty ∧ r.action = if held = Flags.empty then .press b else .move := by
  unfold Report.follow at h
  rw [hk] at h
  dsimp only at h
  split at h
  · rename_i hfit
    cases h
    have hcount := count_union_flag held b hfit.1
    rw [← hfit.2] at hcount
    have hne : r.buttons ≠ Flags.empty := fun he => by
      rw [(count_eq_zero_iff r.buttons).2 he] at hcount
      omega
    refine ⟨hne, ?_⟩
    by_cases he : held = Flags.empty
    · rw [(count_eq_zero_iff held).2 he] at hcount
      simp [Report.action, hk, hcount, he]
    · have hpos : 1 < r.buttons.count := by
        have := mt (count_eq_zero_iff held).1 he
        omega
      simp [Report.action, hk, hpos, he]
  · cases h

theorem follow_up {held held' : Buttons} {r : Report} {b : Button} (hk : r.kind = .up b)
    (h : r.follow held = some held') :
    held ≠ Flags.empty ∧ r.action = if held' = Flags.empty then .release b else .move := by
  unfold Report.follow at h
  rw [hk] at h
  dsimp only at h
  split at h
  · rename_i hfit
    cases h
    refine ⟨fun he => ?_, ?_⟩
    · rw [he, holds_empty] at hfit
      cases hfit.1
    · simp [Report.action, hk, count_eq_zero_iff]
  · cases h

/-- A report that fits is neutral, or begins a hold, or ends one. -/
theorem action_of_follow {held held' : Buttons} {r : Report} (h : r.follow held = some held') :
    (r.action.Neutral ∧ (held = Flags.empty ↔ held' = Flags.empty)) ∨
      (∃ b, r.action = .press b ∧ held = Flags.empty ∧ held' ≠ Flags.empty) ∨
      (∃ b, r.action = .release b ∧ held ≠ Flags.empty ∧ held' = Flags.empty) := by
  cases hk : r.kind with
  | down b =>
    obtain ⟨hne, ha⟩ := follow_down hk h
    by_cases he : held = Flags.empty
    · exact .inr (.inl ⟨b, by rw [ha, if_pos he], he, hne⟩)
    · rw [if_neg he] at ha
      exact .inl ⟨fun b' => by simp [ha], by simp [he, hne]⟩
  | up b =>
    obtain ⟨hne, ha⟩ := follow_up hk h
    by_cases he : held' = Flags.empty
    · exact .inr (.inr ⟨b, by rw [ha, if_pos he], hne, he⟩)
    · rw [if_neg he] at ha
      exact .inl ⟨fun b' => by simp [ha], by simp [he, hne]⟩
  | move | wheel | magnify | rotate | swipe | leave | frameDown =>
    -- the buttons held are unrestricted here, and nothing but a button begins or ends a hold
    unfold Report.follow at h
    rw [hk] at h
    cases h
    exact .inl ⟨fun b => by simp [Report.action, hk], Iff.rfl⟩

/-! ## Holds -/

variable {σ K : Type}

/-- The buttons held after some turns that began with none held, if the reports fit together. -/
def heldAfter (turns : List (Turn σ K)) : Option Buttons :=
  turns.foldlM (fun held t => t.report.follow held) Flags.empty

theorem heldAfter_snoc (turns : List (Turn σ K)) (t : Turn σ K) :
    heldAfter (turns ++ [t]) = (heldAfter turns).bind t.report.follow := by
  simp [heldAfter, List.foldlM_append]

theorem heldAfter_snoc_some {turns : List (Turn σ K)} {t : Turn σ K} {held : Buttons}
    (h : heldAfter (turns ++ [t]) = some held) :
    ∃ before, heldAfter turns = some before ∧ t.report.follow before = some held := by
  rw [heldAfter_snoc] at h
  exact Option.bind_eq_some_iff.1 h

theorem heldAfter_of_append {turns more : List (Turn σ K)} {held : Buttons}
    (h : heldAfter (turns ++ more) = some held) : ∃ before, heldAfter turns = some before := by
  unfold heldAfter at h ⊢
  rw [List.foldlM_append] at h
  obtain ⟨before, hb, -⟩ := Option.bind_eq_some_iff.1 h
  exact ⟨before, hb⟩

/-- The turn `opening` begins a hold that goes on through `during`: nothing is held before it, and
something is held from then on. -/
structure Hold (before : List (Turn σ K)) (opening : Turn σ K) (during : List (Turn σ K)) :
    Prop where
  free : heldAfter before = some Flags.empty
  held : ∀ part, part <+: during → heldAfter (before ++ opening :: part) ≠ some Flags.empty

theorem Hold.part {before during part : List (Turn σ K)} {opening : Turn σ K}
    (h : Hold before opening during) (hp : part <+: during) : Hold before opening part :=
  ⟨h.free, fun q hq => h.held q (hq.trans hp)⟩

/-- Whenever something is held, a hold is going on. -/
theorem exists_hold (turns : List (Turn σ K)) : ∀ {held : Buttons},
    heldAfter turns = some held → held ≠ Flags.empty →
      ∃ before opening during, turns = before ++ opening :: during ∧
        Hold before opening during := by
  induction turns using List.reverseRecOn with
  | nil => intro held h hne; cases h; exact absurd rfl hne
  | append_singleton turns t ih =>
    intro held h hne
    obtain ⟨last, hlast, hfollow⟩ := heldAfter_snoc_some h
    -- either the last turn begins the hold, or the hold that was going on goes on
    by_cases he : last = Flags.empty
    · subst he
      refine ⟨turns, t, [], rfl, hlast, fun part hp => ?_⟩
      rw [List.prefix_nil.1 hp, h]
      exact fun he => hne (Option.some.inj he)
    · obtain ⟨before, opening, during, rfl, hh⟩ := ih hlast he
      refine ⟨before, opening, during ++ [t], by simp, hh.free, fun part hp => ?_⟩
      rcases List.prefix_concat_iff.1 hp with rfl | hp
      · rw [← List.cons_append, ← List.append_assoc, h]
        exact fun he => hne (Option.some.inj he)
      · exact hh.held part hp

/-- The report that begins a hold is a press. -/
theorem Hold.press {before during : List (Turn σ K)} {opening : Turn σ K}
    (h : Hold before opening during) {held : Buttons}
    (hw : heldAfter (before ++ opening :: during) = some held) :
    ∃ b, opening.report.action = .press b := by
  rw [List.append_cons] at hw
  obtain ⟨first, hfirst⟩ := heldAfter_of_append hw
  obtain ⟨idle, hidle, hfollow⟩ := heldAfter_snoc_some hfirst
  rw [h.free] at hidle
  cases hidle
  rcases action_of_follow hfollow with ⟨-, he⟩ | ⟨b, hb, -, -⟩ | ⟨b, -, hne, -⟩
  · exact absurd (by rw [hfirst, he.1 rfl]) (h.held [] (List.nil_prefix))
  · exact ⟨b, hb⟩
  · exact absurd rfl hne

/-- Within a hold every report is neutral. -/
theorem Hold.neutral {before during : List (Turn σ K)} {opening t : Turn σ K}
    (h : Hold before opening (during ++ [t])) {held : Buttons}
    (hw : heldAfter (before ++ opening :: (during ++ [t])) = some held) :
    t.report.action.Neutral := by
  have hne := h.held _ (List.prefix_refl _)
  rw [← List.cons_append, ← List.append_assoc] at hw hne
  obtain ⟨last, hlast, hfollow⟩ := heldAfter_snoc_some hw
  rcases action_of_follow hfollow with ⟨hn, -⟩ | ⟨b, -, he, -⟩ | ⟨b, -, -, he⟩
  · exact hn
  · exact absurd (by rw [hlast, he]) (h.held during (List.prefix_append _ _))
  · rw [hw, he] at hne
    exact absurd rfl hne

/-! ## Who has the pointer between holds and within one -/

variable [Host σ K] [DecidableEq K]

omit [DecidableEq K] in
theorem ownerAfter_of_neutral {d : Device K} {s : Surface σ K} {r : Report}
    (ha : r.action.Neutral) : d.ownerAfter s r = d.pointer.captured := by
  unfold Device.ownerAfter
  cases hr : r.action with
  | press b => exact absurd hr (ha b).1
  | release b => exact absurd hr (ha b).2
  | move => rfl
  | send _ => rfl
  | leave => rfl

/-- While no button is held nobody has the pointer. -/
theorem captured_of_free {d : Device K} (hd : d.Live) (hfree : d.pointer.captured = none)
    (turns : List (Turn σ K)) : ∀ {d' : Device K}, d.Turns turns d' →
      heldAfter turns = some Flags.empty → d'.pointer.captured = none := by
  induction turns using List.reverseRecOn with
  | nil => rintro d' rfl -; exact hfree
  | append_singleton turns t ih =>
    intro d' h hw
    obtain ⟨m, hm, hp, rfl⟩ := Device.turns_snoc.1 h
    obtain ⟨held, hheld, hfollow⟩ := heldAfter_snoc_some hw
    rw [(Device.captured_of_process (Device.live_of_turns hd hm) hp).1]
    rcases action_of_follow hfollow with ⟨hn, he⟩ | ⟨b, -, -, hne⟩ | ⟨b, ha, -, -⟩
    · rw [ownerAfter_of_neutral hn]
      exact ih hm (by rw [hheld, he.2 rfl])
    · exact absurd rfl hne
    · rw [Device.ownerAfter, ha]

/-- Throughout a hold the pointer belongs to what its first press hit. -/
theorem Hold.captured {d : Device K} (hd : d.Live) (hfree : d.pointer.captured = none)
    {before : List (Turn σ K)} {opening : Turn σ K} (during : List (Turn σ K)) :
    ∀ {d' : Device K} {held : Buttons}, Hold before opening during →
      d.Turns (before ++ opening :: during) d' →
      heldAfter (before ++ opening :: during) = some held →
      d'.pointer.captured = opening.hit := by
  induction during using List.reverseRecOn with
  | nil =>
    intro d' held h ht hw
    obtain ⟨b, hb⟩ := h.press hw
    obtain ⟨m, hm, hp, rfl⟩ := Device.turns_snoc.1 ht
    rw [(Device.captured_of_process (Device.live_of_turns hd hm) hp).1, Device.ownerAfter, hb,
      captured_of_free hd hfree before hm h.free]
    -- a press over nothing leaves the pointer to whoever has it, and that is nobody
    exact Option.or_none
  | append_singleton during t ih =>
    intro d' held h ht hw
    have hn := h.neutral hw
    rw [← List.cons_append, ← List.append_assoc] at ht hw
    obtain ⟨m, hm, hp, rfl⟩ := Device.turns_snoc.1 ht
    obtain ⟨last, hlast⟩ := heldAfter_of_append hw
    rw [(Device.captured_of_process (Device.live_of_turns hd hm) hp).1, ownerAfter_of_neutral hn]
    exact ih (h.part (List.prefix_append _ _)) hm hlast

/-! ## What is sent in a hold -/

/-- An event of this kind was sent to `target`. -/
def Turn.Sends (t : Turn σ K) (kind : EventKind) (target : K) : Prop :=
  t.handling.outcome.kind = some kind ∧ t.handling.outcome.target = some target

theorem sends_of_neutral {m : Device K} {t : Turn σ K} (hm : m.Live)
    (hp : m.process t.limit t.surface t.report = .ok t.handling) (hn : t.report.action.Neutral)
    {x : K} (hx : m.pointer.captured = some x) {kind : EventKind}
    (hk : t.handling.outcome.kind = some kind) :
    kind ≠ .pressed ∧ kind ≠ .released ∧ t.Sends kind x := by
  obtain ⟨htarget, hkind⟩ := Device.outcome_of_process hm hp
  rw [hk] at hkind
  unfold Device.addressee at htarget hkind
  rw [hx] at htarget hkind
  cases ha : t.report.action with
  | press b => exact absurd ha (hn b).1
  | release b => exact absurd ha (hn b).2
  | move =>
    rw [ha] at htarget hkind
    cases hkind
    exact ⟨by decide, by decide, hk, htarget⟩
  | send payload =>
    rw [ha] at htarget hkind
    have hmem := kind_of_send ha
    cases hkind
    refine ⟨fun he => ?_, fun he => ?_, hk, htarget⟩ <;> rw [he] at hmem <;> revert hmem <;> decide
  | leave => rw [ha] at hkind; cases hkind

/-- Within a hold over `x` everything is sent to `x` and nothing is a press or a release. -/
theorem Hold.sends {d d' : Device K} (hd : d.Live) (hfree : d.pointer.captured = none)
    {before during : List (Turn σ K)} {opening : Turn σ K} {held : Buttons}
    (h : Hold before opening during) (ht : d.Turns (before ++ opening :: during) d')
    (hw : heldAfter (before ++ opening :: during) = some held) {x : K} (hx : opening.hit = some x)
    {t : Turn σ K} (hmem : t ∈ during) {kind : EventKind}
    (hk : t.handling.outcome.kind = some kind) :
    kind ≠ .pressed ∧ kind ≠ .released ∧ t.Sends kind x := by
  obtain ⟨first, last, rfl⟩ := List.append_of_mem hmem
  have hsplit : before ++ opening :: (first ++ t :: last) =
      (before ++ opening :: first) ++ [t] ++ last := by simp
  rw [hsplit] at ht hw
  obtain ⟨m', ht, -⟩ := Device.turns_append.1 ht
  obtain ⟨held', hw⟩ := heldAfter_of_append hw
  have hn : t.report.action.Neutral := by
    refine Hold.neutral (h.part ?_) (show heldAfter _ = some held' by simpa using hw)
    exact ⟨last, by simp⟩
  obtain ⟨m, hm, hp, -⟩ := Device.turns_snoc.1 ht
  obtain ⟨held'', hw⟩ := heldAfter_of_append hw
  have hc := Hold.captured hd hfree first (h.part (List.prefix_append _ _)) hm hw
  exact sends_of_neutral (Device.live_of_turns hd hm) hp hn (hc.trans hx) hk

theorem Hold.opening_sends {d d' : Device K} (hd : d.Live) {before during : List (Turn σ K)}
    {opening : Turn σ K} {held : Buttons} (h : Hold before opening during)
    (ht : d.Turns (before ++ opening :: during) d')
    (hw : heldAfter (before ++ opening :: during) = some held) {x : K}
    (hx : opening.hit = some x) : opening.Sends .pressed x := by
  obtain ⟨b, hb⟩ := h.press hw
  rw [List.append_cons] at ht
  obtain ⟨m, hm, -⟩ := Device.turns_append.1 ht
  obtain ⟨first, hfirst, hp, -⟩ := Device.turns_snoc.1 hm
  obtain ⟨htarget, hkind⟩ := Device.outcome_of_process (Device.live_of_turns hd hfirst) hp
  have hto : first.addressee opening.surface opening.report = some x := by
    rw [Device.addressee, hb]
    exact hx
  rw [hto] at htarget hkind
  rw [hb] at hkind
  exact ⟨hkind, htarget⟩

theorem Hold.closing_sends {d d' : Device K} (hd : d.Live) (hfree : d.pointer.captured = none)
    {before during : List (Turn σ K)} {opening closing : Turn σ K}
    (h : Hold before opening during)
    (ht : d.Turns (before ++ opening :: (during ++ [closing])) d')
    (hend : heldAfter (before ++ opening :: (during ++ [closing])) = some Flags.empty) {x : K}
    (hx : opening.hit = some x) : closing.Sends .released x := by
  rw [← List.cons_append, ← List.append_assoc] at ht hend
  obtain ⟨last, hlast, hp, -⟩ := Device.turns_snoc.1 ht
  obtain ⟨held, hw, hfollow⟩ := heldAfter_snoc_some hend
  have hc := h.captured hd hfree during hlast hw
  obtain ⟨htarget, hkind⟩ := Device.outcome_of_process (Device.live_of_turns hd hlast) hp
  rcases action_of_follow hfollow with ⟨-, he⟩ | ⟨b, -, -, hne⟩ | ⟨b, ha, -, -⟩
  · rw [he.2 rfl] at hw
    exact absurd hw (h.held during (List.prefix_refl _))
  · exact absurd rfl hne
  · have hto : last.addressee closing.surface closing.report = some x := by
      rw [Device.addressee, ha, hc, hx]
      rfl
    rw [hto] at htarget hkind
    rw [ha] at hkind
    exact ⟨hkind, htarget⟩

/-- A live device that nobody has captured processes reports whose button changes fit together.
While no button is held nobody has the pointer; while some button is held it belongs to what the
press hit that began the hold. If that is `x`, the press is sent to `x`, so is everything else
until the hold ends, of which nothing is a press or a release, and so is the release that ends
it. -/
theorem drag_stays_with_first_hit {d d' : Device K} (hd : d.Live)
    (hfree : d.pointer.captured = none) {turns : List (Turn σ K)} (h : d.Turns turns d')
    {held : Buttons} (hw : heldAfter turns = some held) :
    (held = Flags.empty → d'.pointer.captured = none) ∧
    (held ≠ Flags.empty → ∃ before opening during, turns = before ++ opening :: during ∧
      Hold before opening during ∧ d'.pointer.captured = opening.hit) ∧
    ∀ before opening during x, Hold before opening during → opening.hit = some x →
      (before ++ opening :: during <+: turns → opening.Sends .pressed x ∧
        ∀ t ∈ during, ∀ kind, t.handling.outcome.kind = some kind →
          kind ≠ .pressed ∧ kind ≠ .released ∧ t.Sends kind x) ∧
      ∀ closing, before ++ opening :: (during ++ [closing]) <+: turns →
        heldAfter (before ++ opening :: (during ++ [closing])) = some Flags.empty →
          closing.Sends .released x := by
  refine ⟨fun he => captured_of_free hd hfree turns h (by rw [hw, he]), fun hne => ?_, ?_⟩
  · obtain ⟨before, opening, during, rfl, hh⟩ := exists_hold turns hw hne
    exact ⟨before, opening, during, rfl, hh, hh.captured hd hfree during h hw⟩
  intro before opening during x hh hx
  refine ⟨fun ⟨rest, hrest⟩ => ?_, fun closing ⟨rest, hrest⟩ hend => ?_⟩
  · subst hrest
    obtain ⟨m, hm, -⟩ := Device.turns_append.1 h
    obtain ⟨held', hw'⟩ := heldAfter_of_append hw
    exact ⟨hh.opening_sends hd hm hw' hx,
      fun t ht kind hk => hh.sends hd hfree hm hw' hx ht hk⟩
  · subst hrest
    obtain ⟨m, hm, -⟩ := Device.turns_append.1 h
    exact hh.closing_sends hd hfree hm hend hx

/-- One button goes down over `0`, another over `7`, and both go up there again: the press and the
release are for `0`, and so are the moves in between. -/
theorem drag_from_zero_over_seven :
    let d : Device Nat := .ofPointer ⟨1⟩ ⟨⟨1, Nat.one_pos⟩, .mouse, true⟩ .standard
    let showing (n : Nat) : Surface (Scene Nat) Nat := { host := { root := ⟨1⟩, backdrop := some n } }
    let report (kind : ReportKind) (bits : UInt8) : Report :=
      { kind, device := ⟨1⟩, root := ⟨1⟩, time := 0, position := ⟨0, 0⟩, buttons := ⟨bits⟩ }
    d.Live ∧ d.pointer.captured = none ∧ ∃ turns d',
      d.turnsOver 1 [(showing 0, report (.down .left) 1), (showing 7, report (.down .right) 5),
        (showing 7, report (.up .left) 4), (showing 7, report (.up .right) 0)] = some (turns, d') ∧
      heldAfter turns = some Flags.empty ∧ d'.pointer.captured = none ∧
      ∃ first second third last, turns = [first, second, third, last] ∧ first.Sends .pressed 0 ∧
        (∀ t ∈ [second, third], ∀ kind, t.handling.outcome.kind = some kind →
          kind ≠ .pressed ∧ kind ≠ .released ∧ t.Sends kind 0) ∧
        last.Sends .released 0 := by
  intro d showing report
  refine ⟨⟨rfl, rfl⟩, rfl, ?_⟩
  obtain ⟨⟨turns, d'⟩, hrun⟩ := Option.isSome_iff_exists.1 (by decide :
    (d.turnsOver 1 [(showing 0, report (.down .left) 1), (showing 7, report (.down .right) 5),
      (showing 7, report (.up .left) 4), (showing 7, report (.up .right) 0)]).isSome = true)
  obtain ⟨ht, hmap⟩ := Device.turns_turnsOver hrun
  refine ⟨turns, d', hrun, ?_⟩
  obtain ⟨first, turns, rfl, h1, hmap⟩ := List.map_eq_cons_iff.1 hmap
  obtain ⟨second, turns, rfl, h2, hmap⟩ := List.map_eq_cons_iff.1 hmap
  obtain ⟨third, turns, rfl, h3, hmap⟩ := List.map_eq_cons_iff.1 hmap
  obtain ⟨last, turns, rfl, h4, hmap⟩ := List.map_eq_cons_iff.1 hmap
  obtain rfl := List.map_eq_nil_iff.1 hmap
  simp only [Prod.mk.injEq] at h1 h2 h3 h4
  have hfold : ∀ bs : List (Turn (Scene Nat) Nat), heldAfter bs =
      (bs.map fun t => t.report).foldlM (fun held r => r.follow held) Flags.empty := fun bs => by
    rw [List.foldlM_map]
    rfl
  have hw : heldAfter [first, second, third, last] = some Flags.empty := by
    rw [hfold]
    simp only [List.map_cons, List.map_nil, h1.2, h2.2, h3.2, h4.2]
    decide
  obtain ⟨hfree, -, hhold⟩ := drag_stays_with_first_hit ⟨rfl, rfl⟩ rfl ht hw
  have hheld : Hold [] first [second, third] := by
    refine ⟨rfl, fun part hp => ?_⟩
    rw [hfold]
    simp only [List.prefix_cons_iff, List.prefix_nil] at hp
    rcases hp with rfl | ⟨_, rfl, rfl | ⟨_, rfl, rfl⟩⟩ <;>
      simp only [List.nil_append, List.map_cons, List.map_nil, h1.2, h2.2, h3.2] <;> decide
  have hhit : first.hit = some 0 := by
    rw [Turn.hit, h1.1, h1.2]
    rfl
  obtain ⟨hsent, hend⟩ := hhold [] first [second, third] 0 hheld hhit
  obtain ⟨hpress, hbetween⟩ := hsent ⟨[last], rfl⟩
  exact ⟨hw, hfree rfl, first, second, third, last, rfl, hpress, hbetween,
    hend last (List.prefix_refl _) hw⟩

end PointerRouting
