/-
A registry and its history. What stands in the registry for a root is the device of the last entry
that told of work in that root, unless the root or that device has been removed since
(`LastAtWork`). Nothing older comes back after a removal, and entries about different roots can
change places (`active_iff_last_at_work`).

One more entry either tells of the device itself or leaves what stood there, unless it supersedes
it (`active_enter_iff`); the rest is one induction from the end of the history.
-/
import PointerRouting.Proofs.Session.Run
import PointerRouting.Scene
import Mathlib.Data.List.Induction

namespace PointerRouting

variable {σ K : Type}

namespace Registry

/-! ## Entries -/

/-- What can be entered in a registry. -/
inductive Entry (K : Type) where
  | record (root : RootId) (device : DeviceId)
  /-- A report has been processed with this outcome. -/
  | note (report : Report) (outcome : Outcome K)
  | removeDevice (device : DeviceId)
  | removeRoot (root : RootId)

namespace Entry

/-- The work an entry tells of: where, and by which device. A report that was ignored is no
work. -/
def work : Entry K → Option (RootId × DeviceId)
  | record root device => some (root, device)
  | note _ .stale => none
  | note report _ => some (report.root, report.device)
  | removeDevice _ | removeRoot _ => none

/-- The entry tells of work in the root, or removes the root or the device. -/
def Supersedes (e : Entry K) (root : RootId) (device : DeviceId) : Prop :=
  (∃ other, e.work = some (root, other)) ∨ e = removeRoot root ∨ e = removeDevice device

/-- The root that an entry is about; the removal of a device is about all of them. -/
def root? : Entry K → Option RootId
  | record root _ | removeRoot root => some root
  | note report _ => some report.root
  | removeDevice _ => none

theorem work_note (report : Report) (outcome : Outcome K) : (note report outcome).work =
    if outcome.isStale then none else some (report.root, report.device) := by
  cases outcome <;> rfl

end Entry

/-- The registry with one more entry made in it. -/
def enter (g : Registry) : Entry K → Registry
  | .record root device => g.record root device
  | .note report outcome => g.note report outcome
  | .removeDevice device => g.removeDevice device
  | .removeRoot root => g.removeRoot root

/-- The registry after some entries, from the first one on. -/
def after (entries : List (Entry K)) : Registry := entries.foldl enter empty

theorem after_concat (entries : List (Entry K)) (e : Entry K) :
    after (entries ++ [e]) = (after entries).enter e :=
  List.foldl_append

/-- Of the work that some entries tell of in `root` the last is that of `device`, and it has not
been superseded. -/
def LastAtWork (entries : List (Entry K)) (root : RootId) (device : DeviceId) : Prop :=
  ∃ earlier e later, entries = earlier ++ e :: later ∧ e.work = some (root, device) ∧
    ∀ e' ∈ later, ¬ e'.Supersedes root device

/-! ## One more entry -/

theorem active_enter_iff (g : Registry) (e : Entry K) (root : RootId) (device : DeviceId) :
    (g.enter e).active root = some device ↔ e.work = some (root, device) ∨
      (g.active root = some device ∧ ¬ e.Supersedes root device) := by
  unfold Entry.Supersedes
  cases e with
  | record place worker =>
    simp only [enter, active_record, Entry.work]
    grind
  | note report outcome =>
    simp only [enter, note, Entry.work_note]
    cases outcome.isStale with
    | true => simp
    | false =>
      simp only [Bool.false_eq_true, if_false, active_record]
      grind
  | removeDevice gone =>
    simp only [enter, active_removeDevice, Entry.work, Option.filter_eq_some_iff]
    grind
  | removeRoot gone =>
    simp only [enter, active_removeRoot, Entry.work]
    grind

theorem lastAtWork_concat {entries : List (Entry K)} {e : Entry K} {root : RootId}
    {device : DeviceId} : LastAtWork (entries ++ [e]) root device ↔
      e.work = some (root, device) ∨
        (LastAtWork entries root device ∧ ¬ e.Supersedes root device) := by
  constructor
  · rintro ⟨earlier, x, later, h, hwork, hlater⟩
    rcases List.eq_nil_or_concat' later with rfl | ⟨later, last, rfl⟩
    · obtain ⟨-, hx⟩ := List.append_inj' h rfl
      cases hx
      exact .inl hwork
    · rw [← List.cons_append, ← List.append_assoc] at h
      obtain ⟨rfl, he⟩ := List.append_inj' h rfl
      cases he
      refine .inr ⟨⟨earlier, x, later, rfl, hwork, fun e' he' => ?_⟩, ?_⟩
      · exact hlater e' (List.mem_append_left _ he')
      · exact hlater e (by simp)
  · rintro (hwork | ⟨⟨earlier, x, later, rfl, hwork, hlater⟩, he⟩)
    · exact ⟨entries, e, [], rfl, hwork, by simp⟩
    · refine ⟨earlier, x, later ++ [e], by simp, hwork, fun e' he' => ?_⟩
      rcases List.mem_append.1 he' with he' | he'
      · exact hlater e' he'
      · rwa [List.mem_singleton.1 he']

/-- The device that is active is the one last at work. -/
theorem active_after_iff (entries : List (Entry K)) (root : RootId) (device : DeviceId) :
    (after entries).active root = some device ↔ LastAtWork entries root device := by
  induction entries using List.reverseRecOn with
  | nil =>
    constructor
    · intro h
      rw [after, List.foldl_nil, active_empty] at h
      cases h
    · rintro ⟨earlier, e, later, h, -⟩
      simp at h
  | append_singleton entries e ih =>
    rw [after_concat, active_enter_iff, lastAtWork_concat, ih]

/-! ## Entries about different roots -/

theorem ext_active {g g' : Registry} (h : ∀ root, g.active root = g'.active root) : g = g' :=
  congrArg Registry.mk (Std.ExtTreeMap.ext_getElem? h)

theorem isEmpty_iff (g : Registry) : g.isEmpty = true ↔ ∀ root, g.active root = none := by
  rw [isEmpty, Std.ExtTreeMap.isEmpty_iff]
  constructor
  · intro h root
    rw [active, h, Std.ExtTreeMap.getElem?_empty]
  · intro h
    have hempty : g = empty := ext_active fun root => (h root).trans (active_empty root).symm
    exact congrArg last hempty

/-- An entry about one root leaves the others alone. -/
theorem active_enter_of_ne {e : Entry K} {root other : RootId} (he : e.root? = some root)
    (hne : root ≠ other) (g : Registry) : (g.enter e).active other = g.active other := by
  cases e with
  | record _ worker =>
    cases he
    rw [enter, active_record, if_neg hne]
  | note report outcome =>
    cases he
    rw [enter, note]
    split
    · rfl
    · rw [active_record, if_neg hne]
  | removeDevice _ => cases he
  | removeRoot _ =>
    cases he
    rw [enter, active_removeRoot, if_neg hne]

/-- What an entry makes of a root depends on that root alone. -/
theorem active_enter_congr {g g' : Registry} {root : RootId} (h : g.active root = g'.active root)
    (e : Entry K) : (g.enter e).active root = (g'.enter e).active root := by
  refine Option.ext fun device => ?_
  rw [active_enter_iff, active_enter_iff, h]

theorem enter_comm {a b : Entry K} {root other : RootId} (ha : a.root? = some root)
    (hb : b.root? = some other) (hne : root ≠ other) (g : Registry) :
    (g.enter a).enter b = (g.enter b).enter a := by
  refine ext_active fun x => ?_
  by_cases hx : root = x
  · subst hx
    calc ((g.enter a).enter b).active root
      _ = (g.enter a).active root := active_enter_of_ne hb (Ne.symm hne) _
      _ = ((g.enter b).enter a).active root :=
        active_enter_congr (active_enter_of_ne hb (Ne.symm hne) g).symm a
  · calc ((g.enter a).enter b).active x
      _ = (g.enter b).active x := active_enter_congr (active_enter_of_ne ha hx g) b
      _ = ((g.enter b).enter a).active x := (active_enter_of_ne ha hx _).symm

end Registry

/-! ## Repaints -/

/-- A repaint is for the device that is active in the root of the surface. -/
theorem Session.device_of_repaint [Host σ K] [DecidableEq K] {s t : Session σ K}
    {limit surface : Nat} {area : Rect} {answer : Answer K}
    (h : s.repaint limit surface area = .ok (answer, t)) :
    ∃ scene changed, s.surfaces[surface]? = some scene ∧
      answer = .repainted (s.registry.active scene.root) changed := by
  obtain ⟨scene, _, hscene, hact, -⟩ := of_onSurface h
  refine ⟨scene, ?_⟩
  cases hactive : s.registry.active scene.root with
  | none =>
    rw [hactive] at hact
    cases hact
    exact ⟨none, hscene, rfl⟩
  | some device =>
    rw [hactive] at hact
    dsimp only at hact
    split at hact
    · cases hact
      exact ⟨none, hscene, rfl⟩
    · obtain ⟨x, -, he⟩ := Option.map_eq_some_iff.1 hact
      cases he
      exact ⟨some x.1, hscene, rfl⟩

namespace Registry

/-! ## The history of a registry -/

/-- Whatever has been entered in a registry, the device that is active in a root, and is told of its
repaints, is the one last at work there, and the registry is empty if there is none in any root.
The removal of a device takes it out of the roots where it is active and changes nothing else, and
two entries about different roots can be made in either order. -/
theorem active_iff_last_at_work [Host σ K] [DecidableEq K] (entries : List (Entry K)) :
    (∀ root device, (after entries).active root = some device ↔
      LastAtWork entries root device) ∧
    (∀ (s t : Session σ K) (limit surface : Nat) (area : Rect) (answer : Answer K),
      s.registry = after entries → s.repaint limit surface area = .ok (answer, t) →
        ∃ scene device changed, s.surfaces[surface]? = some scene ∧
          answer = .repainted device changed ∧
          ∀ d, device = some d ↔ LastAtWork entries scene.root d) ∧
    ((after entries).isEmpty = true ↔ ∀ root, (after entries).active root = none) ∧
    (∀ device root, (after (entries ++ [.removeDevice device])).active root =
      if (after entries).active root = some device then none else (after entries).active root) ∧
    (∀ (a b : Entry K) (root other : RootId), a.root? = some root → b.root? = some other →
      root ≠ other → after (entries ++ [a, b]) = after (entries ++ [b, a])) := by
  refine ⟨active_after_iff entries, fun s t limit surface area answer hs h => ?_, isEmpty_iff _,
    fun device root => ?_, fun a b root other ha hb hne => ?_⟩
  · obtain ⟨scene, changed, hscene, rfl⟩ := Session.device_of_repaint h
    refine ⟨scene, _, changed, hscene, rfl, fun d => ?_⟩
    rw [hs]
    exact active_after_iff entries scene.root d
  · rw [after_concat, enter, active_removeDevice]
    cases (after entries).active root with
    | none => rfl
    | some d => by_cases hd : d = device <;> simp [Option.filter, hd]
  · have hpair : ∀ x y : Entry K, after (entries ++ [x, y]) = ((after entries).enter x).enter y :=
      fun _ _ => List.foldl_append
    rw [hpair, hpair]
    exact enter_comm ha hb hne _

/-- Device `11` has taken root `1` over from device `10`, so it is the one a repaint is for. Once it
is removed nobody is active there, while device `10` goes on in root `2`. -/
theorem nobody_follows_eleven :
    let r : Report := { kind := .move, device := ⟨11⟩, root := ⟨1⟩, time := 0, position := ⟨0, 0⟩ }
    let entries : List (Entry Nat) := [.record ⟨1⟩ ⟨10⟩, .note r .noTarget, .record ⟨2⟩ ⟨10⟩]
    let s : Session (Scene Nat) Nat :=
      { surfaces := [{ host := { root := ⟨1⟩ } }], registry := after entries }
    let removed := after (entries ++ [.removeDevice ⟨11⟩])
    LastAtWork entries ⟨1⟩ ⟨11⟩ ∧
    (∃ t changed, s.repaint 1 0 ⟨0, 0, 1, 1⟩ = .ok (.repainted (some ⟨11⟩) changed, t)) ∧
    (after entries).isEmpty = false ∧
    removed.active ⟨1⟩ = none ∧ removed.active ⟨2⟩ = some ⟨10⟩ ∧
    after (entries ++ [.record ⟨1⟩ ⟨12⟩, .removeRoot ⟨2⟩]) =
      after (entries ++ [.removeRoot ⟨2⟩, .record ⟨1⟩ ⟨12⟩]) := by
  intro r entries s removed
  obtain ⟨hactive, hrepaint, hempty, hremoved, hcomm⟩ :=
    active_iff_last_at_work (σ := Scene Nat) entries
  have hone : (after entries).active ⟨1⟩ = some ⟨11⟩ := by decide +kernel
  have htwo : (after entries).active ⟨2⟩ = some ⟨10⟩ := by decide +kernel
  have hlast := (hactive ⟨1⟩ ⟨11⟩).1 hone
  refine ⟨hlast, ?_, ?_, ?_, ?_, hcomm _ _ ⟨1⟩ ⟨2⟩ rfl rfl (by decide)⟩
  · have hok : (s.repaint 1 0 ⟨0, 0, 1, 1⟩).toOption.isSome = true := by decide +kernel
    rcases h : s.repaint 1 0 ⟨0, 0, 1, 1⟩ with fault | ⟨answer, t⟩
    · rw [h] at hok
      cases hok
    · obtain ⟨scene, device, changed, hscene, rfl, hiff⟩ := hrepaint s t 1 0 _ answer rfl h
      cases hscene
      rw [(hiff ⟨11⟩).2 hlast]
      exact ⟨t, changed, rfl⟩
  · rw [Bool.eq_false_iff, ne_eq, hempty]
    intro h
    rw [h] at hone
    cases hone
  · exact (hremoved ⟨11⟩ ⟨1⟩).trans (if_pos hone)
  · refine (hremoved ⟨11⟩ ⟨2⟩).trans ?_
    rw [if_neg (by rw [htwo]; decide), htwo]

end Registry

end PointerRouting
