/-
The times under which elements are told. Whatever a report has them told bears the time of the
report. A change of the scene has no time; what it has them told bears the date of the pointer, which
is the time of the move that last confirmed that the pointer hovers, or 0 if it has come to hover by
a change of the scene itself.

So what reports have elements told never goes back in time, and nothing is told under a later time
than that of a report that comes after it. But the date of the pointer stays behind when a press or
a wheel is told, which confirm nothing, and a change of the scene right after that goes back to it
(`deliveries_are_dated`).
-/
import PointerRouting.Proofs.Device.Hovering
import PointerRouting.Proofs.Device.Presses
import PointerRouting.Proofs.Session.SceneChange
import PointerRouting.Proofs.Surface.Filing

namespace PointerRouting

variable {σ K : Type}

/-- A relation holds between each element of a list and those before it. -/
theorem pairwise_iff_splits {α : Type} {R : α → α → Prop} {l : List α} : l.Pairwise R ↔
    ∀ before a after, l = before ++ a :: after → ∀ b ∈ before, R b a := by
  constructor
  · rintro h before a after rfl b hb
    exact (List.pairwise_append.1 h).2.2 b hb a (List.mem_cons_self ..)
  · intro h
    induction l with
    | nil => exact .nil
    | cons x l ih =>
      refine List.pairwise_cons.2 ⟨fun y hy => ?_, ih fun before a after hl b hb => ?_⟩
      · obtain ⟨before, after, rfl⟩ := List.append_of_mem hy
        exact h (x :: before) y after rfl x (List.mem_cons_self ..)
      · exact h (x :: before) a after (congrArg (x :: ·) hl) b (List.mem_cons_of_mem x hb)

/-- The time that an element was told. -/
def Delivery.time (e : Delivery K) : Nat := e.event.details.time

/-! ## The date of a pointer -/

namespace Hover

variable {h h' : Hover K} {id : PointerId}

/-- The time under which it is stored that a pointer hovers, or 0 if it does not. -/
def date (h : Hover K) (id : PointerId) : Nat := ((h.details id).map (·.time)).getD 0

theorem time_detailsAt (h : Hover K) (id : PointerId) (position : Point) :
    (h.detailsAt id position).time = h.date id := by
  rw [detailsAt, date]
  cases h.details id <;> rfl

theorem date_of_details {details : Details} (hd : h.details id = some details) :
    h.date id = details.time := by
  rw [date, hd]
  rfl

theorem date_congr (he : h'.entries[id]? = h.entries[id]?) : h'.date id = h.date id := by
  rw [date, date, details, details, he]

theorem Filed.date_of_nowhere (hf : h.Filed) (hn : h.deepest id = none) : h.date id = 0 := by
  have hnone : h.details id = none := by
    rw [← Option.not_isSome_iff_eq_none, hf.isSome_details_iff, hn]
    simp
  rw [date, hnone]
  rfl

end Hover

/-- The date of a pointer after a report, with `hit` under the pointer: a move over something gives
it the time of the report. -/
def Report.redate (r : Report) (kind : PointerKind) (hit : Option K) (date : Nat) : Nat :=
  match r.action with
  | .move => if kind = .touch then date else if hit.isSome then r.time else 0
  | .leave => 0
  | _ => date

theorem Report.redate_cases (r : Report) (kind : PointerKind) (hit : Option K) (date : Nat) :
    r.redate kind hit date = 0 ∨ r.redate kind hit date = date ∨
      r.redate kind hit date = r.time := by
  unfold redate
  cases r.action with
  | move =>
    by_cases htouch : kind = .touch
    · exact .inr (.inl (if_pos htouch))
    · rw [if_neg htouch]
      cases hit with
      | none => exact .inl rfl
      | some _ => exact .inr (.inr rfl)
  | leave => exact .inl rfl
  | press _ | release _ | send _ => exact .inr (.inl rfl)

/-! ## What is told at once -/

variable [Host σ K]

namespace Surface

/-- Whatever elements are told as `a` becomes `b`, they are told under this time. -/
def TellsAt (a b : Surface σ K) (time : Nat) : Prop :=
  ∃ ds, a.Told ds b.toStage ∧ ∀ e ∈ ds, e.time = time

theorem TellsAt.news {a b : Surface σ K} {time : Nat} (h : a.TellsAt b time) :
    ∀ e ∈ b.log.drop a.log.length, e.time = time := by
  obtain ⟨ds, hds, htime⟩ := h
  rw [hds.drop_log]
  exact htime

theorem tellsAt_refl (a : Surface σ K) (time : Nat) : a.TellsAt a time := ⟨[], rfl, by simp⟩

theorem Announces.time_eq {s : Surface σ K} {pointer : PointerIdentity} {details : Details}
    {transitions : List (Transition K)} {ds : List (Delivery K)}
    (h : s.Announces pointer details transitions ds) : ∀ e ∈ ds, e.time = details.time := by
  intro e he
  obtain ⟨_, -, hevent⟩ := h.event_of_mem he
  rw [Delivery.time, hevent]
  rfl

theorem tellsAt_endHover (s : Surface σ K) (id : PointerId) (details : Details) :
    s.TellsAt (s.endHover id details) details.time := by
  unfold endHover
  rcases s.hover.entries[id]? with _ | entry
  · exact s.tellsAt_refl _
  · obtain ⟨ds, hds, hann⟩ := announces_announce { s with hover := s.hover.forget id }
      entry.pointer details (Transition.leaveAll entry.path)
    exact ⟨ds, hds, hann.time_eq⟩

theorem tellsAt_hoverAt [DecidableEq K] {s t : Surface σ K} {limit : Nat}
    {pointer : PointerIdentity} {details : Details} {target before : Option K}
    (h : s.hoverAt limit pointer details target = some (before, t)) :
    s.TellsAt t details.time := by
  obtain ⟨ds, hds, hann, -⟩ := announces_hoverAt h
  exact ⟨ds, hds, hann.time_eq⟩

end Surface

namespace Device

variable [DecidableEq K] {d m : Device K} {limit : Nat} {s t : Surface σ K}

theorem tellsAt_follow {hit : Option K} {r : Report} (h : d.follow limit s hit r = some t) :
    s.TellsAt t r.time := by
  rcases follow_cases h with ⟨-, -, before, hhover⟩ | ⟨-, rfl⟩ | ⟨-, -, rfl⟩
  · exact Surface.tellsAt_hoverAt hhover
  · exact s.tellsAt_endHover ..
  · exact t.tellsAt_refl _

theorem tellsAt_process {r : Report} {handling : Handling σ K}
    (h : d.process limit s r = .ok handling) : s.TellsAt handling.surface r.time := by
  rcases phases_of_process h with ⟨-, rfl⟩ | ⟨-, -, _, _, _, hsent, hfollow, rfl⟩
  · exact s.tellsAt_refl _
  · obtain ⟨sent, htold, hdispatched⟩ := dispatched_of_dispatch hsent
    obtain ⟨hovered, hmore, htime⟩ := tellsAt_follow hfollow
    refine ⟨sent ++ hovered, htold.append hmore, fun e he => ?_⟩
    rcases List.mem_append.1 he with he | he
    · obtain ⟨-, -, -, -, hdetails⟩ := hdispatched.event e he
      rw [Delivery.time, hdetails]
      rfl
    · exact htime e he

theorem tellsAt_sceneChanged {area : Rect} {changed : Bool}
    (h : d.sceneChanged limit s area = some (changed, t)) :
    s.TellsAt t (s.hover.date d.pointer.info.id) := by
  rcases sceneChanged_cases h with ⟨-, -, rfl⟩ | ⟨position, before, -, hhover, -⟩
  · exact t.tellsAt_refl _
  · rw [← s.hover.time_detailsAt d.pointer.info.id position]
    exact Surface.tellsAt_hoverAt hhover

/-! ## Uses that follow on one another -/

namespace Use

/-- The surface that a use is on, before it and after it. -/
def surfaces? : Use σ K → Option (Surface σ K × Surface σ K)
  | process t => some (t.surface, t.handling.surface)
  | sceneChanged _ before _ _ after => some (before, after)
  | _ => none

/-- The time of the report that is processed in a use, if one is. -/
def time? : Use σ K → Option Nat
  | process t => some t.report.time
  | _ => none

/-- A use finds the tracker `h` and leaves it as `h'`. -/
def Carries (u : Use σ K) (h h' : Hover K) : Prop :=
  match u.surfaces? with
  | none => h = h'
  | some (a, b) => a.hover = h ∧ b.hover = h'

/-- The date of a pointer after a use. A pointer that is over nothing has the date 0. -/
def redate (pointer : PointerIdentity) (date : Nat) : Use σ K → Nat
  | process t => t.report.redate pointer.kind t.hit date
  | sceneChanged _ _ _ _ after => if after.hover.deepest pointer.id = none then 0 else date
  | _ => date

end Use

/-- The date of a pointer after some uses that begin with an empty tracker. -/
def dateAfter (pointer : PointerIdentity) (uses : List (Use σ K)) : Nat :=
  uses.foldl (Use.redate pointer) 0

/-- Each of some uses finds the tracker as the one before it left it. -/
def Carries : Hover K → List (Use σ K) → Hover K → Prop
  | h, [], h' => h = h'
  | h, u :: uses, h' => ∃ m, u.Carries h m ∧ Carries m uses h'

omit [Host σ K] [DecidableEq K] in
theorem carries_append : ∀ {h h' : Hover K} {uses more : List (Use σ K)},
    Carries h (uses ++ more) h' ↔ ∃ m, Carries h uses m ∧ Carries m more h'
  | _, _, [], more => by simp [Carries]
  | _, _, u :: uses, more => by
    simp only [List.cons_append, Carries, carries_append]
    constructor
    · rintro ⟨x, hx, m, h1, h2⟩
      exact ⟨m, ⟨x, hx, h1⟩, h2⟩
    · rintro ⟨m, ⟨x, hx, h1⟩, h2⟩
      exact ⟨x, hx, m, h1, h2⟩

/-! ## One use -/

variable {u : Use σ K} {h h' : Hover K}

theorem info_of_takes (ht : d.Takes u m) : m.pointer.info = d.pointer.info := by
  cases u with
  | process t =>
    obtain ⟨hp, rfl⟩ := ht
    exact info_of_process hp
  | sceneChanged _ _ _ _ _ =>
    obtain ⟨-, rfl⟩ := ht
    rfl
  | detach _ _ _ _ _ => exact info_of_detach ht
  | capture target =>
    rw [show m = (d.capture target).2 from ht]
    exact d.pointer.info_capture target
  | setRule rule =>
    rw [show m = d.setRule rule from ht]
    rfl
  | disposePointer =>
    rw [show m = d.disposePointer from ht]
    exact d.pointer.info_capture none
  | dispose =>
    rw [show m = d.dispose from ht]
    exact d.pointer.info_capture none

/-- A device that is in use has been in use before. -/
theorem used_of_takes (ht : d.Takes u m) (hm : m.disposed = false) : d.disposed = false := by
  have hforce := (clicks_of_takes ht).2
  rw [inForce_of_used hm] at hforce
  cases hd : d.disposed with
  | false => rfl
  | true =>
    rw [inForce_of_disposed hd] at hforce
    cases u <;> cases hforce

theorem time_of_takes (ht : d.Takes u m) (hc : u.Carries h h') :
    ∀ e ∈ u.news, e.time = u.time?.getD (h.date d.pointer.info.id) := by
  cases u with
  | process t => exact (tellsAt_process ht.1).news
  | sceneChanged _ _ _ _ _ =>
    obtain ⟨rfl, -⟩ := hc
    exact (tellsAt_sceneChanged ht.1).news
  | detach _ _ _ _ _ | capture _ | setRule _ | disposePointer | dispose => simp [Use.news]

theorem date_of_process {r : Report} {handling : Handling σ K} (hd : d.disposed = false)
    (hp : d.process limit s r = .ok handling) (hf : handling.surface.hover.Filed) :
    handling.surface.hover.date d.pointer.info.id =
      r.redate d.pointer.info.kind (Host.hitTest s.host r.position)
        (s.hover.date d.pointer.info.id) := by
  have hhovers := hovers_of_process hd hp
  unfold Report.redate
  cases ha : r.action with
  | move =>
    have hmoves := r.action_eq_move_iff.1 ha
    dsimp only
    split
    · rename_i htouch
      exact Hover.date_congr (hhovers.stayed hmoves.not_departs fun _ => htouch)
    · rename_i hkind
      obtain ⟨hat, hdetails⟩ := hhovers.moved hmoves hkind
      rcases hhit : Host.hitTest s.host r.position with _ | target
      · exact hf.date_of_nowhere (hat.trans hhit)
      · exact Hover.date_of_details (hdetails (by rw [hhit]; simp))
  | leave =>
    have hgone := hhovers.departed (r.action_eq_leave_iff.1 ha)
    exact hf.date_of_nowhere (by rw [Hover.deepest, Hover.path_of_no_entry hgone]; rfl)
  | press _ | release _ | send _ =>
    have hmoves : ¬ r.Moves := by simp [← r.action_eq_move_iff, ha]
    have hdeparts : ¬ r.Departs := by simp [← r.action_eq_leave_iff, ha]
    exact Hover.date_congr (hhovers.stayed hdeparts fun hm => absurd hm hmoves)

/-- A change of the scene leaves the date of a pointer that hovers after it. -/
theorem date_of_sceneChanged {area : Rect} {changed : Bool}
    (h : d.sceneChanged limit s area = some (changed, t)) (hf : t.hover.Filed) :
    t.hover.date d.pointer.info.id =
      if t.hover.deepest d.pointer.info.id = none then 0
      else s.hover.date d.pointer.info.id := by
  split
  · rename_i hnone
    exact hf.date_of_nowhere hnone
  · rename_i hsome
    rcases sceneChanged_cases h with ⟨-, -, rfl⟩ | ⟨position, before, -, hhover, -⟩
    · rfl
    · rw [Surface.deepest_hoverAt hhover] at hsome
      rw [Hover.date_of_details (Surface.stored_details_hoverAt hhover hsome),
        Hover.time_detailsAt]

theorem date_of_takes (hd : d.disposed = false) (ht : d.Takes u m) (hf : h.Filed)
    (hc : u.Carries h h') :
    h'.Filed ∧ h'.date d.pointer.info.id = u.redate d.pointer.info (h.date d.pointer.info.id) := by
  cases u with
  | process t =>
    obtain ⟨rfl, rfl⟩ := hc
    obtain ⟨ds, hds⟩ := change_of_process hf ht.1
    exact ⟨hds.filed hf, date_of_process hd ht.1 (hds.filed hf)⟩
  | sceneChanged _ _ _ _ _ =>
    obtain ⟨rfl, rfl⟩ := hc
    obtain ⟨ds, hds⟩ := change_of_sceneChanged ht.1
    exact ⟨hds.filed hf, date_of_sceneChanged ht.1 (hds.filed hf)⟩
  | detach _ _ _ _ _ | capture _ | setRule _ | disposePointer | dispose =>
    cases hc
    exact ⟨hf, rfl⟩

/-! ## A use among others -/

theorem used_of_uses : ∀ {d d' : Device K} {uses : List (Use σ K)}, d.Uses uses d' →
    d'.disposed = false → d.disposed = false
  | _, _, [], rfl, hd => hd
  | _, _, _ :: _, ⟨_, hm, hrest⟩, hd => used_of_takes hm (used_of_uses hrest hd)

theorem info_of_uses : ∀ {d d' : Device K} {uses : List (Use σ K)}, d.Uses uses d' →
    d'.pointer.info = d.pointer.info
  | _, _, [], rfl => rfl
  | _, _, _ :: _, ⟨_, hm, hrest⟩ => (info_of_uses hrest).trans (info_of_takes hm)

theorem date_of_uses : ∀ {d d' : Device K} {uses : List (Use σ K)} {h h' : Hover K},
    d.Uses uses d' → d'.disposed = false → h.Filed → Carries h uses h' →
      h'.date d.pointer.info.id =
        uses.foldl (Use.redate d.pointer.info) (h.date d.pointer.info.id)
  | _, _, [], _, _, _, _, _, rfl => rfl
  | d, d', u :: uses, h, h', ⟨m, hm, hrest⟩, hd, hf, ⟨x, hx, hmore⟩ => by
    have hused := used_of_takes hm (used_of_uses hrest hd)
    obtain ⟨hfiled, hdate⟩ := date_of_takes hused hm hf hx
    have ih := date_of_uses hrest hd hfiled hmore
    rw [info_of_takes hm, hdate] at ih
    exact ih

variable {d' : Device K} {uses before after : List (Use σ K)}

/-- What elements are told in a use, they are told under the time of its report, or under the date
that its pointer has after the uses before it. -/
theorem time_of_uses (huses : d.Uses (before ++ u :: after) d') (hd : d'.disposed = false)
    (hc : Carries Hover.empty (before ++ u :: after) h) :
    ∀ e ∈ u.news, e.time = u.time?.getD (dateAfter d.pointer.info before) := by
  obtain ⟨m, hbefore, x, hx, hafter⟩ := uses_append.1 huses
  obtain ⟨hover, hcarried, y, hy, -⟩ := carries_append.1 hc
  have hm := used_of_takes hx (used_of_uses hafter hd)
  have hdate := date_of_uses hbefore hm Hover.proper_empty.toFiled hcarried
  have htime := time_of_takes hx hy
  rw [info_of_uses hbefore, hdate] at htime
  exact htime

/-! ## Runs over one surface -/

/-- The uses of a device on one surface, with the tracker and the device after them, unless one of
them is refused. Each is a report to be processed or an area within which the scene has changed,
beside the host that the surface has just then. -/
def usesOver (limit : Nat) : Device K → Hover K → List (σ × (Report ⊕ Rect)) →
    Option (List (Use σ K) × Hover K × Device K)
  | d, hover, [] => some ([], hover, d)
  | d, hover, (host, .inl report) :: rest =>
    match d.process limit { host, hover } report with
    | .error _ => none
    | .ok handling =>
      (usesOver limit handling.device handling.surface.hover rest).map fun (uses, h, d) =>
        (.process ⟨limit, { host, hover }, report, handling⟩ :: uses, h, d)
  | d, hover, (host, .inr area) :: rest =>
    match d.sceneChanged limit { host, hover } area with
    | none => none
    | some (changed, surface) =>
      (usesOver limit d surface.hover rest).map fun (uses, h, d) =>
        (.sceneChanged limit { host, hover } area changed surface :: uses, h, d)

theorem uses_usesOver {limit : Nat} : ∀ {d d' : Device K} {h h' : Hover K}
    {deeds : List (σ × (Report ⊕ Rect))} {uses : List (Use σ K)},
    d.usesOver limit h deeds = some (uses, h', d') → d.Uses uses d' ∧ Carries h uses h'
  | _, _, _, _, [], _, hrun => by cases hrun; exact ⟨rfl, rfl⟩
  | d, d', hover, h', (host, .inl report) :: rest, uses, hrun => by
    unfold usesOver at hrun
    split at hrun
    · cases hrun
    · rename_i handling hp
      obtain ⟨⟨more, x, m⟩, hrest, he⟩ := Option.map_eq_some_iff.1 hrun
      cases he
      obtain ⟨huses, hcarries⟩ := uses_usesOver hrest
      exact ⟨⟨_, ⟨hp, rfl⟩, huses⟩, _, ⟨rfl, rfl⟩, hcarries⟩
  | d, d', hover, h', (host, .inr area) :: rest, uses, hrun => by
    unfold usesOver at hrun
    split at hrun
    · cases hrun
    · rename_i changed surface hchange
      obtain ⟨⟨more, x, m⟩, hrest, he⟩ := Option.map_eq_some_iff.1 hrun
      cases he
      obtain ⟨huses, hcarries⟩ := uses_usesOver hrest
      exact ⟨⟨_, ⟨hchange, rfl⟩, huses⟩, _, ⟨rfl, rfl⟩, hcarries⟩

/-! ## Times in order -/

omit [DecidableEq K] in
theorem redate_cases (pointer : PointerIdentity) (date : Nat) (u : Use σ K) :
    u.redate pointer date = 0 ∨ u.redate pointer date = date ∨
      u.time? = some (u.redate pointer date) := by
  cases u with
  | process t =>
    rcases t.report.redate_cases pointer.kind t.hit date with hzero | hsame | htime
    · exact .inl hzero
    · exact .inr (.inl hsame)
    · exact .inr (.inr (congrArg some htime.symm))
  | sceneChanged _ _ _ _ after =>
    by_cases hnone : after.hover.deepest pointer.id = none
    · exact .inl (if_pos hnone)
    · exact .inr (.inl (if_neg hnone))
  | detach _ _ _ _ _ | capture _ | setRule _ | disposePointer | dispose => exact .inr (.inl rfl)

omit [DecidableEq K] in
/-- The date of a pointer is the time of a report that was processed, or 0. -/
theorem dateAfter_mem (pointer : PointerIdentity) (uses : List (Use σ K)) :
    dateAfter pointer uses = 0 ∨ dateAfter pointer uses ∈ uses.filterMap Use.time? := by
  induction uses using List.reverseRecOn with
  | nil => exact .inl rfl
  | append_singleton uses u ih =>
    have hlast : dateAfter pointer (uses ++ [u]) = u.redate pointer (dateAfter pointer uses) :=
      List.foldl_concat ..
    rw [hlast, List.filterMap_append, List.mem_append]
    rcases redate_cases pointer (dateAfter pointer uses) u with hzero | hsame | htime
    · exact .inl hzero
    · rw [hsame]
      exact ih.imp_right .inl
    · exact .inr (.inr (List.mem_filterMap.2 ⟨u, List.mem_singleton_self u, htime⟩))

/-- Nothing is told under a later time than that of a report that comes after it. -/
theorem time_le_of_uses (huses : d.Uses (before ++ u :: after) d') (hd : d'.disposed = false)
    (hc : Carries Hover.empty (before ++ u :: after) h)
    (hordered : ((before ++ u :: after).filterMap Use.time?).Pairwise (· ≤ ·)) {time : Nat}
    (htime : u.time? = some time) : ∀ e ∈ before.flatMap Use.news, e.time ≤ time := by
  have hle : ∀ n ∈ before.filterMap Use.time?, n ≤ time := by
    rw [List.filterMap_append, List.filterMap_cons, htime] at hordered
    exact fun n hn => (List.pairwise_append.1 hordered).2.2 n hn time (List.mem_cons_self ..)
  intro e he
  obtain ⟨v, hv, hev⟩ := List.mem_flatMap.1 he
  obtain ⟨first, rest, rfl⟩ := List.append_of_mem hv
  rw [List.append_assoc, List.cons_append] at huses hc
  rw [time_of_uses huses hd hc e hev]
  cases hn : v.time? with
  | some n => exact hle n (List.mem_filterMap.2 ⟨v, hv, hn⟩)
  | none =>
    show dateAfter d.pointer.info first ≤ time
    rcases dateAfter_mem d.pointer.info first with hzero | hmem
    · rw [hzero]
      exact Nat.zero_le time
    · refine hle _ ?_
      rw [List.filterMap_append]
      exact List.mem_append_left _ hmem

/-- A device is in use, and its pointer is over nothing at first. Reports come to it in the order of
their times, and changes of the scene at any moment. Whatever a report has elements told bears its
time, and what anything else has them told bears the date of the pointer, which is 0 or the time of
a report before. Nothing is told under a later time than that of a report that comes after. So the
times of all that is told are in order just if a change of the scene tells nobody anything while the
pointer has an earlier date than something that has been told. -/
theorem deliveries_are_dated (huses : d.Uses uses d') (hd : d'.disposed = false)
    (hc : Carries Hover.empty uses h)
    (hordered : (uses.filterMap Use.time?).Pairwise (· ≤ ·)) :
    (∀ before u after, uses = before ++ u :: after →
      (∀ e ∈ u.news, e.time = u.time?.getD (dateAfter d.pointer.info before)) ∧
      (dateAfter d.pointer.info before = 0 ∨
        dateAfter d.pointer.info before ∈ before.filterMap Use.time?) ∧
      ∀ time, u.time? = some time → ∀ e ∈ before.flatMap Use.news, e.time ≤ time) ∧
    (((uses.flatMap Use.news).map Delivery.time).Pairwise (· ≤ ·) ↔
      ∀ before u after, uses = before ++ u :: after → u.time? = none → u.news ≠ [] →
        ∀ e ∈ before.flatMap Use.news, e.time ≤ dateAfter d.pointer.info before) := by
  refine ⟨?_, ?_⟩
  · rintro before u after rfl
    exact ⟨time_of_uses huses hd hc, dateAfter_mem _ before,
      fun time htime => time_le_of_uses huses hd hc hordered htime⟩
  rw [List.pairwise_map, List.pairwise_flatMap, pairwise_iff_splits]
  constructor
  · rintro ⟨-, hpairs⟩ before u after rfl hnone hnews e he
    obtain ⟨v, hv, he⟩ := List.mem_flatMap.1 he
    obtain ⟨told, htold⟩ := List.exists_mem_of_ne_nil u.news hnews
    have hdate := time_of_uses huses hd hc told htold
    rw [hnone] at hdate
    rw [← show told.time = dateAfter d.pointer.info before from hdate]
    exact hpairs before u after rfl v hv e he told htold
  · intro hscenes
    refine ⟨fun u hu => ?_, ?_⟩
    · -- what is told in one use bears one time
      obtain ⟨before, after, rfl⟩ := List.append_of_mem hu
      have htime := time_of_uses huses hd hc
      exact List.pairwise_of_forall_mem_list fun a ha b hb => by rw [htime a ha, htime b hb]
    · rintro before u after rfl v hv e he told htold
      have hearlier : e ∈ before.flatMap Use.news := List.mem_flatMap.2 ⟨v, hv, he⟩
      rw [time_of_uses huses hd hc told htold]
      cases htime : u.time? with
      | some time => exact time_le_of_uses huses hd hc hordered htime e hearlier
      | none =>
        exact hscenes before u after rfl htime (List.ne_nil_of_mem htold) e hearlier

/-- A mouse moves over `5` at 10 and turns its wheel there at 20. Then `7` is where `5` was, and both
are told of that as if it had been at 10. -/
theorem crossings_go_back_to_ten :
    let d : Device Nat := .ofPointer ⟨1⟩ ⟨⟨1, Nat.one_pos⟩, .mouse, true⟩ .standard
    ∃ (uses : List (Use (Scene Nat) Nat)) (h : Hover Nat) (d' : Device Nat), d.Uses uses d' ∧
      d'.disposed = false ∧ Carries Hover.empty uses h ∧ uses.filterMap Use.time? = [10, 20] ∧
      (uses.flatMap Use.news).map Delivery.time = [10, 10, 20, 10, 10] ∧
      (∀ before u after, uses = before ++ u :: after →
        ∀ e ∈ u.news, e.time = u.time?.getD (dateAfter d.pointer.info before)) ∧
      ∃ before u after, uses = before ++ u :: after ∧ u.time? = none ∧ u.news ≠ [] ∧
        ∃ e ∈ before.flatMap Use.news, dateAfter d.pointer.info before < e.time := by
  intro d
  let showing (n : Nat) : Scene Nat := { root := ⟨1⟩, backdrop := some n }
  let report (kind : ReportKind) (time : Nat) : Report :=
    { kind, device := ⟨1⟩, root := ⟨1⟩, time, position := ⟨1, 2⟩ }
  let deeds : List (Scene Nat × (Report ⊕ Rect)) :=
    [(showing 5, .inl (report .move 10)), (showing 5, .inl (report (.wheel ⟨0, 1⟩) 20)),
      (showing 7, .inr ⟨0, 0, 10, 10⟩)]
  have hcheck : ((d.usesOver 1 Hover.empty deeds).map fun x => (x.1.filterMap Use.time?,
      (x.1.flatMap Use.news).map Delivery.time, x.2.2.disposed)) =
        some ([10, 20], [10, 10, 20, 10, 10], false) := by
    decide +kernel
  obtain ⟨⟨uses, h, d'⟩, hrun, hfacts⟩ := Option.map_eq_some_iff.1 hcheck
  simp only [Prod.mk.injEq] at hfacts
  obtain ⟨hreports, htimes, hused⟩ := hfacts
  obtain ⟨huses, hc⟩ := uses_usesOver hrun
  obtain ⟨hdated, horder⟩ :=
    deliveries_are_dated huses hused hc (by rw [hreports]; decide)
  have hback := mt horder.2 (by rw [htimes]; decide)
  push Not at hback
  exact ⟨uses, h, d', huses, hused, hc, hreports, htimes,
    fun before u after hs => (hdated before u after hs).1, hback⟩

/-- So an element can be told something under a time that no report has had, and earlier than what
it was told before. -/
theorem not_in_order_of_reports : ¬ ∀ (d d' : Device Nat) (uses : List (Use (Scene Nat) Nat))
    (h : Hover Nat) (root : RootId), d.Live → d.Uses uses d' → d'.Live →
    Carries Hover.empty uses h → (∀ u ∈ uses, u.surfaces?.map (·.1.root) = some root) →
    (uses.filterMap Use.time?).Pairwise (· ≤ ·) →
    (∀ before u after, uses = before ++ u :: after →
      ∀ e ∈ u.news, e.time ∈ (before ++ [u]).filterMap Use.time?) ∧
    ((uses.flatMap Use.news).map Delivery.time).Pairwise (· ≤ ·) := by
  intro hinorder
  let d : Device Nat := .ofPointer ⟨1⟩ ⟨⟨1, Nat.one_pos⟩, .mouse, true⟩ .standard
  let scene : Scene Nat := { root := ⟨1⟩, backdrop := some 5 }
  let press : Report :=
    { kind := .down .left, device := ⟨1⟩, root := ⟨1⟩, time := 100, position := ⟨1, 2⟩
      buttons := ⟨1⟩ }
  have hcheck : ((d.usesOver 1 Hover.empty
      [(scene, .inl press), (scene, .inr ⟨0, 0, 10, 10⟩)]).map fun x =>
        (x.1.filterMap Use.time?, (x.1.flatMap Use.news).map Delivery.time,
          x.1.map fun u => u.surfaces?.map (·.1.root), x.2.2.disposed,
          x.2.2.pointer.disposed)) =
        some ([100], [100, 0], [some ⟨1⟩, some ⟨1⟩], false, false) := by
    decide +kernel
  obtain ⟨⟨uses, h, d'⟩, hrun, hfacts⟩ := Option.map_eq_some_iff.1 hcheck
  simp only [Prod.mk.injEq] at hfacts
  obtain ⟨hreports, htimes, hroots, hlive⟩ := hfacts
  obtain ⟨huses, hc⟩ := uses_usesOver hrun
  have hroot : ∀ x ∈ uses.map fun u => u.surfaces?.map (·.1.root), x = some ⟨1⟩ := by
    rw [hroots]
    simp
  have hordered := (hinorder d d' uses h ⟨1⟩ ⟨rfl, rfl⟩ huses hlive hc
    (fun u hu => hroot _ (List.mem_map_of_mem hu)) (by rw [hreports]; decide)).2
  rw [htimes] at hordered
  exact absurd hordered (by decide)

end Device

end PointerRouting
