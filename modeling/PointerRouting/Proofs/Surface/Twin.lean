/-
Two surfaces whose hosts have one layout and may answer as they please. What is stored for the
pointers and what the elements are told of arrivals and departures is the same on both (`Twins`),
and stays the same through whatever is done to both: an answer that stops an event on its way up
shows in the record of the other deliveries and in whether the event counts as handled, and nowhere
else.
-/
import PointerRouting.Proofs.Stage.Manner
import PointerRouting.Proofs.Surface.Run
import PointerRouting.Proofs.Device.Phases

namespace PointerRouting

variable {σ τ K : Type}

/-! ## Surfaces -/

/-- The arrivals and departures that deliveries tell of, each with the element told. -/
def allCrossings (log : List (Delivery K)) : List (K × Event K) :=
  (log.map fun d => (d.node, d.event)).filter fun x => x.2.payload = .enter ∨ x.2.payload = .leave

theorem allCrossings_append (log more : List (Delivery K)) :
    allCrossings (log ++ more) = allCrossings log ++ allCrossings more := by
  simp [allCrossings]

/-- Events of other kinds count for nothing among the arrivals and departures. -/
theorem allCrossings_plain {ds : List (Delivery K)}
    (h : ∀ d ∈ ds, d.event.payload ≠ .enter ∧ d.event.payload ≠ .leave) : allCrossings ds = [] := by
  rw [allCrossings, List.filter_eq_nil_iff]
  intro x hx
  obtain ⟨d, hd, rfl⟩ := List.mem_map.1 hx
  simp [h d hd]

/-- The outcome with nothing said about whether the event was handled. -/
def Outcome.mute : Outcome K → Outcome K
  | .routed kind target _ => .routed kind target false
  | outcome => outcome

variable [Host σ K] [Host τ K]

namespace Surface

/-- The surfaces have the layout `l`, store the same for every pointer, and have told the same
elements of the same arrivals and departures. -/
structure Twins (l : Layout K) (a : Surface σ K) (b : Surface τ K) : Prop where
  left : Host.Keeps a.host l
  right : Host.Keeps b.host l
  hover : a.hover = b.hover
  crossings : allCrossings a.log = allCrossings b.log

variable {l : Layout K} {a a' : Surface σ K} {b b' : Surface τ K}

/-- Twins stay twins as elements are told of the same arrivals and departures on both, whatever else
they are told of on either. -/
theorem Twins.told (h : Twins l a b) {s : Stage σ K} {t : Stage τ K} {ds es : List (Delivery K)}
    (hs : a.Told ds s) (ht : b.Told es t) (hsame : allCrossings ds = allCrossings es) :
    Twins l { a with toStage := s } { b with toStage := t } where
  left := by
    show Host.Keeps s.host l
    rw [hs.host]
    exact h.left.told _
  right := by
    show Host.Keeps t.host l
    rw [ht.host]
    exact h.right.told _
  hover := h.hover
  crossings := by
    show allCrossings s.log = allCrossings t.log
    rw [hs.log, ht.log, allCrossings_append, allCrossings_append, h.crossings, hsame]

theorem Twins.setHover (h : Twins l a b) (hover : Hover K) :
    Twins l { a with hover } { b with hover } :=
  { h with hover := rfl }

theorem Twins.root (h : Twins l a b) : a.root = b.root := by
  show Host.root a.host = Host.root b.host
  rw [h.left.root, h.right.root]

theorem Twins.pathTo (h : Twins l a b) (limit : Nat) (target : Option K) :
    a.pathTo limit target = b.pathTo limit target := by
  unfold Surface.pathTo
  rw [h.left.parentOf, h.right.parentOf]

theorem Twins.announce (h : Twins l a b) (pointer : PointerIdentity) (details : Details)
    (transitions : List (Transition K)) :
    Twins l (a.announce pointer details transitions) (b.announce pointer details transitions) := by
  obtain ⟨ds, hds, hann⟩ := a.announces_announce pointer details transitions
  obtain ⟨es, hes, hann'⟩ := b.announces_announce pointer details transitions
  refine h.told hds hes ?_
  unfold Surface.Announces at hann hann'
  rw [allCrossings, allCrossings, hann, hann', h.root]

theorem Twins.endHover (h : Twins l a b) (id : PointerId) (details : Details) :
    Twins l (a.endHover id details) (b.endHover id details) := by
  unfold Surface.endHover
  rw [← h.hover]
  rcases a.hover.entries[id]? with _ | entry
  · exact h
  · exact (h.setHover (a.hover.forget id)).announce entry.pointer details _

theorem Twins.endHoverWhere (h : Twins l a b) (test : HoverEntry K → Bool) :
    Twins l (a.endHoverWhere test) (b.endHoverWhere test) := by
  have hall : ∀ (entries : List (HoverEntry K)) {a : Surface σ K} {b : Surface τ K}, Twins l a b →
      Twins l (entries.foldl (fun s entry => s.announceLeave entry entry.details) a)
        (entries.foldl (fun s entry => s.announceLeave entry entry.details) b) := by
    intro entries
    induction entries with
    | nil => exact fun h => h
    | cons entry entries ih => exact fun h => ih (h.announce entry.pointer entry.details _)
  unfold Surface.endHoverWhere
  rw [← h.hover]
  exact hall _ (h.setHover _)

variable [DecidableEq K]

/-- Twins stay twins as a pointer is put over an element, and it was over the same one on both. -/
theorem Twins.hoverAt (h : Twins l a b) {limit : Nat} {pointer : PointerIdentity}
    {details : Details} {target before before' : Option K}
    (ha : a.hoverAt limit pointer details target = some (before, a'))
    (hb : b.hoverAt limit pointer details target = some (before', b')) :
    before = before' ∧ Twins l a' b' := by
  obtain ⟨rfl, ha⟩ := hoverAt_cases ha
  obtain ⟨rfl, hb⟩ := hoverAt_cases hb
  rw [← h.hover] at hb ⊢
  refine ⟨rfl, ?_⟩
  rcases ha with ⟨hsame, rfl⟩ | ⟨hother, path, hpath, rfl⟩
  · rcases hb with ⟨-, rfl⟩ | ⟨hother, -⟩
    · exact h.setHover _
    · exact absurd hsame hother
  · rcases hb with ⟨hsame, -⟩ | ⟨-, path', hpath', rfl⟩
    · exact absurd hsame hother
    · rw [← h.pathTo, hpath] at hpath'
      cases hpath'
      exact (h.setHover _).announce pointer details _

end Surface

/-! ## Devices -/

namespace Device

variable {l : Layout K} {a : Surface σ K} {b : Surface τ K} {d : Device K} {limit : Nat}
  {r : Report}

/-- An event may be handled at different elements of twins and so bubble to different heights. It is
neither an arrival nor a departure, so they stay twins. -/
theorem twins_dispatch (h : a.Twins l b) {o o' : Outcome K} {s : Stage σ K} {t : Stage τ K}
    (ha : d.dispatch limit a.toStage r = some (o, s))
    (hb : d.dispatch limit b.toStage r = some (o', t)) :
    o.mute = o'.mute ∧ Surface.Twins l { a with toStage := s } { b with toStage := t } := by
  rcases dispatch_cases ha with ⟨hm, rfl, rfl⟩ | ⟨payload, target, response, hm, hbubble, rfl⟩ <;>
    rcases dispatch_cases hb with
      ⟨hm', rfl, rfl⟩ | ⟨payload', target', response', hm', hbubble', rfl⟩ <;>
    rw [h.left.hitTest] at hm <;> rw [h.right.hitTest, hm] at hm' <;> cases hm'
  · exact ⟨rfl, h⟩
  · have hplain := message_plain hm
    obtain ⟨ds, hds, hevent⟩ := Stage.told_bubble hbubble
    obtain ⟨es, hes, hevent'⟩ := Stage.told_bubble hbubble'
    refine ⟨rfl, h.told hds hes ?_⟩
    rw [allCrossings_plain fun e he => by rwa [hevent e he],
      allCrossings_plain fun e he => by rwa [hevent' e he]]

variable [DecidableEq K]

theorem twins_follow (h : a.Twins l b) {hit : Option K} {a' : Surface σ K} {b' : Surface τ K}
    (ha : d.follow limit a hit r = some a') (hb : d.follow limit b hit r = some b') :
    a'.Twins l b' := by
  unfold follow at ha hb
  cases hr : r.action with
  | move =>
    rw [hr] at ha hb
    dsimp only at ha hb
    split at ha
    · rename_i htouch
      rw [if_pos htouch] at hb
      cases ha
      cases hb
      exact h
    · rename_i htouch
      rw [if_neg htouch] at hb
      obtain ⟨⟨before, a'⟩, hhover, rfl⟩ := Option.map_eq_some_iff.1 ha
      obtain ⟨⟨before', b'⟩, hhover', rfl⟩ := Option.map_eq_some_iff.1 hb
      exact (h.hoverAt hhover hhover').2
  | leave =>
    rw [hr] at ha hb
    cases ha
    cases hb
    exact h.endHover _ _
  | press _ | release _ | send _ =>
    rw [hr] at ha hb
    cases ha
    cases hb
    exact h

/-- What comes of a report on twins differs at most in whether the event was handled. -/
theorem twins_perform (h : a.Twins l b) {x : Handling σ K} {y : Handling τ K}
    (ha : d.perform limit a r = some x) (hb : d.perform limit b r = some y) :
    x.outcome.mute = y.outcome.mute ∧ x.device = y.device ∧ x.surface.Twins l y.surface := by
  rw [perform_eq] at ha hb
  obtain ⟨⟨o, s⟩, hsent, ha⟩ := Option.bind_eq_some_iff.1 ha
  obtain ⟨⟨o', t⟩, hsent', hb⟩ := Option.bind_eq_some_iff.1 hb
  obtain ⟨a', hfollow, rfl⟩ := Option.map_eq_some_iff.1 ha
  obtain ⟨b', hfollow', rfl⟩ := Option.map_eq_some_iff.1 hb
  obtain ⟨hmute, hsurface⟩ := twins_dispatch h hsent hsent'
  rw [h.left.hitTest] at hfollow ⊢
  rw [h.right.hitTest] at hfollow' ⊢
  exact ⟨hmute, rfl, twins_follow hsurface hfollow hfollow'⟩

/-- A change of the scene has the same answer on twins. -/
theorem twins_sceneChanged (h : a.Twins l b) {area : Rect} {changed changed' : Bool}
    {a' : Surface σ K} {b' : Surface τ K} (ha : d.sceneChanged limit a area = some (changed, a'))
    (hb : d.sceneChanged limit b area = some (changed', b')) :
    changed = changed' ∧ a'.Twins l b' := by
  unfold sceneChanged at ha hb
  rw [← h.root, ← h.hover, h.right.hitTest] at hb
  rw [h.left.hitTest] at ha
  rcases hp : d.hoverPosition a.root area with _ | position
  · rw [hp] at ha hb
    cases ha
    cases hb
    exact ⟨rfl, h⟩
  · rw [hp] at ha hb
    obtain ⟨⟨before, c⟩, hhover, hea⟩ := Option.map_eq_some_iff.1 ha
    obtain ⟨⟨before', c'⟩, hhover', heb⟩ := Option.map_eq_some_iff.1 hb
    obtain ⟨rfl, htwins⟩ := h.hoverAt hhover hhover'
    cases hea
    cases heb
    exact ⟨rfl, htwins⟩

end Device

end PointerRouting
