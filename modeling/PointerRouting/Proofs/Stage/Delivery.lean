/-
Deliveries in sequence. `Told s ds t` says that a stage `s` becomes `t` as the deliveries `ds` are
made one after another; the record of `t` is then that of `s` followed by `ds`, and every host that
was there in between can be read off them. Whatever tells elements of events is such a sequence:
`deliverEach` tells every event to its own target, and a bubbling event is the same all the way up
(`Climb`).
-/
import PointerRouting.Host

namespace PointerRouting

variable {σ K : Type} [Host σ K]

namespace Stage

/-- The stage `s` becomes `t` as these deliveries are made, each answered as it says. -/
def Told : Stage σ K → List (Delivery K) → Stage σ K → Prop
  | s, [], t => s = t
  | s, d :: ds, t =>
    (s.deliver d.node d.event).1 = d.response ∧ Told (s.deliver d.node d.event).2 ds t

theorem told_append : ∀ {s t : Stage σ K} {ds es : List (Delivery K)},
    s.Told (ds ++ es) t ↔ ∃ m, s.Told ds m ∧ m.Told es t
  | _, _, [], es => by simp [Told]
  | _, _, d :: ds, es => by
    simp only [List.cons_append, Told, told_append]
    constructor
    · rintro ⟨h, m, h1, h2⟩; exact ⟨m, ⟨h, h1⟩, h2⟩
    · rintro ⟨m, ⟨h, h1⟩, h2⟩; exact ⟨h, m, h1, h2⟩

theorem Told.append {s m t : Stage σ K} {ds es : List (Delivery K)} (h : s.Told ds m)
    (h' : m.Told es t) : s.Told (ds ++ es) t :=
  told_append.2 ⟨m, h, h'⟩

/-- Where deliveries lead is settled by the stage at which they begin. -/
theorem Told.unique : ∀ {s t t' : Stage σ K} {ds : List (Delivery K)}, s.Told ds t →
    s.Told ds t' → t = t'
  | _, _, _, [], rfl, h => h
  | _, _, _, _ :: _, ⟨_, h⟩, ⟨_, h'⟩ => h.unique h'

/-- The record grows by the deliveries that are made, at its end. -/
theorem Told.log : ∀ {s t : Stage σ K} {ds : List (Delivery K)}, s.Told ds t →
    t.log = s.log ++ ds
  | s, _, [], rfl => (List.append_nil s.log).symm
  | s, t, d :: ds, ⟨hr, h⟩ => by
    have hd : (s.deliver d.node d.event).2.log = s.log ++ [d] := by
      show s.log ++ [⟨d.node, d.event, (s.deliver d.node d.event).1⟩] = s.log ++ [d]
      rw [hr]
    rw [h.log, hd, List.append_assoc]
    rfl

theorem Told.drop_log {s t : Stage σ K} {ds : List (Delivery K)} (h : s.Told ds t) :
    t.log.drop s.log.length = ds := by
  rw [h.log, List.drop_left]

theorem told_deliver (s : Stage σ K) (node : K) (event : Event K) :
    s.Told [⟨node, event, (s.deliver node event).1⟩] (s.deliver node event).2 :=
  ⟨rfl, rfl⟩

/-- Events that are told to their own targets are told in order, each once. -/
theorem told_deliverEach : ∀ (s : Stage σ K) (events : List (Event K)),
    ∃ ds, s.Told ds (s.deliverEach events) ∧
      ds.map (fun d => (d.node, d.event)) = events.map fun e => (e.target, e)
  | s, [] => ⟨[], rfl, rfl⟩
  | s, event :: events => by
    obtain ⟨ds, hds, hmap⟩ := told_deliverEach (s.deliver event.target event).2 events
    exact ⟨_, (told_deliver s event.target event).append hds, by simp [hmap]⟩

/-! ## An event on its way up -/

/-- The deliveries `ds` take an event from an element up the tree, each one to the parent that the
element told before has once it has answered, until the event is handled or no parent is left. -/
inductive Climb (event : Event K) :
    K → Stage σ K → List (Delivery K) → Response → Stage σ K → Prop
  | handled {node : K} {s t : Stage σ K} : s.deliver node event = (.handled, t) →
      Climb event node s [⟨node, event, .handled⟩] .handled t
  | ended {node : K} {s t : Stage σ K} : s.deliver node event = (.passed, t) →
      Host.parentOf t.host node = none →
      Climb event node s [⟨node, event, .passed⟩] .passed t
  | passed {node parent : K} {s m t : Stage σ K} {ds : List (Delivery K)} {response : Response} :
      s.deliver node event = (.passed, m) → Host.parentOf m.host node = some parent →
      Climb event parent m ds response t →
      Climb event node s (⟨node, event, .passed⟩ :: ds) response t

/-- An event that has bubbled to an end has climbed the tree, under whatever limit that was. -/
theorem climb_of_bubbleFrom (event : Event K) : ∀ (limit : Nat) (node : K) {s t : Stage σ K}
    {response : Response}, bubbleFrom event limit node s = some (response, t) →
      ∃ ds, Climb event node s ds response t
  | 0, _, _, _, _, h => by cases h
  | limit + 1, node, s, t, response, h => by
    unfold bubbleFrom at h
    rcases hd : s.deliver node event with ⟨_ | _, m⟩
    · rw [hd] at h
      cases h
      exact ⟨_, .handled hd⟩
    · rw [hd] at h
      dsimp only at h
      rcases hp : Host.parentOf m.host node with _ | parent
      · rw [hp] at h
        cases h
        exact ⟨_, .ended hd hp⟩
      · rw [hp] at h
        obtain ⟨ds, hds⟩ := climb_of_bubbleFrom event limit parent h
        exact ⟨_, .passed hd hp hds⟩

section

variable {event : Event K} {node : K} {s t : Stage σ K} {ds : List (Delivery K)}
  {response : Response}

theorem Climb.told (h : Climb event node s ds response t) : s.Told ds t := by
  induction h with
  | handled hd | ended hd _ => simp [Told, hd]
  | passed hd _ _ ih => simpa [Told, hd] using ih

theorem Climb.event_eq (h : Climb event node s ds response t) : ∀ d ∈ ds, d.event = event := by
  induction h with
  | handled _ | ended _ _ => simp
  | passed _ _ _ ih => simpa using ih

end

/-- A bubbling event is the same for every element that is told of it. -/
theorem told_bubble {s t : Stage σ K} {limit : Nat} {event : Event K} {response : Response}
    (h : s.bubble limit event = some (response, t)) :
    ∃ ds, s.Told ds t ∧ ∀ d ∈ ds, d.event = event := by
  obtain ⟨ds, hds⟩ := climb_of_bubbleFrom event limit event.target h
  exact ⟨ds, hds.told, hds.event_eq⟩

end Stage

/-! ## Relinking -/

/-- One of these deliveries to a host gives `n` another parent. -/
def Relinked (n : K) : σ → List (Delivery K) → Prop
  | _, [] => False
  | host, d :: ds =>
    let next := (Host.respond host d.node d.event).2
    Host.parentOf next n ≠ Host.parentOf host n ∨ Relinked n next ds

instance decidableRelinked [DecidableEq K] (n : K) : ∀ (host : σ) (ds : List (Delivery K)),
    Decidable (Relinked n host ds)
  | _, [] => .isFalse id
  | host, d :: ds =>
    have := decidableRelinked n (Host.respond host d.node d.event).2 ds
    inferInstanceAs (Decidable (_ ∨ _))

theorem links_of_not_relinked {host : σ} {d : Delivery K} {ds : List (Delivery K)}
    (h : ∀ n, ¬ Relinked n host (d :: ds)) :
    let next := (Host.respond host d.node d.event).2
    Host.parentOf next = Host.parentOf host ∧ ∀ n, ¬ Relinked n next ds :=
  ⟨funext fun n => Classical.not_not.1 (not_or.1 (h n)).1, fun n => (not_or.1 (h n)).2⟩

theorem relinked_append {n : K} : ∀ {s m : Stage σ K} {ds es : List (Delivery K)}, s.Told ds m →
    (Relinked n s.host (ds ++ es) ↔ Relinked n s.host ds ∨ Relinked n m.host es)
  | _, _, [], es, rfl => by simp [Relinked]
  | _, _, d :: ds, es, ⟨_, h⟩ => by
    simp only [List.cons_append, Relinked, or_assoc]
    exact or_congr_right (relinked_append h)

/-- An element that no delivery gives another parent has the same one in the end. -/
theorem parentOf_of_not_relinked {n : K} : ∀ {s t : Stage σ K} {ds : List (Delivery K)},
    s.Told ds t → ¬ Relinked n s.host ds → Host.parentOf t.host n = Host.parentOf s.host n
  | _, _, [], rfl, _ => rfl
  | _, _, _ :: _, ⟨_, h⟩, hn => by
    obtain ⟨hfirst, hrest⟩ := not_or.1 hn
    exact (parentOf_of_not_relinked h hrest).trans (Classical.not_not.1 hfirst)

end PointerRouting
