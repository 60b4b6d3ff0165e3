/-
Runs of a surface. Hovering is changed directly or through the reports of devices, scenes change,
and between all this the host may become another by itself; a run is any list of such happenings
none of which is refused. Whatever happens is a `Change` of the surface, unless it is the host
that becomes another, and a run that begins with an empty tracker keeps it proper. Every surface
that can come about at all (`Reached`), paths stored without telling anybody included, is filed.
-/
import PointerRouting.Proofs.Device.Phases
import PointerRouting.Proofs.Surface.Change

namespace PointerRouting

variable {σ K : Type} [Host σ K]

/-! ## What a device changes -/

namespace Device

variable [DecidableEq K]

theorem change_follow {d : Device K} {limit : Nat} {s t : Surface σ K} {hit : Option K}
    {r : Report} (hf : s.hover.Filed) (h : d.follow limit s hit r = some t) :
    ∃ ds, s.Change ds t := by
  rcases follow_cases h with ⟨-, -, before, hhover⟩ | ⟨-, rfl⟩ | ⟨-, -, rfl⟩
  · exact Surface.change_hoverAt hhover
  · exact Surface.change_endHover hf ..
  · exact ⟨[], t.change_refl⟩

/-- What a report has elements told is an event of its own and then a change of the hovering. -/
theorem change_of_process {d : Device K} {limit : Nat} {s : Surface σ K} {r : Report}
    {handling : Handling σ K} (hf : s.hover.Filed) (h : d.process limit s r = .ok handling) :
    ∃ ds, s.Change ds handling.surface := by
  rcases phases_of_process h with ⟨-, rfl⟩ | ⟨-, -, _, stage, _, hsent, hfollow, rfl⟩
  · exact ⟨[], s.change_refl⟩
  · obtain ⟨ds, hds, hplain⟩ := told_dispatch hsent
    obtain ⟨es, hes⟩ := change_follow (s := { s with toStage := stage }) hf hfollow
    exact ⟨ds ++ es, hes.after_plain hds hplain⟩

theorem change_of_sceneChanged {d : Device K} {limit : Nat} {s t : Surface σ K} {area : Rect}
    {changed : Bool} (h : d.sceneChanged limit s area = some (changed, t)) :
    ∃ ds, s.Change ds t := by
  rcases sceneChanged_cases h with ⟨-, -, rfl⟩ | ⟨_, _, -, hhover, -⟩
  · exact ⟨[], t.change_refl⟩
  · exact Surface.change_hoverAt hhover

end Device

/-! ## Runs -/

/-- What can happen to a surface. A report, or a change of the scene, comes to a device in whatever
state that is in. -/
inductive Happening (σ K : Type) where
  | hoverAt (limit : Nat) (pointer : PointerIdentity) (details : Details) (target : Option K)
  | endHover (id : PointerId) (details : Details)
  | endAllHover
  | detach (element : K)
  | process (device : Device K) (limit : Nat) (report : Report)
  | sceneChanged (device : Device K) (limit : Nat) (area : Rect)
  /-- The host becomes another without being told of an event. -/
  | become (host : σ)

namespace Surface

variable [DecidableEq K]

/-- The surface after a happening, if it is not refused. -/
def after (s : Surface σ K) : Happening σ K → Option (Surface σ K)
  | .hoverAt limit pointer details target => (s.hoverAt limit pointer details target).map (·.2)
  | .endHover id details => some (s.endHover id details)
  | .endAllHover => some s.endAllHover
  | .detach element => some (s.detach element).2
  | .process device limit report => (device.process limit s report).toOption.map (·.surface)
  | .sceneChanged device limit area => (device.sceneChanged limit s area).map (·.2)
  | .become host => some { s with host }

/-- The surface after some happenings, if none of them is refused. -/
def run (s : Surface σ K) (happenings : List (Happening σ K)) : Option (Surface σ K) :=
  happenings.foldlM after s

theorem run_cons {s t : Surface σ K} {happening : Happening σ K}
    {happenings : List (Happening σ K)} : s.run (happening :: happenings) = some t ↔
      ∃ m, s.after happening = some m ∧ m.run happenings = some t := by
  unfold run
  rw [List.foldlM_cons]
  exact Option.bind_eq_some_iff

/-- Whatever happens to a surface is a change of it, or its host becomes another. -/
theorem change_of_after {s t : Surface σ K} {happening : Happening σ K} (hf : s.hover.Filed)
    (h : s.after happening = some t) :
    (∃ host, happening = .become host ∧ t = { s with host }) ∨ ∃ ds, s.Change ds t := by
  cases happening with
  | hoverAt limit pointer details target =>
    obtain ⟨⟨before, surface⟩, hhover, rfl⟩ := Option.map_eq_some_iff.1 h
    exact .inr (change_hoverAt hhover)
  | endHover id details => cases h; exact .inr (change_endHover hf id details)
  | endAllHover => cases h; exact .inr (change_endHoverWhere hf _)
  | detach element => cases h; exact .inr (change_endHoverWhere hf _)
  | process device limit report =>
    obtain ⟨handling, hp, rfl⟩ := Option.map_eq_some_iff.1 h
    rcases hr : device.process limit s report with _ | handling'
    · rw [hr] at hp; cases hp
    · rw [hr] at hp; cases hp
      exact .inr (Device.change_of_process hf hr)
  | sceneChanged device limit area =>
    obtain ⟨⟨changed, surface⟩, hs, rfl⟩ := Option.map_eq_some_iff.1 h
    exact .inr (Device.change_of_sceneChanged hs)
  | become host => cases h; exact .inl ⟨host, rfl, rfl⟩

theorem proper_of_after {s t : Surface σ K} {happening : Happening σ K} (hs : s.hover.Proper)
    (h : s.after happening = some t) : t.hover.Proper := by
  rcases change_of_after hs.toFiled h with ⟨host, -, rfl⟩ | ⟨ds, hds⟩
  · exact hs
  · exact hds.proper hs

/-- A run that begins with a proper tracker ends with one. -/
theorem proper_of_run : ∀ {s t : Surface σ K} {happenings : List (Happening σ K)},
    s.hover.Proper → s.run happenings = some t → t.hover.Proper
  | _, _, [], hs, h => by cases h; exact hs
  | _, _, _ :: _, hs, h => by
    obtain ⟨m, hm, hrest⟩ := run_cons.1 h
    exact proper_of_run (proper_of_after hs hm) hrest

/-! ## Surfaces that can come about -/

/-- The surface has come about from a host and an empty tracker, by happenings and by storing paths
that nobody was told of. -/
inductive Reached : Surface σ K → Prop
  | start (host : σ) : Reached { host }
  | happened {s t : Surface σ K} {happening : Happening σ K} : Reached s →
      s.after happening = some t → Reached t
  | stored {s : Surface σ K} (pointer : PointerIdentity) (details : Details) (path : List K) :
      Reached s → Reached { s with hover := (s.hover.setPath pointer details path).1 }

theorem Reached.run : ∀ {s t : Surface σ K} {happenings : List (Happening σ K)}, s.Reached →
    s.run happenings = some t → t.Reached
  | _, _, [], hs, h => by cases h; exact hs
  | _, _, _ :: _, hs, h => by
    obtain ⟨m, hm, hrest⟩ := run_cons.1 h
    exact (hs.happened hm).run hrest

/-- Storing a path that nobody is told of may spoil that a tracker is proper, but not that it is
filed. -/
theorem Reached.filed {s : Surface σ K} (hs : s.Reached) : s.hover.Filed := by
  induction hs with
  | start host => exact Hover.proper_empty.toFiled
  | happened _ h ih =>
    rcases change_of_after ih h with ⟨host, -, rfl⟩ | ⟨ds, hds⟩
    · exact ih
    · exact hds.filed ih
  | stored pointer details path _ ih => exact ih.setPath pointer details path

end Surface

end PointerRouting
