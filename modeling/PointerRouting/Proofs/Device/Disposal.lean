/-
What is left of a device after a disposal. A device that has been disposed of ignores every report.
A device of which only the pointer has been disposed of does not: it goes on as it would with a
fresh pointer of the same identity, except that nobody captures it (`process_of_disposed`). That is
so in every state a device can come to, in which a pointer that has been disposed of has no owner.
-/
import PointerRouting.Proofs.Device.Phases
import PointerRouting.Scene

namespace PointerRouting

variable {σ K : Type}

/-! ## Pointers without an owner -/

namespace Pointer

/-- Nobody has the pointer once it has been disposed of. -/
def Released (p : Pointer K) : Prop := p.disposed = true → p.captured = none

theorem capture_of_disposed {p : Pointer K} (h : p.disposed = true) (target : Option K) :
    (p.capture target).2 = p := by
  rw [capture, if_pos h]

theorem disposed_capture (p : Pointer K) (target : Option K) :
    (p.capture target).2.disposed = p.disposed := by
  unfold capture
  split <;> rfl

theorem Released.capture {p : Pointer K} (h : p.Released) (target : Option K) :
    (p.capture target).2.Released := by
  intro hd
  rw [disposed_capture] at hd
  rw [capture_of_disposed hd]
  exact h hd

theorem Released.dispose {p : Pointer K} (h : p.Released) : p.dispose.Released := by
  intro _
  show (p.capture none).2.captured = none
  unfold Pointer.capture
  split
  · rename_i hd
    exact h hd
  · rfl

end Pointer

/-! ## The states of a device -/

namespace Device

variable [DecidableEq K]

/-- The states a device can come to. -/
inductive Reached : Device K → Prop
  | made (id : DeviceId) (pointer : PointerIdentity) (rule : ClickRule) :
      Reached (ofPointer id pointer rule)
  | processed {σ : Type} [Host σ K] {d : Device K} {limit : Nat} {s : Surface σ K} {r : Report}
      {handling : Handling σ K} : Reached d → d.process limit s r = .ok handling →
      Reached handling.device
  | captured {d : Device K} (target : Option K) : Reached d → Reached (d.capture target).2
  | detached {d d' : Device K} {parentOf : K → Option K} {limit : Nat} {element : K}
      {formerParent : Option K} {changed : Bool} : Reached d →
      d.detach parentOf limit element formerParent = some (changed, d') → Reached d'
  | ruled {d : Device K} (rule : ClickRule) : Reached d → Reached (d.setRule rule)
  | pointerDisposed {d : Device K} : Reached d → Reached d.disposePointer
  | disposed {d : Device K} : Reached d → Reached d.dispose

omit [DecidableEq K] in
theorem released_next {d : Device K} (h : d.pointer.Released) (hit : Option K) (r : Report) :
    (d.next hit r).pointer.Released := by
  unfold next
  split
  · exact h.capture _
  · exact h.capture none
  · exact h
  · exact h

theorem Reached.released {d : Device K} (h : d.Reached) : d.pointer.Released := by
  induction h with
  | made id pointer rule => exact fun hd => by cases hd
  | @processed σ _ d limit s r handling _ hp ih =>
    rcases device_of_process hp with ⟨-, he⟩ | ⟨-, he⟩
    · rw [he]
      exact ih
    · -- a press or a release may have handed the pointer on
      rw [he]
      exact released_next ih _ r
  | captured target _ ih => exact ih.capture target
  | detached _ hd ih =>
    obtain ⟨⟨changed, pointer⟩, hp, he⟩ := Option.map_eq_some_iff.1 hd
    cases he
    rcases Pointer.detach_cases hp with rfl | rfl
    · exact ih
    · exact ih.capture _
  | ruled rule _ ih => exact ih
  | pointerDisposed _ ih => exact ih.dispose
  | disposed _ ih => exact ih.dispose

end Device

/-! ## A fresh pointer in place of one that has been disposed of -/

/-- The handling of a report with another pointer given to the device. -/
def Handling.withPointer (h : Handling σ K) (pointer : Pointer K) : Handling σ K :=
  { h with device := { h.device with pointer } }

namespace Device

/-- The device with a fresh pointer of the same identity. -/
def renewed (d : Device K) : Device K := { d with pointer := { info := d.pointer.info } }

theorem next_renewed {d : Device K} (hp : d.pointer.disposed = true) (hit : Option K)
    (r : Report) : { d.renewed.next hit r with pointer := d.pointer } = d.next hit r := by
  have hcapture : ∀ target, (d.pointer.capture target).2 = d.pointer :=
    Pointer.capture_of_disposed hp
  unfold next grasped Device.capture
  cases r.action with
  | press button =>
    rcases hit with _ | target
    · rfl
    · simp only [placed, hcapture]
      rfl
  | release button =>
    simp only [placed, hcapture]
    rfl
  | move | send _ | leave => rfl

variable [DecidableEq K] [Host σ K]

/-- A device of which only the pointer has been disposed of does with a report what it would do with
a fresh one. -/
theorem perform_renewed {d : Device K} (hp : d.pointer.disposed = true)
    (hfree : d.pointer.captured = none) (limit : Nat) (s : Surface σ K) (r : Report) :
    d.perform limit s r = (d.renewed.perform limit s r).map (·.withPointer d.pointer) := by
  -- the pointer is looked at for its owner and its identity, which are those of a fresh one
  have hmessage : ∀ hit, d.message hit r = d.renewed.message hit r := by
    intro hit
    unfold message
    rw [hfree]
    rfl
  have hdispatch : d.dispatch limit s.toStage r = d.renewed.dispatch limit s.toStage r := by
    unfold dispatch
    rw [hmessage]
    rfl
  have hfollow : ∀ (a : Surface σ K) hit,
      d.follow limit a hit r = d.renewed.follow limit a hit r := fun _ _ => rfl
  rw [perform_eq, perform_eq, hdispatch]
  rcases d.renewed.dispatch limit s.toStage r with _ | ⟨outcome, stage⟩
  · rfl
  · simp only [Option.bind_some, Option.map_map, hfollow]
    congr 1
    funext surface
    rw [← next_renewed hp]
    rfl

/-- In every state that a device can come to in which its pointer has been disposed of, it ignores
every report if the device has been disposed of as well. If it has not, it does with every report
what it would do with a fresh pointer, and the pointer stays as it is, without an owner. -/
theorem process_of_disposed {d : Device K} (hd : d.Reached) (hp : d.pointer.disposed = true)
    (limit : Nat) (s : Surface σ K) (r : Report) :
    (d.disposed = true → d.process limit s r = .ok ⟨.stale, d, s⟩) ∧
    (d.disposed = false → d.pointer.captured = none ∧
      d.process limit s r = (d.renewed.process limit s r).map (·.withPointer d.pointer)) := by
  constructor
  · intro hdisposed
    rw [process, if_pos hdisposed]
  · intro hdisposed
    have hfree := hd.released hp
    refine ⟨hfree, ?_⟩
    have hlive : d.renewed.disposed = false := hdisposed
    unfold process
    rw [hdisposed, hlive, perform_renewed hp hfree]
    split
    · contradiction
    · split
      · rfl
      · rcases d.renewed.perform limit s r with _ | handling
        · rfl
        · rfl

/-- A device of which only the pointer has been disposed of has a move told to the element under
it, which the pointer then comes to be over. -/
theorem disposed_pointer_moves_over_five :
    let d : Device Nat :=
      (ofPointer ⟨1⟩ ⟨⟨1, Nat.one_pos⟩, .mouse, true⟩ .standard : Device Nat).disposePointer
    let s : Surface (Scene Nat) Nat := { host := { root := ⟨1⟩, backdrop := some 5 } }
    let r : Report := { kind := .move, device := ⟨1⟩, root := ⟨1⟩, time := 0, position := ⟨0, 0⟩ }
    d.Reached ∧ d.pointer.disposed = true ∧ d.disposed = false ∧
      ((d.process 1 s r).toOption.map fun h =>
        (h.outcome, h.surface.log.map fun e => (e.node, e.event.kind))) =
          some (.routed .moved 5 false, [(5, .moved), (5, .enter)]) ∧
      d.process 1 s r = (d.renewed.process 1 s r).map (·.withPointer d.pointer) := by
  intro d s r
  have hreached : d.Reached := .pointerDisposed (.made _ _ _)
  obtain ⟨-, hprocess⟩ := (process_of_disposed hreached rfl 1 s r).2 rfl
  refine ⟨hreached, rfl, rfl, ?_, hprocess⟩
  decide +kernel

/-- So not every device whose pointer has been disposed of ignores what is reported of it. -/
theorem not_stale_of_disposed_pointer : ¬ ∀ d : Device Nat, d.Reached →
    d.pointer.disposed = true → ∀ (limit : Nat) (s : Surface (Scene Nat) Nat) (r : Report),
      s.root = r.root → d.process limit s r = .ok ⟨.stale, d, s⟩ := by
  intro hignores
  let d : Device Nat :=
    (ofPointer ⟨1⟩ ⟨⟨1, Nat.one_pos⟩, .mouse, true⟩ .standard : Device Nat).disposePointer
  let s : Surface (Scene Nat) Nat := { host := { root := ⟨1⟩, backdrop := some 5 } }
  let r : Report := { kind := .move, device := ⟨1⟩, root := ⟨1⟩, time := 0, position := ⟨0, 0⟩ }
  have hstale : d.process 1 s r = .ok ⟨.stale, d, s⟩ :=
    hignores d (.pointerDisposed (.made _ _ _)) rfl 1 s r rfl
  have hrouted : (d.process 1 s r).toOption.map (·.outcome) = some (.routed .moved 5 false) := by
    decide +kernel
  rw [hstale] at hrouted
  cases hrouted

end Device

end PointerRouting
