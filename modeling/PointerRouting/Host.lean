/-
The host of a tree of elements, and the delivery of events to it. A host answers three questions
(its root, the parent of an element, the element at a point) and lets an element respond to an
event, which may change the host in any way. A `Stage` is a host beside the record of all that was
delivered to it; `deliver` and `bubble` are the only ways to reach an element.
-/
import PointerRouting.Event
import PointerRouting.Tree

namespace PointerRouting

/-- What an element answers to an event. -/
inductive Response where
  /-- The event is dealt with and goes no further. -/
  | handled
  /-- The event goes on to the parent. -/
  | passed
  deriving DecidableEq, Inhabited

/-- A host of a tree whose elements are known by keys `K`; `σ` holds its state. -/
class Host (σ : Type) (K : outParam Type) where
  /-- The root the tree belongs to. -/
  root : σ → RootId
  /-- The parent of an element, if it has one. -/
  parentOf : σ → K → Option K
  /-- The uppermost element at a point. -/
  hitTest : σ → Point → Option K
  /-- The answer of an element to an event, and the host after it. -/
  respond : σ → K → Event K → Response × σ

/-- A delivery: which element was told what, and its answer. -/
structure Delivery (K : Type) where
  node : K
  event : Event K
  response : Response
  deriving DecidableEq

/-- A host and the record of the deliveries made to it, oldest first. -/
structure Stage (σ K : Type) where
  host : σ
  log : List (Delivery K) := []

namespace Stage

variable {σ K : Type} [Host σ K]

/-- Tells one element of an event. -/
def deliver (s : Stage σ K) (node : K) (event : Event K) : Response × Stage σ K :=
  let answer := Host.respond s.host node event
  (answer.1, { host := answer.2, log := s.log ++ [{ node, event, response := answer.1 }] })

/-- Tells each event to its own target, in order, whatever the answers. -/
def deliverEach (s : Stage σ K) (events : List (Event K)) : Stage σ K :=
  events.foldl (fun s event => (s.deliver event.target event).2) s

/-- Tells an element of an event, then its parent, and so on until one of them handles it or the
root has passed it on. Each parent is looked up after the element below it has answered. -/
def bubbleFrom (event : Event K) : Nat → K → Stage σ K → Option (Response × Stage σ K)
  | 0, _, _ => none
  | limit + 1, node, s =>
    match s.deliver node event with
    | (.handled, s) => some (.handled, s)
    | (.passed, s) =>
      match Host.parentOf s.host node with
      | none => some (.passed, s)
      | some parent => bubbleFrom event limit parent s

/-- Lets an event bubble from its target; `none` if more than `limit` elements would be told. -/
def bubble (s : Stage σ K) (limit : Nat) (event : Event K) : Option (Response × Stage σ K) :=
  bubbleFrom event limit event.target s

/-! ## Deliveries in sequence -/

theorem deliverEach_cons (s : Stage σ K) (event : Event K) (events : List (Event K)) :
    s.deliverEach (event :: events) = (s.deliver event.target event).2.deliverEach events := rfl

/-- An event that has ended its way up under one limit ends it likewise under a larger one. -/
theorem bubbleFrom_mono (event : Event K) :
    ∀ (limit larger : Nat) (node : K) (s : Stage σ K) (final : Response × Stage σ K),
      limit ≤ larger → bubbleFrom event limit node s = some final →
        bubbleFrom event larger node s = some final
  | 0, _, _, _, _, _, h => by cases h
  | limit + 1, 0, _, _, _, hle, _ => absurd hle (Nat.not_succ_le_zero limit)
  | limit + 1, larger + 1, node, s, final, hle, h => by
    unfold bubbleFrom at h ⊢
    rcases hd : s.deliver node event with ⟨_ | _, t⟩
    · rw [hd] at h; exact h
    · rw [hd] at h
      dsimp only at h ⊢
      rcases hp : Host.parentOf t.host node with _ | parent
      · rw [hp] at h; exact h
      · rw [hp] at h
        exact bubbleFrom_mono event limit larger parent t final (Nat.le_of_succ_le_succ hle) h

end Stage

end PointerRouting
