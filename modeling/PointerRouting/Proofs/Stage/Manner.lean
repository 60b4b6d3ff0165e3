/-
What telling leaves as it is. A host `Keeps` a layout if nothing that its elements are told of
changes its root, its links or what is hit, and is `Steady` if that holds also of what they answer;
what they do to the rest of its state is their own affair. A steady host answers like the host that
has no state and is its `Manner`. Of a host that has `LinksIn` a tree the elements may take links
away, but add none. All these hosts stay what they are through any deliveries.
-/
import PointerRouting.Proofs.Stage.Delivery

namespace PointerRouting

/-! ## Layouts and manners -/

/-- What a host answers to the questions asked of it. -/
structure Layout (K : Type) where
  root : RootId
  parentOf : K → Option K
  hitTest : Point → Option K

/-- A layout, and what the elements answer to events. -/
structure Manner (K : Type) extends Layout K where
  answer : K → Event K → Response

/-- A manner is a host by itself. -/
instance (K : Type) : Host (Manner K) K where
  root m := m.root
  parentOf m := m.parentOf
  hitTest m := m.hitTest
  respond m n e := (m.answer n e, m)

variable {σ K : Type} [Host σ K]

namespace Host

def layout (h : σ) : Layout K := ⟨root h, parentOf h, hitTest h⟩

def manner (h : σ) : Manner K := { layout h with answer := fun n e => (respond h n e).1 }

/-! ## What is kept -/

/-- The host after its elements have been told of some events. -/
def told (h : σ) (news : List (K × Event K)) : σ :=
  news.foldl (fun h item => (respond h item.1 item.2).2) h

/-- Whatever its elements are told of, the host has this layout. -/
def Keeps (h : σ) (l : Layout K) : Prop := ∀ news, layout (told h news) = l

/-- Whatever its elements are told of, every parent link is one of this tree: none is added and none
leads elsewhere, but any may be taken away. -/
def LinksIn (h : σ) (tree : K → Option K) : Prop :=
  ∀ news n p, parentOf (told h news) n = some p → tree n = some p

/-- Nothing that its elements are told of changes the layout, nor what they answer. -/
def Steady (h : σ) : Prop := ∀ news, manner (told h news) = manner h

variable {h : σ} {l : Layout K}

theorem told_append (h : σ) (news more : List (K × Event K)) :
    told h (news ++ more) = told (told h news) more :=
  List.foldl_append

theorem Keeps.told (hk : Keeps h l) (news : List (K × Event K)) : Keeps (told h news) l := by
  intro more
  rw [← told_append]
  exact hk _

theorem Keeps.root (hk : Keeps h l) : root h = l.root := congrArg Layout.root (hk [])

theorem Keeps.parentOf (hk : Keeps h l) : parentOf h = l.parentOf :=
  congrArg Layout.parentOf (hk [])

theorem Keeps.hitTest (hk : Keeps h l) : hitTest h = l.hitTest := congrArg Layout.hitTest (hk [])

/-- Elements that leave the links as they are add none to them. -/
theorem Keeps.linksIn (hk : Keeps h l) : LinksIn h l.parentOf := by
  intro news n p hp
  rwa [(hk.told news).parentOf] at hp

theorem LinksIn.told {tree : K → Option K} (hl : LinksIn h tree) (news : List (K × Event K)) :
    LinksIn (told h news) tree := by
  intro more
  rw [← told_append]
  exact hl _

/-- A steady host is steady whatever its elements have been told of. -/
theorem Steady.told (hs : Steady h) (news : List (K × Event K)) : Steady (told h news) := by
  intro more
  rw [← told_append, hs, hs]

theorem Steady.keeps (hs : Steady h) : Keeps h (layout h) :=
  fun news => congrArg Manner.toLayout (hs news)

theorem Steady.respond (hs : Steady h) (n : K) (e : Event K) :
    Steady (respond h n e).2 ∧ manner (Host.respond h n e).2 = manner h :=
  ⟨hs.told [(n, e)], hs [(n, e)]⟩

/-- A host whose elements do nothing to it is steady. -/
theorem steady_of_respond (hsame : ∀ n e, (respond h n e).2 = h) : Steady h := by
  have hstay : ∀ news, Host.told h news = h := by
    intro news
    induction news with
    | nil => rfl
    | cons item news ih =>
      change Host.told (Host.respond h item.1 item.2).2 news = h
      rw [hsame, ih]
  intro news
  rw [hstay]

end Host

/-- The host at the end of some deliveries. -/
theorem Stage.Told.host : ∀ {s t : Stage σ K} {ds : List (Delivery K)}, s.Told ds t →
    t.host = Host.told s.host (ds.map fun d => (d.node, d.event))
  | _, _, [], rfl => rfl
  | _, _, _ :: _, ⟨_, h⟩ => h.host

end PointerRouting
