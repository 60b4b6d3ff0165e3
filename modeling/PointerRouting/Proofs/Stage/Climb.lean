/-
How far an event gets on its way up. The parent that is told next is looked up after the element
below it has answered, so an element may cut the very link that the event was to follow. As long as
elements only take links away, the event goes up the lineage that its target had before anybody was
told, one element after another, and ends where it is handled or where a link is gone
(`event_climbs_lineage`). It needs no more steps than the lineage has elements, which is what bounds
the walk: no measure of the tree as it is on the way would do, since that changes under the event.
-/
import PointerRouting.Proofs.Stage.Manner
import PointerRouting.Proofs.Tree.Ancestry
import PointerRouting.Scene

namespace PointerRouting

variable {σ K : Type} [Host σ K]

namespace Stage

variable {event : Event K} {node : K} {s t : Stage σ K} {ds : List (Delivery K)}
  {response : Response} {tree : K → Option K} {limit : Nat} {path : List K}

/-! ## What a climb leaves behind -/

theorem Climb.head? (h : Climb event node s ds response t) :
    ds.head?.map (·.node) = some node := by
  cases h <;> rfl

theorem Climb.ne_nil (h : Climb event node s ds response t) : ds ≠ [] := by
  cases h <;> simp

/-- Whoever is told before the last element has passed the event on. -/
theorem Climb.passed_on (h : Climb event node s ds response t) :
    ∀ d ∈ ds.dropLast, d.response = .passed := by
  induction h with
  | handled _ | ended _ _ => simp
  | passed _ _ hrest ih =>
    rw [List.dropLast_cons_of_ne_nil hrest.ne_nil]
    exact List.forall_mem_cons.2 ⟨rfl, ih⟩

/-- What comes of the event is the answer of the last element, which has no parent any more if it
passed the event on. -/
theorem Climb.getLast? (h : Climb event node s ds response t) :
    ∃ last, ds.getLast? = some last ∧ last.response = response ∧
      (response = .passed → Host.parentOf t.host last.node = none) := by
  induction h with
  | handled _ => exact ⟨_, rfl, rfl, fun hr => by cases hr⟩
  | ended _ hp => exact ⟨_, rfl, rfl, fun _ => hp⟩
  | passed _ _ _ ih =>
    obtain ⟨last, hlast, hrest⟩ := ih
    refine ⟨last, ?_, hrest⟩
    rw [List.getLast?_cons, hlast]
    rfl

/-! ## Where links are only taken away -/

theorem linksIn_deliver {m : Stage σ K} (hs : Host.LinksIn s.host tree)
    (hd : s.deliver node event = (response, m)) : Host.LinksIn m.host tree := by
  have hm : Host.told s.host [(node, event)] = m.host := congrArg (·.2.host) hd
  rw [← hm]
  exact hs.told _

theorem Climb.nodes_prefix (h : Climb event node s ds response t)
    (hs : Host.LinksIn s.host tree) (hl : Tree.lineage tree limit node = some path) :
    ds.map (·.node) <+: path.reverse := by
  induction h generalizing limit path with
  | handled _ | ended _ _ =>
    rcases Tree.lineage_cases hl with ⟨-, rfl⟩ | ⟨_, _, up, -, -, -, rfl⟩ <;> simp
  | passed hd hp _ ih =>
    have hm := linksIn_deliver hs hd
    have hparent := hm [] _ _ hp
    rcases Tree.lineage_cases hl with ⟨hnone, -⟩ | ⟨_, _, up, -, hsome, hup, rfl⟩
    · rw [hparent] at hnone
      cases hnone
    · rw [hparent] at hsome
      cases hsome
      rw [List.reverse_append]
      exact List.cons_prefix_cons.2 ⟨rfl, ih hm hup⟩

/-- A limit that the lineage of an element keeps to is enough for an event that starts there. -/
theorem exists_bubbleFrom (event : Event K) : ∀ {limit : Nat} {node : K} {path : List K}
    {s : Stage σ K}, Host.LinksIn s.host tree → Tree.lineage tree limit node = some path →
      ∃ response t, bubbleFrom event limit node s = some (response, t)
  | 0, _, _, _, _, hl => by cases hl
  | limit + 1, node, path, s, hs, hl => by
    unfold bubbleFrom
    rcases hd : s.deliver node event with ⟨_ | _, m⟩
    · exact ⟨.handled, m, rfl⟩
    · dsimp only
      have hm := linksIn_deliver hs hd
      rcases hp : Host.parentOf m.host node with _ | parent
      · exact ⟨.passed, m, rfl⟩
      · have hparent := hm [] _ _ hp
        rcases Tree.lineage_cases hl with ⟨hnone, -⟩ | ⟨smaller, _, up, hlimit, hsome, hup, -⟩
        · rw [hparent] at hnone
          cases hnone
        · rw [hparent] at hsome
          cases hsome
          cases hlimit
          exact exists_bubbleFrom event hm hup

/-! ## Where everybody passes the event on -/

/-- If everybody passes the event on and no link is changed, it is told to the lineage upward. -/
theorem Climb.eq_of_passed (h : Climb event node s ds response t)
    (hpassed : ∀ d ∈ ds, d.response = .passed) (hs : Host.parentOf s.host = tree)
    (hkept : ∀ n, ¬ Relinked n s.host ds) (hl : Tree.lineage tree limit node = some path) :
    ds = path.reverse.map fun n => ⟨n, event, .passed⟩ := by
  induction h generalizing limit path with
  | handled _ => cases hpassed _ (List.mem_singleton_self _)
  | @ended node s t hd hp =>
    have ht : (Host.respond s.host node event).2 = t.host := congrArg (·.2.host) hd
    obtain ⟨hlinks, -⟩ := links_of_not_relinked hkept
    rw [← ht] at hp
    have hnone : tree node = none := (congrFun (hlinks.trans hs) node).symm.trans hp
    rcases Tree.lineage_cases hl with ⟨-, rfl⟩ | ⟨_, _, _, -, hsome, -, -⟩
    · rfl
    · rw [hnone] at hsome
      cases hsome
  | @passed node parent s m t ds response hd hp _ ih =>
    have hm : (Host.respond s.host node event).2 = m.host := congrArg (·.2.host) hd
    obtain ⟨hlinks, hkept⟩ := links_of_not_relinked hkept
    dsimp only at hlinks hkept
    rw [hm] at hlinks hkept
    have hparent : tree node = some parent := (congrFun (hlinks.trans hs) node).symm.trans hp
    rcases Tree.lineage_cases hl with ⟨hnone, -⟩ | ⟨_, _, up, -, hsome, hup, rfl⟩
    · rw [hparent] at hnone
      cases hnone
    · rw [hparent] at hsome
      cases hsome
      rw [ih (List.forall_mem_cons.1 hpassed).2 (hlinks.trans hs) hkept hup, List.reverse_append]
      rfl

theorem not_relinked_of_fixed {host : σ} (hs : ∀ news, Host.parentOf (Host.told host news) = tree)
    (n : K) : ∀ ds : List (Delivery K), ¬ Relinked n host ds := by
  intro ds
  induction ds generalizing host with
  | nil => exact id
  | cons d ds ih =>
    let next := (Host.respond host d.node d.event).2
    have hnext : ∀ news, Host.parentOf (Host.told next news) = tree := fun news =>
      hs ((d.node, d.event) :: news)
    have hlink : Host.parentOf next n = Host.parentOf host n :=
      congrFun ((hnext []).trans (hs []).symm) n
    exact not_or.2 ⟨not_not_intro hlink, ih hnext⟩

/-- An event that nobody handles comes to the end of the lineage, if no link is ever touched. -/
theorem Climb.nodes_eq (h : Climb event node s ds response t) (hr : response = .passed)
    (hs : ∀ news, Host.parentOf (Host.told s.host news) = tree)
    (hl : Tree.lineage tree limit node = some path) : ds.map (·.node) = path.reverse := by
  obtain ⟨last, hlast, hanswer, -⟩ := h.getLast?
  have hpassed : ∀ d ∈ ds, d.response = .passed := by
    intro d hd
    rw [← List.dropLast_append_getLast? last hlast] at hd
    rcases List.mem_append.1 hd with hd | hd
    · exact h.passed_on d hd
    · rw [List.mem_singleton.1 hd, hanswer, hr]
  rw [h.eq_of_passed hpassed (hs []) (fun n => not_relinked_of_fixed hs n ds) hl, List.map_map]
  exact List.map_id _

theorem bubbleFrom_of_told : ∀ {limit : Nat} {node : K} {path : List K} {s t : Stage σ K},
    Tree.lineage tree limit node = some path → Host.parentOf s.host = tree →
      s.Told (path.reverse.map fun n => ⟨n, event, .passed⟩) t →
      (∀ n, ¬ Relinked n s.host (path.reverse.map fun n => ⟨n, event, .passed⟩)) →
      bubbleFrom event limit node s = some (.passed, t)
  | 0, _, _, _, _, hl, _, _, _ => by cases hl
  | limit + 1, node, path, s, t, hl, hs, ht, hkept => by
    rcases Tree.lineage_cases hl with ⟨hp, rfl⟩ | ⟨smaller, parent, up, hlimit, hp, hup, rfl⟩
    · obtain ⟨hpassed, hend⟩ := ht
      obtain ⟨hlinks, -⟩ := links_of_not_relinked hkept
      unfold bubbleFrom
      rw [show s.deliver node event = (.passed, t) from Prod.ext hpassed hend]
      dsimp only
      rw [← hend, show Host.parentOf (s.deliver node event).2.host = tree from hlinks.trans hs, hp]
    · cases hlimit
      rw [List.reverse_append] at ht hkept
      obtain ⟨hpassed, hrest⟩ := ht
      obtain ⟨hlinks, hkept⟩ := links_of_not_relinked hkept
      have hnext : Host.parentOf (s.deliver node event).2.host = tree := hlinks.trans hs
      unfold bubbleFrom
      rw [show s.deliver node event = (.passed, (s.deliver node event).2) from
        Prod.ext hpassed rfl]
      dsimp only
      rw [hnext, hp]
      exact bubbleFrom_of_told hup hnext hrest hkept

/-- Deliveries that everybody passes on, and by which no link is changed, are what becomes of an
event just if they go to the lineage of the element where it starts, upward. -/
theorem bubbleFrom_eq_iff (hl : Tree.lineage tree limit node = some path)
    (hs : Host.parentOf s.host = tree) (ht : s.Told ds t)
    (hpassed : ∀ d ∈ ds, d.response = .passed) (hkept : ∀ n, ¬ Relinked n s.host ds) :
    bubbleFrom event limit node s = some (.passed, t) ↔
      ds = path.reverse.map fun n => ⟨n, event, .passed⟩ := by
  constructor
  · intro h
    obtain ⟨es, hclimb⟩ := climb_of_bubbleFrom event limit node h
    -- both are what the record has grown by
    have hsame : ds = es := List.append_cancel_left (ht.log.symm.trans hclimb.told.log)
    subst hsame
    exact hclimb.eq_of_passed hpassed hs hkept hl
  · rintro rfl
    exact bubbleFrom_of_told hl hs ht hkept

end Stage

/-- An event bubbles in a tree in which every walk up ends, and the elements told take links away at
most, whatever else they do. It comes to an end, having been told to the elements of a beginning of
the walk from its target up the tree as it was, each of them once and the target first. All but the
last passed it on, the answer of the last is what came of it, and if that passed it on as well it
had no parent left when it had answered. If no link was touched, an event that nobody handled was
told to all that its target lies within. -/
theorem event_climbs_lineage {s : Stage σ K} (hf : Tree.Acyclic (Host.parentOf s.host))
    (hs : Host.LinksIn s.host (Host.parentOf s.host)) (event : Event K) :
    let tree := Host.parentOf s.host
    ∃ path ds response t bound, Tree.PathTo tree (some event.target) path ∧
      (∀ limit, bound ≤ limit → s.bubble limit event = some (response, t)) ∧
      s.Told ds t ∧ (∀ d ∈ ds, d.event = event) ∧
      ds.map (·.node) <+: path.reverse ∧ (ds.map (·.node)).Nodup ∧
      ds.head?.map (·.node) = some event.target ∧
      (∀ d ∈ ds.dropLast, d.response = .passed) ∧
      (∃ last, ds.getLast? = some last ∧ last.response = response ∧
        (response = .passed → Host.parentOf t.host last.node = none)) ∧
      ((∀ news, Host.parentOf (Host.told s.host news) = tree) → response = .passed →
        ds.map (·.node) = path.reverse) := by
  intro tree
  obtain ⟨bound, path, hpath⟩ := hf.lineage event.target
  obtain ⟨response, t, hend⟩ := Stage.exists_bubbleFrom event hs hpath
  obtain ⟨ds, hclimb⟩ := Stage.climb_of_bubbleFrom event bound event.target hend
  have hprefix := hclimb.nodes_prefix hs hpath
  have hnodup := List.nodup_reverse.2 (Tree.nodup_lineage _ _ _ _ hpath)
  refine ⟨path, ds, response, t, bound, ⟨bound, hpath⟩, fun limit hle => ?_, hclimb.told,
    hclimb.event_eq, hprefix, hnodup.sublist hprefix.sublist, hclimb.head?, hclimb.passed_on,
    hclimb.getLast?, fun hsame hr => hclimb.nodes_eq hr hsame hpath⟩
  exact Stage.bubbleFrom_mono event bound limit event.target s (response, t) hle hend

/-! ## Scenes that lose links -/

namespace Scene

variable [DecidableEq K]

omit [Host σ K] in
theorem parentOf_link (s : Scene K) (node : K) (parent : Option K) (n : K) :
    (s.link node parent).parentOf n = if n = node then parent else s.parentOf n := by
  have hlookup : ∀ (child up : K) (links : List (K × K)),
      ((child, up) :: links).lookup n = if n = child then some up else links.lookup n := by
    intro child up links
    rw [List.lookup_cons]
    by_cases hn : n = child
    · simp [hn]
    · rw [beq_false_of_ne hn, if_neg hn]
  have hothers : (s.links.filter (·.1 ≠ node)).lookup n =
      if n = node then none else s.links.lookup n := by
    induction s.links with
    | nil => simp
    | cons link links ih =>
      obtain ⟨child, up⟩ := link
      by_cases hchild : child = node
      · rw [List.filter_cons_of_neg (by simpa using hchild), ih, hlookup, hchild]
        by_cases hn : n = node <;> simp [hn]
      · rw [List.filter_cons_of_pos (by simpa using hchild), hlookup, hlookup, ih]
        by_cases hn : n = child
        · rw [if_pos hn, if_pos hn, if_neg (hn ▸ hchild)]
        · rw [if_neg hn, if_neg hn]
  unfold link parentOf
  cases parent with
  | none => exact hothers
  | some parent =>
    dsimp only
    rw [hlookup, hothers]
    by_cases hn : n = node <;> simp [hn]

/-- Edits that give no element a parent leave the reactions and, of the links, at most those that
were there. -/
theorem foldl_edit : ∀ {edits : List (Edit K)} (s : Scene K),
    (∀ e ∈ edits, ∀ n p, e ≠ .link n (some p)) →
      (edits.foldl edit s).reactions = s.reactions ∧
        ∀ n p, (edits.foldl edit s).parentOf n = some p → s.parentOf n = some p
  | [], _, _ => ⟨rfl, fun _ _ hp => hp⟩
  | e :: edits, s, hedits => by
    obtain ⟨hfirst, hrest⟩ := List.forall_mem_cons.1 hedits
    obtain ⟨hreactions, hlinks⟩ := foldl_edit (s.edit e) hrest
    refine ⟨hreactions.trans (by cases e <;> rfl), fun n p hp => ?_⟩
    have hone := hlinks n p hp
    cases e with
    | link node parent =>
      rw [edit, parentOf_link] at hone
      split at hone
      · exact absurd (congrArg (Edit.link node) hone) (hfirst node p)
      · exact hone
    | backdrop _ | regions _ | handle _ _ | unhandle _ _ => exact hone

theorem linksIn_of_reactions {tree : K → Option K} {s : Scene K}
    (hs : ∀ r ∈ s.reactions, ∀ e ∈ r.edits, ∀ n p, e ≠ .link n (some p))
    (ht : ∀ n p, s.parentOf n = some p → tree n = some p) : Host.LinksIn s tree := by
  intro news
  induction news generalizing s with
  | nil => exact ht
  | cons item news ih =>
    have hedits : ∀ e ∈ s.editsOf item.1 item.2.kind, ∀ n p, e ≠ .link n (some p) := by
      intro e he
      obtain ⟨r, hr, he⟩ := List.mem_flatMap.1 he
      exact hs r (List.mem_filter.1 hr).1 e he
    obtain ⟨hreactions, hlinks⟩ := foldl_edit s hedits
    refine ih (s := (s.editsOf item.1 item.2.kind).foldl edit s) ?_ fun n p hp =>
      ht n p (hlinks n p hp)
    rwa [hreactions]

end Scene

/-- A move is told to `3`, which lies in `2`, in `1`, in `0`. As `2` is told, it leaves `1`, which
would have handled the move; so nobody does. -/
theorem move_climbs_to_two :
    let mouse : PointerIdentity := ⟨⟨1, Nat.one_pos⟩, .mouse, true⟩
    let scene : Scene Nat :=
      { root := ⟨1⟩
        links := [(3, 2), (2, 1), (1, 0)]
        handles := [(1, .moved)]
        reactions := [⟨2, .moved, [.link 2 none, .backdrop (some 5)]⟩] }
    let s : Stage (Scene Nat) Nat := { host := scene }
    let event : Event Nat := ⟨.moved [], 3, mouse, ⟨1⟩, .bare ⟨0, 0⟩ 0⟩
    let tree := Host.parentOf s.host
    Tree.Acyclic tree ∧ Host.LinksIn s.host tree ∧
      (s.bubble 2 event).map (fun (response, t) => (response, t.log.map (·.node))) =
        some (.passed, [3, 2]) ∧
      ∃ path ds response t bound, Tree.PathTo tree (some 3) path ∧
        (∀ limit, bound ≤ limit → s.bubble limit event = some (response, t)) ∧ s.Told ds t ∧
        ds.map (·.node) <+: path.reverse ∧ (∀ d ∈ ds.dropLast, d.response = .passed) ∧
        ∃ last, ds.getLast? = some last ∧ last.response = response ∧
          (response = .passed → Host.parentOf t.host last.node = none) := by
  intro mouse scene s event tree
  have hrank : ∀ n p, tree n = some p → p < n := by
    intro n p hp
    simp only [tree, Host.parentOf, s, scene, Scene.parentOf, List.lookup_cons,
      List.lookup_nil] at hp
    grind
  have hf : Tree.Acyclic tree := Tree.acyclic_of_rank id hrank
  have hs : Host.LinksIn s.host tree := by
    refine Scene.linksIn_of_reactions (fun r hr e he n p => ?_) fun _ _ hp => hp
    rw [List.mem_singleton.1 hr] at he
    rcases List.mem_cons.1 he with rfl | he
    · simp
    · rw [List.mem_singleton.1 he]
      simp
  obtain ⟨path, ds, response, t, bound, hpath, hend, htold, -, hprefix, -, -, hpassed, hlast, -⟩ :=
    event_climbs_lineage hf hs event
  exact ⟨hf, hs, by decide, path, ds, response, t, bound, hpath, hend, htold, hprefix, hpassed,
    hlast⟩

end PointerRouting
