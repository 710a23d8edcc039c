import Mathlib.Data.List.Induction
import Mathlib.Data.List.Nodup
import PatternQuery.Proofs.Statement.Contributions

/-!
# The relations of a statement

Each contribution goes in once (`Diagram.nodup_contributions`), and the lemmas `mem_contributions_*`
say which ones do. In a statement about a node of the query, the relations start at the root or at
the target of a relation that is matched (`Shape.source_of_hop`), those in `NOT` clauses included.
-/

namespace PatternQuery

theorem nodup_eraseDups {α : Type} [DecidableEq α] (l : List α) : l.eraseDups.Nodup := by
  induction l using List.reverseRecOn with
  | nil => simp
  | append_singleton l a ih =>
    rw [eraseDups_concat]
    split
    · exact ih
    · rename_i h
      refine List.nodup_append.2 ⟨ih, by simp, ?_⟩
      rintro b hb b' hb' rfl
      rw [List.mem_singleton.1 hb'] at hb
      exact h (List.mem_eraseDups.1 hb)

theorem nodup_mapIdx {α β : Type} {f : Nat → α → β} (hf : ∀ i j a b, f i a = f j b → i = j)
    (l : List α) : (l.mapIdx f).Nodup := by
  rw [List.Nodup, List.pairwise_iff_getElem]
  intro i j hi hj hlt e
  rw [List.getElem_mapIdx, List.getElem_mapIdx] at e
  have := hf i j _ _ e
  omega

namespace Diagram

open Contribution

variable {d : Diagram} {target : NodeId} {needed : Bool} {links : List Link} {n r : Node} {x : Hop}

theorem mem_hops : x ∈ d.hops links ↔ x.link ∈ links ∧ d.hop? x.link = some x := by
  rw [hops, List.mem_filterMap]
  constructor
  · rintro ⟨l, hl, hx⟩
    obtain rfl := (hop?_eq_some.1 hx).1
    exact ⟨hl, hx⟩
  · rintro ⟨hl, hx⟩
    exact ⟨x.link, hl, hx⟩

/-! ## What goes in -/

theorem nodup_contributions : (d.contributions target needed links).Nodup := by
  unfold contributions
  split
  · exact List.nodup_nil
  · exact nodup_eraseDups _

theorem mem_selectionOf {c : Contribution} : c ∈ selectionOf target needed n ↔
    c = selection n ∧ n.id ≠ target ∧ (needed = true ∨ n.immutable = true) := by
  unfold selectionOf
  by_cases hid : n.id = target
  · simp [hid]
  · cases needed <;> cases himm : n.immutable <;> simp [hid]

theorem mem_contributions (hr : d.root? = some r) {c : Contribution} :
    c ∈ d.contributions target needed links ↔ c = standing r ∨ c ∈ selectionOf target needed r ∨
      ∃ x ∈ d.hops links, c ∈ d.contributionsOf target needed x := by
  simp only [contributions, hr, List.mem_eraseDups, List.mem_append, List.mem_cons,
    List.mem_flatMap, or_assoc]

theorem mem_contributionsOf {c : Contribution} : c ∈ d.contributionsOf target needed x ↔
    c = standing x.source ∨ (d.excludes target x = true ∧ c = negation x) ∨
      (d.excludes target x = false ∧ (c = relation x ∨ c = standing x.target)) ∨
      c ∈ selectionOf target needed x.target := by
  cases he : d.excludes target x <;> simp [contributionsOf, he, or_assoc]

theorem mem_contributions_negation (hr : d.root? = some r) :
    negation x ∈ d.contributions target needed links ↔
      x ∈ d.hops links ∧ d.excludes target x = true := by
  simp only [mem_contributions hr, mem_contributionsOf, mem_selectionOf, reduceCtorEq, false_and,
    false_or, and_false, or_false, negation.injEq]
  constructor
  · rintro ⟨y, hy, he, rfl⟩
    exact ⟨hy, he⟩
  · rintro ⟨hx, he⟩
    exact ⟨x, hx, he, rfl⟩

theorem mem_contributions_selection (hr : d.root? = some r) :
    selection n ∈ d.contributions target needed links ↔
      (n = r ∨ ∃ x ∈ d.hops links, n = x.target) ∧ n.id ≠ target ∧
        (needed = true ∨ n.immutable = true) := by
  simp only [mem_contributions hr, mem_contributionsOf, mem_selectionOf, reduceCtorEq, false_or,
    and_false, or_false, selection.injEq]
  constructor
  · rintro (⟨rfl, h⟩ | ⟨x, hx, rfl, h⟩)
    · exact ⟨.inl rfl, h⟩
    · exact ⟨.inr ⟨x, hx, rfl⟩, h⟩
  · rintro ⟨rfl | ⟨x, hx, rfl⟩, h⟩
    · exact .inl ⟨rfl, h⟩
    · exact .inr ⟨x, hx, rfl, h⟩

theorem Shape.root_mem (h : d.Shape) (hr : d.root? = some r) : r ∈ d.nodes := by
  rw [h.root?_eq_head?] at hr
  exact List.mem_of_head? hr

theorem kind_of_root? (hr : d.root? = some r) : r.kind = .root := by
  simpa [Node.isRoot] using (Option.filter_eq_some_iff.1 hr).2

/-- There is one root. -/
theorem Shape.eq_root (h : d.Shape) (hr : d.root? = some r) (hn : n ∈ d.nodes)
    (hk : n.kind = .root) : n = r := by
  obtain ⟨r', rest, hd⟩ := List.exists_cons_of_ne_nil (List.ne_nil_of_mem hn)
  rw [h.root?_eq_head?, hd, List.head?_cons, Option.some_inj] at hr
  have hrest := h.rootFirst n
  rw [hd, List.tail_cons] at hrest
  rw [hd] at hn
  rcases List.mem_cons.1 hn with rfl | hn
  · exact hr
  · exact absurd hk (hrest hn)

theorem Shape.not_below_root (h : d.Shape) (hr : d.root? = some r) {id : NodeId} :
    ¬ d.Below r.id id := by
  intro hb
  obtain ⟨p, ⟨m, hm, hid, hp⟩, -⟩ := Relation.TransGen.head'_iff.1 hb
  rw [h.eq_of_id_eq hm (h.root_mem hr) hid,
    (h.parent_eq_none_iff r (h.root_mem hr)).2 (kind_of_root? hr)] at hp
  simp at hp

/-- A relation of the diagram, with the nodes that it joins. -/
def IsHop (d : Diagram) (x : Hop) : Prop := x.link ∈ d.relationLinks ∧ d.hop? x.link = some x

theorem IsHop.source_mem (hx : d.IsHop x) : x.source ∈ d.nodes :=
  mem_of_node? (hop?_eq_some.1 hx.2).2.1

theorem IsHop.source_id (hx : d.IsHop x) : x.source.id = x.link.source :=
  id_of_node? (hop?_eq_some.1 hx.2).2.1

theorem IsHop.target_mem (hx : d.IsHop x) : x.target ∈ d.nodes :=
  mem_of_node? (hop?_eq_some.1 hx.2).2.2

theorem IsHop.target_id (hx : d.IsHop x) : x.target.id = x.link.target :=
  id_of_node? (hop?_eq_some.1 hx.2).2.2

theorem Shape.hangsFrom_of_hop (h : d.Shape) (hx : d.IsHop x) :
    d.HangsFrom x.target.id x.source.id := by
  rw [hx.target_id, hx.source_id]
  exact h.hangsFrom_of_link (mem_relationLinks.1 hx.1).1

theorem Shape.kind_of_hop (h : d.Shape) (hx : d.IsHop x) :
    x.source.kind ≠ .value ∧ x.target.kind ≠ .value ∧ x.target.kind ≠ .root := by
  obtain ⟨s, hs, hsk⟩ := h.isQueryNode_iff.1 (h.isQueryNode_source hx.1)
  obtain ⟨t, ht, htk⟩ := h.isQueryNode_iff.1 (h.isQueryNode_target hx.1)
  obtain ⟨-, hxs, hxt⟩ := hop?_eq_some.1 hx.2
  rw [hxs, Option.some_inj] at hs
  rw [hxt, Option.some_inj] at ht
  refine ⟨hs ▸ hsk, ht ▸ htk, ?_⟩
  have hp := (h.parent_of_link (mem_relationLinks.1 hx.1).1 hx.target_mem hx.target_id).1
  rw [Ne, ← h.parent_eq_none_iff _ hx.target_mem, hp]
  simp

/-- A node of the query is the root or the target of a relation. -/
theorem Shape.exists_hop_to (h : d.Shape) (hn : n ∈ d.nodes) (hk : n.kind ≠ .value)
    (hroot : n.kind ≠ .root) : ∃ x, d.IsHop x ∧ x.target = n := by
  obtain ⟨p, hp⟩ := h.exists_parent hn hroot
  obtain ⟨l, hl, ht, -⟩ := h.relation_of_hangsFrom ⟨n, hn, rfl, hk⟩ ⟨n, hn, rfl, hp⟩
  obtain ⟨x, hx⟩ := h.exists_hop? hl
  have hxl := (hop?_eq_some.1 hx).1
  have hhop : d.IsHop x := ⟨hxl ▸ hl, by rw [hxl, hx]⟩
  refine ⟨x, hhop, h.eq_of_id_eq hhop.target_mem hn ?_⟩
  rw [hhop.target_id, hxl, ht]

theorem Numbered.excludes_iff (h : d.Numbered) : d.excludes target x = true ↔
    x.target.negative = true ∧ ¬ d.BelowOrSelf target x.target.id := by
  rw [excludes, Bool.and_eq_true, h.negationApplies_iff]

theorem Numbered.excludes_eq_false_iff (h : d.Numbered) : d.excludes target x = false ↔
    (x.target.negative = true → d.BelowOrSelf target x.target.id) := by
  rw [← Bool.not_eq_true, h.excludes_iff]
  tauto

/-! ## Relevant relations -/

/-- The relevant relations of a node with their ends. -/
def relevantHops (d : Diagram) (target : NodeId) : List Hop := d.hops (d.relevantLinks target)

/-- What the root and the relevant relations of a node contribute to a statement about it. -/
def relevantContributions (d : Diagram) (target : NodeId) (needed : Bool) : List Contribution :=
  d.contributions target needed (d.relevantLinks target)

theorem nodup_relevantContributions : (d.relevantContributions target needed).Nodup :=
  nodup_contributions

theorem Shape.nodup_relevantLinks (h : d.Shape) (ht : d.IsQueryNode target) :
    (d.relevantLinks target).Nodup := by
  obtain ⟨r, hr⟩ := h.exists_root? ht
  rw [relevantLinks_eq hr]
  exact nodup_addPath ((h.links_nodup.filter _).filter _) _

/-- The clauses of the relevant relations are those of what they contribute. -/
theorem Shape.relevantElements_eq (h : d.Shape) (ht : d.IsQueryNode target)
    (hr : d.root? = some r) (q : Provider) (settings : QuerySettings) (needed : Bool) :
    generateElements d q settings target (d.relevantLinks target) needed =
      .ok ((QueryElements.ofContributions q settings
        (d.relevantContributions target needed)).orRoot r) :=
  h.generateElements_eq hr (fun _ hl => h.toNumbered.relevantLinks_subset target hl)
    (h.nodup_relevantLinks ht)

/-- The relations that statements about a node mention lead to nodes that matter, or on the way
there. -/
theorem Shape.mem_relevantHops_iff (h : d.Shape) (ht : d.IsQueryNode target) :
    x ∈ d.relevantHops target ↔
      d.IsHop x ∧ ∃ n, d.Matters target n ∧ d.BelowOrSelf n.id x.target.id := by
  rw [relevantHops, mem_hops, h.mem_relevantLinks_iff ht, ← and_assoc, ← mem_relationLinks]
  constructor
  · rintro ⟨⟨hl, n, hn, hb⟩, hx⟩
    have hhop : d.IsHop x := ⟨hl, hx⟩
    exact ⟨hhop, n, hn, hhop.target_id ▸ hb⟩
  · rintro ⟨hx, n, hn, hb⟩
    exact ⟨⟨hx.1, n, hn, hx.target_id ▸ hb⟩, hx.2⟩

/-- No relevant relation lies within a negation that need not be matched. -/
theorem Shape.exposed_of_hop (h : d.Shape) (ht : d.IsQueryNode target)
    (hx : x ∈ d.relevantHops target) :
    ∀ a ∈ d.nodes, d.Below x.target.id a.id → a.negative = true → d.BelowOrSelf target a.id := by
  obtain ⟨-, n, hn, hb⟩ := (h.mem_relevantHops_iff ht).1 hx
  intro a ha hxa hneg
  exact hn.exposed a ha (Relation.TransGen.trans_right hb hxa) hneg

end Diagram

end PatternQuery
