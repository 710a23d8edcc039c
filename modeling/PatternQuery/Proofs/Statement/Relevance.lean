import PatternQuery.Proofs.Diagram.Operation
import PatternQuery.Proofs.Diagram.Walks
import PatternQuery.Statement.Relevance

/-!
# The relevant relations

The relations that a statement about a node has to mention are exactly those on the paths from the
root to the nodes that matter to it (`Diagram.Matters`), each once, those that lead to such nodes
first (`Diagram.relevantLinks_of_reachable`).
-/

namespace PatternQuery.Diagram

/-- A node other than the root constrains statements about `target`, or is the target, and no
negation above it takes it in: one that does not lead on to the target. -/
structure Matters (d : Diagram) (target : NodeId) (n : Node) : Prop where
  mem : n ∈ d.nodes
  not_root : n.kind ≠ .root
  cause : n.selected ≠ [] ∨ n.negative = true ∨ n.id = target
  exposed : ∀ a ∈ d.nodes, d.Below n.id a.id → a.negative = true → d.BelowOrSelf target a.id

variable {d : Diagram} {id target : NodeId} {n : Node} {l : Link}

/-! ## Leaves -/

theorem Numbered.negationApplies_iff (h : d.Numbered) {a : NodeId} :
    d.negationApplies a target = true ↔ ¬ d.BelowOrSelf target a := by
  rw [negationApplies, Bool.not_eq_true', ← Bool.not_eq_true, h.isAncestorOrSelf_iff]

theorem Numbered.underAppliedNegation_iff (h : d.Numbered) :
    d.underAppliedNegation id target = true ↔
      ∃ a ∈ d.nodes, d.Below id a.id ∧ a.negative = true ∧ ¬ d.BelowOrSelf target a.id := by
  rw [underAppliedNegation, List.any_eq_true]
  constructor
  · rintro ⟨x, hx, hneg⟩
    cases hn : d.node? x with
    | none => simp [hn] at hneg
    | some a =>
      simp only [hn, Bool.and_eq_true, h.negationApplies_iff] at hneg
      obtain rfl := id_of_node? hn
      exact ⟨a, mem_of_node? hn, h.mem_ancestors_iff.1 hx, hneg.1, hneg.2⟩
  · rintro ⟨a, ha, hb, hneg, ht⟩
    refine ⟨a.id, h.mem_ancestors_iff.2 hb, ?_⟩
    simp only [h.node?_of_mem ha, Bool.and_eq_true, h.negationApplies_iff]
    exact ⟨hneg, ht⟩

/-- A relation is a leaf of the relevant relations if the node that it leads to matters. -/
theorem Shape.isLeafLink_iff (h : d.Shape) (hl : l ∈ d.relationLinks) (hn : n ∈ d.nodes)
    (e : n.id = l.target) : d.isLeafLink target l = true ↔ d.Matters target n := by
  have hroot : n.kind ≠ .root := by
    rw [Ne, ← h.parent_eq_none_iff n hn, (h.parent_of_link (mem_relationLinks.1 hl).1 hn e).1]
    simp
  rw [isLeafLink, ← e, h.node?_of_mem hn]
  simp only [Bool.and_eq_true, Bool.or_eq_true, Bool.not_eq_true', beq_iff_eq,
    ← Bool.not_eq_true (d.underAppliedNegation _ _), h.underAppliedNegation_iff, Node.hasValue,
    List.isEmpty_eq_false_iff]
  constructor
  · rintro ⟨hcause, hfree⟩
    refine ⟨hn, hroot, by tauto, fun a ha hb hneg => ?_⟩
    by_contra ht
    exact hfree ⟨a, ha, hb, hneg, ht⟩
  · rintro ⟨-, -, hcause, hfree⟩
    refine ⟨by tauto, ?_⟩
    rintro ⟨a, ha, hb, hneg, ht⟩
    exact ht (hfree a ha hb hneg)

/-! ## Paths to the leaves -/

theorem addPath_cons (links : List Link) (k : Link) (path : List Link) :
    addPath links (k :: path) =
      addPath (if links.any fun m => m.id == k.id then links else links ++ [k]) path :=
  rfl

theorem prefix_addPath (links path : List Link) : links <+: addPath links path := by
  induction path generalizing links with
  | nil => exact List.prefix_rfl
  | cons k path ih =>
    rw [addPath_cons]
    split
    · exact ih links
    · exact (List.prefix_append links [k]).trans (ih _)

theorem nodup_addPath {links : List Link} (h : links.Nodup) (path : List Link) :
    (addPath links path).Nodup := by
  induction path generalizing links with
  | nil => exact h
  | cons k path ih =>
    rw [addPath_cons]
    split
    · exact ih h
    · rename_i hany
      refine ih (List.nodup_append.2 ⟨h, by simp, ?_⟩)
      rintro m hm k' hk' rfl
      rw [List.mem_singleton.1 hk'] at hm
      exact hany (List.any_eq_true.2 ⟨k, hm, by simp⟩)

theorem Numbered.mem_addPath_iff (h : d.Numbered) {links path : List Link}
    (hlinks : ∀ l ∈ links, l ∈ d.links) (hpath : ∀ l ∈ path, l ∈ d.links) :
    l ∈ addPath links path ↔ l ∈ links ∨ l ∈ path := by
  induction path generalizing links with
  | nil => simp [addPath]
  | cons k path ih =>
    have hk : k ∈ d.links := hpath k (by simp)
    have hpath' : ∀ l ∈ path, l ∈ d.links := fun l hl => hpath l (by simp [hl])
    rw [addPath_cons]
    split
    · rename_i hany
      obtain ⟨m, hm, e⟩ := List.any_eq_true.1 hany
      have hmem : k ∈ links := h.link_eq_of_id_eq (hlinks m hm) hk (by simpa using e) ▸ hm
      rw [ih hlinks hpath', List.mem_cons]
      constructor
      · tauto
      · rintro (hl | rfl | hl)
        · exact .inl hl
        · exact .inl hmem
        · exact .inr hl
    · have hlinks' : ∀ l ∈ links ++ [k], l ∈ d.links := by
        intro l hl
        rcases List.mem_append.1 hl with hl | hl
        · exact hlinks l hl
        · rw [List.mem_singleton.1 hl]
          exact hk
      rw [ih hlinks' hpath', List.mem_append, List.mem_singleton, List.mem_cons, or_assoc]

/-! ## All of them -/

/-- The relations that lead to nodes that matter. -/
def leafLinks (d : Diagram) (target : NodeId) : List Link :=
  d.relationLinks.filter (d.isLeafLink target)

/-- The relations above the leaves, path by path. -/
def pathLinks (d : Diagram) (target : NodeId) : List Link :=
  (d.leafLinks target).flatMap fun l => d.incomingPath l.source

theorem relevantLinks_eq {r : Node} (hr : d.root? = some r) :
    d.relevantLinks target = addPath (d.leafLinks target) (d.pathLinks target) := by
  unfold relevantLinks
  rw [hr]
  show (d.leafLinks target).foldl _ (d.leafLinks target) = addPath _ _
  rw [pathLinks, addPath, List.foldl_flatMap]
  rfl

/-- Only relations are relevant, whatever the target is. -/
theorem Numbered.relevantLinks_subset (h : d.Numbered) (target : NodeId) :
    d.relevantLinks target ⊆ d.relationLinks := by
  cases hr : d.root? with
  | none => simp [relevantLinks, hr]
  | some r =>
    have hrelation : d.relationLinks ⊆ d.links := List.filter_subset_self _
    have hleaf : d.leafLinks target ⊆ d.relationLinks := List.filter_subset_self _
    have hpath : d.pathLinks target ⊆ d.relationLinks := by
      intro l hl
      obtain ⟨k, -, hk⟩ := List.mem_flatMap.1 hl
      exact incomingPath_subset d k.source hk
    intro l hl
    rw [relevantLinks_eq hr,
      h.mem_addPath_iff (fun _ h => hrelation (hleaf h)) fun _ h => hrelation (hpath h)] at hl
    exact hl.elim (fun h => hleaf h) fun h => hpath h

theorem Shape.mem_leafLinks_iff (h : d.Shape) :
    l ∈ d.leafLinks target ↔ l ∈ d.relationLinks ∧ ∃ n, d.Matters target n ∧ n.id = l.target := by
  rw [leafLinks, List.mem_filter, and_congr_right_iff]
  intro hl
  obtain ⟨n, hn, e, -⟩ := h.edge_mem (mem_relationLinks.1 hl).1
  rw [h.isLeafLink_iff hl hn e]
  constructor
  · exact fun hm => ⟨n, hm, e⟩
  · rintro ⟨m, hm, e'⟩
    rwa [h.eq_of_id_eq hn hm.mem (e.trans e'.symm)]

theorem Shape.mem_pathLinks_iff (h : d.Shape) :
    l ∈ d.pathLinks target ↔
      l ∈ d.relationLinks ∧ ∃ k ∈ d.leafLinks target, d.BelowOrSelf k.source l.target := by
  simp only [pathLinks, List.mem_flatMap]
  constructor
  · rintro ⟨k, hk, hl⟩
    have hkr := (List.mem_filter.1 hk).1
    obtain ⟨hlr, hb⟩ := (h.mem_incomingPath_iff (h.isQueryNode_source hkr)).1 hl
    exact ⟨hlr, k, hk, hb⟩
  · rintro ⟨hlr, k, hk, hb⟩
    have hkr := (List.mem_filter.1 hk).1
    exact ⟨k, hk, (h.mem_incomingPath_iff (h.isQueryNode_source hkr)).2 ⟨hlr, hb⟩⟩

/-- What matters hangs from the root by relations. -/
theorem Shape.isQueryNode_of_matters (h : d.Shape) (ht : d.IsQueryNode target)
    (hm : d.Matters target n) : d.IsQueryNode n.id := by
  by_contra hk
  have hvalue : n.kind = .value := by
    by_contra hne
    exact hk ⟨n, hm.mem, rfl, hne⟩
  have hs := h.sound n hm.mem
  rcases hm.cause with hsel | hneg | rfl
  · exact hsel (hs.selected hvalue)
  · rw [hs.choose hneg] at hvalue
    simp at hvalue
  · exact hk ht

theorem Shape.exists_root (h : d.Shape) (hne : d.isEmpty = false) :
    ∃ r, d.root? = some r ∧ d.IsQueryNode r.id := by
  obtain ⟨r, rest, hd⟩ := List.exists_cons_of_ne_nil (List.isEmpty_eq_false_iff.1 hne)
  refine ⟨r, by rw [h.root?_eq_head?, hd]; rfl, r, by simp [hd], rfl, ?_⟩
  simp [h.head_kind hd]

theorem Shape.exists_root? (h : d.Shape) (ht : d.IsQueryNode target) : ∃ r, d.root? = some r := by
  obtain ⟨n, hn, -⟩ := ht
  obtain ⟨r, hr, -⟩ := h.exists_root (isEmpty_eq_false_of_mem hn)
  exact ⟨r, hr⟩

theorem Shape.mem_relevantLinks_iff (h : d.Shape) (ht : d.IsQueryNode target) :
    l ∈ d.relevantLinks target ↔ l ∈ d.links ∧ l.kind = .relation ∧
      ∃ n, d.Matters target n ∧ d.BelowOrSelf n.id l.target := by
  obtain ⟨r, hr⟩ := h.exists_root? ht
  have hlinks : ∀ k ∈ d.relationLinks, k ∈ d.links := fun k hk => (mem_relationLinks.1 hk).1
  rw [relevantLinks_eq hr, h.mem_addPath_iff
    (fun k hk => hlinks k (h.mem_leafLinks_iff.1 hk).1)
    (fun k hk => hlinks k (h.mem_pathLinks_iff.1 hk).1), h.mem_leafLinks_iff, h.mem_pathLinks_iff,
    ← and_assoc, ← mem_relationLinks, ← and_or_left, and_congr_right_iff]
  intro hl
  constructor
  · rintro (⟨n, hn, e⟩ | ⟨k, hk, hb⟩)
    · exact ⟨n, hn, e ▸ .refl⟩
    · obtain ⟨hkr, n, hn, e⟩ := h.mem_leafLinks_iff.1 hk
      refine ⟨n, hn, .head ?_ hb⟩
      rw [e]
      exact h.hangsFrom_of_link (hlinks k hkr)
  · rintro ⟨n, hn, hb⟩
    rcases Relation.ReflTransGen.cases_head hb with e | ⟨p, hp, hb⟩
    · exact .inl ⟨n, hn, e⟩
    · obtain ⟨k, hk, e, rfl⟩ := h.relation_of_hangsFrom (h.isQueryNode_of_matters ht hn) hp
      exact .inr ⟨k, h.mem_leafLinks_iff.2 ⟨hk, n, hn, e.symm⟩, hb⟩

/-- The relevant relations are those on the paths to the nodes that matter, each once. Those that
lead to such nodes come first, in the order of the links. -/
theorem relevantLinks_of_reachable {p : Provider} (h : d.Reachable p) (ht : d.IsQueryNode target) :
    (∀ l, l ∈ d.relevantLinks target ↔ l ∈ d.links ∧ l.kind = .relation ∧
      ∃ n, d.Matters target n ∧ d.BelowOrSelf n.id l.target) ∧
    (d.relevantLinks target).Nodup ∧
    ∃ leaves paths, d.relevantLinks target = leaves ++ paths ∧ leaves.Sublist d.links ∧
      (∀ l, l ∈ leaves ↔ l ∈ d.links ∧ l.kind = .relation ∧
        ∃ n, d.Matters target n ∧ n.id = l.target) ∧
      ∀ l ∈ paths, ¬ ∃ n, d.Matters target n ∧ n.id = l.target := by
  have hs := h.wellFormed.toShape
  obtain ⟨r, hr⟩ := hs.exists_root? ht
  have hmem (l : Link) := hs.mem_relevantLinks_iff (l := l) ht
  have hnodup : (d.relevantLinks target).Nodup := by
    rw [relevantLinks_eq hr]
    exact nodup_addPath ((hs.links_nodup.filter _).filter _) _
  have hleaf (l : Link) : l ∈ d.leafLinks target ↔ l ∈ d.links ∧ l.kind = .relation ∧
      ∃ n, d.Matters target n ∧ n.id = l.target := by
    rw [hs.mem_leafLinks_iff, mem_relationLinks, and_assoc]
  obtain ⟨paths, hpaths⟩ := prefix_addPath (d.leafLinks target) (d.pathLinks target)
  rw [← relevantLinks_eq hr] at hpaths
  refine ⟨hmem, hnodup, d.leafLinks target, paths, hpaths.symm, ?_, hleaf, ?_⟩
  · exact List.filter_sublist.trans List.filter_sublist
  · intro l hl hm
    have hin : l ∈ d.relevantLinks target := hpaths ▸ List.mem_append_right _ hl
    obtain ⟨hlinks, hk, -⟩ := (hmem l).1 hin
    rw [← hpaths] at hnodup
    exact (List.nodup_append.1 hnodup).2.2 l ((hleaf l).2 ⟨hlinks, hk, hm⟩) l hl rfl

/-- A person with a friend, who likes a movie, and with a second friend. All three have values and
both friends are negated. The movie is asked about: its path is matched, and the second friend
matters as well. -/
theorem relevantLinks_below_negation :
    let movie : Schema := .node "Movie" [Table.empty] [] false
    let s : Schema := .node "Person" [] [
      ⟨"KNOWS", .node "Person" [Table.empty] [⟨"LIKES", movie, false⟩] false, false⟩,
      ⟨"KNOWS", .node "Person" [Table.empty] [] false, false⟩] false
    let d := Operation.runAll .plain [.addSchema s none, .negate ⟨1⟩, .negate ⟨5⟩] (.new 10)
    d.Reachable .plain ∧ d.IsQueryNode ⟨3⟩ ∧
      (d.relevantLinks ⟨3⟩).map (fun l => l.target.number) = [1, 3, 5] ∧
      ∀ l, l ∈ d.relevantLinks ⟨3⟩ ↔ l ∈ d.links ∧ l.kind = .relation ∧
        ∃ n, d.Matters ⟨3⟩ n ∧ d.BelowOrSelf n.id l.target := by
  intro movie s d
  have hd : d.Reachable .plain := Reachable.runAll (.new 10) _ (by decide +kernel)
  have ht : d.IsQueryNode ⟨3⟩ := by decide +kernel
  exact ⟨hd, ht, by decide +kernel, (relevantLinks_of_reachable hd ht).1⟩

end PatternQuery.Diagram
