import PatternQuery.Proofs.Diagram.Subtrees
import PatternQuery.Proofs.Statement.Relevance
import PatternQuery.Session.Discovery

/-!
# Loops that climb

The walks towards the root are loops that go on as long as there is a parent, or a relation that
leads there, and nothing counts their turns. They end since the numbers of nodes decrease on the way
up, whatever operations made the diagram (`Diagram.climbs_of_reachable`), and give what the
functions of the diagram say. The walk over a subtree ends since it never expands a node again.
-/

namespace PatternQuery

/-! ## Loops -/

/-- A loop that starts in state `s` ends in its `k`-th turn and gives back `a`. A turn goes on with
another state, or is the last one. -/
inductive Ends {σ α : Type} (turn : σ → σ ⊕ α) : σ → Nat → α → Prop where
  | last {s : σ} {a : α} (h : turn s = .inr a) : Ends turn s 1 a
  | next {s s' : σ} {k : Nat} {a : α} (h : turn s = .inl s') (hrest : Ends turn s' k a) :
    Ends turn s (k + 1) a

/-- A loop over a list goes through a body for each member in turn. -/
inductive EndsFor {β σ : Type} (Body : β → σ → σ → Prop) : List β → σ → σ → Prop where
  | nil (s : σ) : EndsFor Body [] s s
  | cons {b : β} {bs : List β} {s s' s'' : σ} (h : Body b s s') (hrest : EndsFor Body bs s' s'') :
    EndsFor Body (b :: bs) s s''

section Loops

variable {σ α β : Type} {turn : σ → σ ⊕ α}

/-- A loop whose turns lower a measure and keep what it is going to give back. -/
theorem exists_ends (μ : σ → Nat) (result : σ → α) (hlast : ∀ s a, turn s = .inr a → result s = a)
    (hnext : ∀ s s', turn s = .inl s' → μ s' < μ s ∧ result s' = result s) (s : σ) :
    ∃ k ≤ μ s + 1, Ends turn s k (result s) := by
  generalize hm : μ s = m
  induction m using Nat.strongRecOn generalizing s with
  | ind m ih =>
    cases hs : turn s with
    | inr a => exact ⟨1, Nat.le_add_left 1 m, hlast s a hs ▸ .last hs⟩
    | inl s' =>
      obtain ⟨hlt, hresult⟩ := hnext s s' hs
      obtain ⟨k, hk, hends⟩ := ih (μ s') (hm ▸ hlt) s' rfl
      rw [hresult] at hends
      exact ⟨k + 1, by omega, .next hs hends⟩

theorem endsFor_foldl {Body : β → σ → σ → Prop} {f : σ → β → σ} (h : ∀ b s, Body b s (f s b))
    (bs : List β) (s : σ) : EndsFor Body bs s (bs.foldl f s) := by
  induction bs generalizing s with
  | nil => exact .nil s
  | cons b bs ih => exact .cons (h b s) (ih (f s b))

end Loops

namespace Diagram

/-! ## The turns of the loops -/

/-- Looks whether `ancestor` is above a node or is the node itself. -/
def ancestorTurn (d : Diagram) (ancestor : NodeId) : Option NodeId → Option NodeId ⊕ Bool
  | none => .inr false
  | some id => if id = ancestor then .inr true else .inl ((d.node? id).bind Node.parent)

/-- Looks for a node upwards. -/
def searchTurn (d : Diagram) (found : Node → Bool) : Option NodeId → Option NodeId ⊕ Bool
  | none => .inr false
  | some id =>
    match d.node? id with
    | none => .inr false
    | some n => if found n then .inr true else .inl n.parent

/-- Notes the relations that lead to a node, the last one first, and turns them round. -/
def linksTurn (d : Diagram) : NodeId × List Link → (NodeId × List Link) ⊕ List Link
  | (id, links) =>
    match d.incomingRelation? id with
    | none => .inr links.reverse
    | some l => .inl (l.source, links ++ [l])

/-- Adds a link to those that are relevant unless its number was seen. -/
def see (s : List LinkId × List Link) (l : Link) : List LinkId × List Link :=
  if l.id ∈ s.1 then s else (l.id :: s.1, s.2 ++ [l])

/-- Adds the relations that lead from the root to a node to those that are relevant. -/
def pathTurn (d : Diagram) (root : NodeId) : NodeId × List LinkId × List Link →
    (NodeId × List LinkId × List Link) ⊕ (List LinkId × List Link)
  | (id, s) =>
    if id = root then .inr s
    else match d.incomingRelation? id with
      | none => .inr s
      | some l => .inl (l.source, see s l)

/-- The loop from a leaf to the root ends, and leaves `s'` of what was relevant before. -/
def PathEnds (d : Diagram) (root : NodeId) (leaf : Link) (s s' : List LinkId × List Link) : Prop :=
  ∃ k ≤ leaf.source.number + 1, Ends (d.pathTurn root) (leaf.source, s) k s'

/-- Expands the node on top of the stack if it was not found before. Each node that is expanded goes
on the list of those that were found. -/
def sweepTurn (links : List Link) :
    List NodeId × List NodeId → (List NodeId × List NodeId) ⊕ List NodeId
  | (found, []) => .inr found
  | (found, x :: stack) =>
    if x ∈ found then .inl (found, stack) else .inl (x :: found, targets links x ++ stack)

/-! ## Climbing along parents -/

/-- The nodes that a walk comes to that starts at a node, or nowhere. -/
def above (d : Diagram) : Option NodeId → List NodeId
  | none => []
  | some id => id :: d.ancestors id

/-- A walk has at most that many nodes before it. -/
def height : Option NodeId → Nat
  | none => 0
  | some id => id.number + 1

variable {p : Provider} {d : Diagram} {id : NodeId} {n : Node}

theorem Numbered.ancestors_eq (h : d.Numbered) (id : NodeId) :
    d.ancestors id = d.above ((d.node? id).bind Node.parent) := by
  cases hp : (d.node? id).bind Node.parent with
  | none => exact ancestors_eq_nil hp
  | some q => exact h.ancestors_eq_cons (h.hangsFrom_iff.2 hp)

theorem Numbered.height_parent (h : d.Numbered) (id : NodeId) :
    height ((d.node? id).bind Node.parent) < height (some id) := by
  cases hp : (d.node? id).bind Node.parent with
  | none => exact Nat.succ_pos _
  | some q => exact Nat.succ_lt_succ (h.number_lt (h.hangsFrom_iff.2 hp))

theorem Numbered.ends_ancestorTurn (h : d.Numbered) (ancestor id : NodeId) :
    ∃ k ≤ id.number + 2, Ends (d.ancestorTurn ancestor) (some id) k
      (d.isAncestorOrSelf ancestor id) := by
  refine exists_ends height (fun start => (d.above start).contains ancestor) ?_ ?_ (some id)
  · intro start a ha
    cases start with
    | none => exact Sum.inr.inj ha
    | some x =>
      simp only [ancestorTurn] at ha
      split at ha
      · rename_i hx
        simp [above, hx, ← Sum.inr.inj ha]
      · cases ha
  · intro start start' hstart
    cases start with
    | none => cases hstart
    | some x =>
      simp only [ancestorTurn] at hstart
      split at hstart
      · cases hstart
      · rename_i hx
        rw [← Sum.inl.inj hstart]
        refine ⟨h.height_parent x, ?_⟩
        rw [← h.ancestors_eq, above, List.contains_cons, beq_eq_false_iff_ne.2 (Ne.symm hx),
          Bool.false_or]

theorem Numbered.ends_searchTurn (h : d.Numbered) (found : Node → Bool) (start : Option NodeId) :
    ∃ k ≤ height start + 1, Ends (d.searchTurn found) start k
      ((d.above start).any fun id => (d.node? id).any found) := by
  refine exists_ends height (fun start => (d.above start).any fun id => (d.node? id).any found)
    ?_ ?_ start
  · intro start a ha
    cases start with
    | none => exact Sum.inr.inj ha
    | some x =>
      cases hn : d.node? x with
      | none =>
        simp only [searchTurn, hn] at ha
        simp [h.ancestors_eq, above, hn, ← Sum.inr.inj ha]
      | some n =>
        simp only [searchTurn, hn] at ha
        split at ha
        · simp [above, hn, ‹found n = true›, ← Sum.inr.inj ha]
        · cases ha
  · intro start start' hstart
    cases start with
    | none => cases hstart
    | some x =>
      cases hn : d.node? x with
      | none =>
        simp only [searchTurn, hn] at hstart
        cases hstart
      | some n =>
        simp only [searchTurn, hn] at hstart
        split at hstart
        · cases hstart
        · have hparent : start' = (d.node? x).bind Node.parent := by
            rw [hn, Option.bind_some, Sum.inl.inj hstart]
          rw [hparent]
          refine ⟨h.height_parent x, ?_⟩
          have hnot : found n = false := Bool.eq_false_iff.2 ‹_›
          rw [← h.ancestors_eq, above, List.any_cons, hn, Option.any_some, hnot, Bool.false_or]

/-- What is looked for among the ancestors of a node is what is looked for from its parent on. -/
theorem Numbered.ends_searchTurn_ancestors (h : d.Numbered) {found : Node → Bool}
    {test : NodeId → Bool} (htest : ∀ a, test a = (d.node? a).any found) (id : NodeId) :
    ∃ k ≤ id.number + 1, Ends (d.searchTurn found) ((d.node? id).bind Node.parent) k
      ((d.ancestors id).any test) := by
  obtain ⟨k, hk, hends⟩ := h.ends_searchTurn found ((d.node? id).bind Node.parent)
  have hlt := h.height_parent id
  rw [height] at hlt
  refine ⟨k, by omega, ?_⟩
  rwa [h.ancestors_eq, funext htest]

theorem Numbered.ends_underAppliedNegation (h : d.Numbered) (id target : NodeId) :
    ∃ k ≤ id.number + 1,
      Ends (d.searchTurn fun n => n.negative && d.negationApplies n.id target)
        ((d.node? id).bind Node.parent) k (d.underAppliedNegation id target) := by
  refine h.ends_searchTurn_ancestors (fun a => ?_) id
  cases ha : d.node? a with
  | none => rfl
  | some n => simp only [Option.any_some, id_of_node? ha]

theorem Numbered.ends_hasAncestorLabeled (h : d.Numbered) (id : NodeId) (label : String) :
    ∃ k ≤ id.number + 1, Ends (d.searchTurn fun n => n.label == label)
      ((d.node? id).bind Node.parent) k (Session.hasAncestorLabeled d id label) := by
  refine h.ends_searchTurn_ancestors (fun a => ?_) id
  cases d.node? a <;> rfl

/-! ## Climbing along relations -/

theorem Numbered.number_lt_of_incomingRelation? (h : d.Numbered) {l : Link}
    (hl : d.incomingRelation? id = some l) : l.source.number < id.number := by
  obtain ⟨hmem, rfl⟩ := mem_of_incomingRelation? hl
  exact h.sourceBefore l (mem_relationLinks.1 hmem).1

theorem Numbered.incomingPath_eq_cons (h : d.Numbered) {l : Link}
    (hl : d.incomingRelation? id = some l) : d.incomingPath id = l :: d.incomingPath l.source := by
  rw [incomingPath, hl]
  simp only [h.number_lt_of_incomingRelation? hl, ↓reduceIte]

theorem Numbered.ends_linksTurn (h : d.Numbered) (id : NodeId) :
    ∃ k ≤ id.number + 1, Ends d.linksTurn (id, []) k (d.linksToRoot id) := by
  refine exists_ends (fun s : NodeId × List Link => s.1.number)
    (fun s => (s.2 ++ d.incomingPath s.1).reverse) ?_ ?_ (id, [])
  · rintro ⟨x, links⟩ a ha
    cases hl : d.incomingRelation? x with
    | none =>
      simp only [linksTurn, hl] at ha
      simp only [incomingPath_eq_nil hl, List.append_nil, Sum.inr.inj ha]
    | some l =>
      simp only [linksTurn, hl] at ha
      cases ha
  · rintro ⟨x, links⟩ s' hs'
    cases hl : d.incomingRelation? x with
    | none =>
      simp only [linksTurn, hl] at hs'
      cases hs'
    | some l =>
      simp only [linksTurn, hl] at hs'
      rw [← Sum.inl.inj hs']
      refine ⟨h.number_lt_of_incomingRelation? hl, ?_⟩
      simp only [h.incomingPath_eq_cons hl, List.append_assoc, List.singleton_append]

/-- No relation leads to the root. -/
theorem Linked.incomingPath_root (h : d.Linked) {root : Node} (hr : d.root? = some root) :
    d.incomingPath root.id = [] := by
  obtain ⟨hhead, hroot⟩ := Option.filter_eq_some_iff.1 hr
  have hmem : root ∈ d.nodes := List.mem_of_head? hhead
  refine incomingPath_eq_nil ?_
  cases hl : d.incomingRelation? root.id with
  | none => rfl
  | some l =>
    obtain ⟨hrel, ht⟩ := mem_of_incomingRelation? hl
    obtain ⟨hparent, -⟩ := h.parent_of_link (mem_relationLinks.1 hrel).1 hmem ht.symm
    rw [(h.parent_eq_none_iff root hmem).2 (by simpa [Node.isRoot] using hroot)] at hparent
    cases hparent

theorem Linked.ends_pathTurn (h : d.Linked) {root : Node} (hr : d.root? = some root) (id : NodeId)
    (s : List LinkId × List Link) :
    ∃ k ≤ id.number + 1, Ends (d.pathTurn root.id) (id, s) k ((d.incomingPath id).foldl see s) := by
  refine exists_ends (fun s : NodeId × List LinkId × List Link => s.1.number)
    (fun s => (d.incomingPath s.1).foldl see s.2) ?_ ?_ (id, s)
  · rintro ⟨x, s⟩ a ha
    simp only [pathTurn] at ha
    split at ha
    · rename_i hx
      simp only [hx, h.incomingPath_root hr, List.foldl_nil, Sum.inr.inj ha]
    · cases hl : d.incomingRelation? x with
      | none =>
        simp only [hl] at ha
        simp only [incomingPath_eq_nil hl, List.foldl_nil, Sum.inr.inj ha]
      | some l =>
        simp only [hl] at ha
        cases ha
  · rintro ⟨x, s⟩ s' hs'
    simp only [pathTurn] at hs'
    split at hs'
    · cases hs'
    · cases hl : d.incomingRelation? x with
      | none =>
        simp only [hl] at hs'
        cases hs'
      | some l =>
        simp only [hl] at hs'
        rw [← Sum.inl.inj hs']
        refine ⟨h.number_lt_of_incomingRelation? hl, ?_⟩
        simp only [h.incomingPath_eq_cons hl, List.foldl_cons]

/-- The links whose numbers were seen are those that are relevant. -/
def Seen (s : List LinkId × List Link) : Prop := ∀ id, id ∈ s.1 ↔ ∃ l ∈ s.2, l.id = id

theorem Seen.see {s : List LinkId × List Link} (h : Seen s) (l : Link) :
    Seen (see s l) ∧ (see s l).2 = addPath s.2 [l] := by
  have hany : (s.2.any fun k => k.id == l.id) = decide (l.id ∈ s.1) := by
    rw [Bool.eq_iff_iff, decide_eq_true_iff, h l.id]
    simp
  simp only [Diagram.see, addPath, List.foldl_cons, List.foldl_nil, hany, decide_eq_true_iff]
  split
  · exact ⟨h, rfl⟩
  · refine ⟨fun id => ?_, rfl⟩
    rw [List.mem_cons, h id, or_comm]
    simp [or_and_right, exists_or, eq_comm]

theorem Seen.foldl_see {s : List LinkId × List Link} (h : Seen s) (path : List Link) :
    Seen (path.foldl Diagram.see s) ∧ (path.foldl Diagram.see s).2 = addPath s.2 path := by
  induction path generalizing s with
  | nil => exact ⟨h, rfl⟩
  | cons l path ih =>
    obtain ⟨hseen, hlinks⟩ := h.see l
    obtain ⟨hrest, heq⟩ := ih hseen
    refine ⟨hrest, ?_⟩
    rw [List.foldl_cons, heq, hlinks]
    rfl

theorem Linked.endsFor_relevantLinks (h : d.Linked) {root : Node} (hr : d.root? = some root)
    (target : NodeId) : ∃ seen, EndsFor (d.PathEnds root.id) (d.leafLinks target)
      ((d.leafLinks target).map Link.id, d.leafLinks target) (seen, d.relevantLinks target) := by
  have hbody (leaf : Link) (s : List LinkId × List Link) :
      d.PathEnds root.id leaf s ((d.incomingPath leaf.source).foldl Diagram.see s) :=
    h.ends_pathTurn hr leaf.source s
  have hends := endsFor_foldl hbody (d.leafLinks target)
    ((d.leafLinks target).map Link.id, d.leafLinks target)
  have hstart : Seen ((d.leafLinks target).map Link.id, d.leafLinks target) := by simp [Seen]
  have hlinks := (hstart.foldl_see (d.pathLinks target)).2
  rw [pathLinks, List.foldl_flatMap, ← pathLinks, ← relevantLinks_eq hr] at hlinks
  rw [← hlinks]
  exact ⟨_, hends⟩

/-! ## The walk over a subtree -/

theorem ends_sweepTurn (links : List Link) (id : NodeId) :
    ∃ k ≤ links.length + 2, Ends (sweepTurn links) ([], [id]) k (gather links [] [id]) := by
  have hstart : unfound links [] + [id].length = links.length + 1 := by simp [unfound]
  show ∃ k ≤ links.length + 1 + 1, _
  rw [← hstart]
  refine exists_ends (fun s : List NodeId × List NodeId => unfound links s.1 + s.2.length)
    (fun s => gather links s.1 s.2) ?_ ?_ ([], [id])
  · rintro ⟨found, stack⟩ a ha
    cases stack with
    | nil => rw [gather, Sum.inr.inj ha]
    | cons x stack =>
      simp only [sweepTurn] at ha
      split at ha <;> cases ha
  · rintro ⟨found, stack⟩ s' hs'
    cases stack with
    | nil => cases hs'
    | cons x stack =>
      simp only [sweepTurn] at hs'
      split at hs'
      · rename_i hx
        rw [← Sum.inl.inj hs']
        refine ⟨by simp, ?_⟩
        rw [gather, if_pos hx]
      · rename_i hx
        have hfewer := unfound_cons links hx
        rw [← Sum.inl.inj hs']
        refine ⟨?_, ?_⟩
        · simp only [List.length_append, List.length_cons]
          omega
        · rw [gather.eq_def links found (x :: stack)]
          simp only [if_neg hx]

/-! ## All of them -/

/-- All loops end with what the functions of the diagram say. The number of a node bounds the turns
of a loop that climbs from it. -/
structure Climbs (d : Diagram) : Prop where
  parentBefore : ∀ n ∈ d.nodes, ∀ parent, n.parent = some parent → parent.number < n.id.number
  sourceBefore : ∀ l ∈ d.links, l.source.number < l.target.number
  isAncestorOrSelf : ∀ ancestor id, ∃ k ≤ id.number + 2,
    Ends (d.ancestorTurn ancestor) (some id) k (d.isAncestorOrSelf ancestor id)
  underAppliedNegation : ∀ id target, ∃ k ≤ id.number + 1,
    Ends (d.searchTurn fun n => n.negative && d.negationApplies n.id target)
      ((d.node? id).bind Node.parent) k (d.underAppliedNegation id target)
  relevantLinks : ∀ root, d.root? = some root → ∀ target, ∃ seen,
    EndsFor (d.PathEnds root.id) (d.leafLinks target)
      ((d.leafLinks target).map Link.id, d.leafLinks target) (seen, d.relevantLinks target)
  linksToRoot : ∀ id, ∃ k ≤ id.number + 1, Ends d.linksTurn (id, []) k (d.linksToRoot id)
  hasAncestorLabeled : ∀ id label, ∃ k ≤ id.number + 1,
    Ends (d.searchTurn fun n => n.label == label) ((d.node? id).bind Node.parent) k
      (Session.hasAncestorLabeled d id label)
  /-- The search for a label ends wherever it starts. -/
  searchLabel : ∀ start label, ∃ k ≤ height start + 1, ∃ found,
    Ends (d.searchTurn fun n => n.label == label) start k found
  /-- What is removed is what was found, and that is what was expanded, each node once. -/
  removeSubtree : ∀ id, d.removeSubtree id = d.sweep id ∧ (gather d.links [] [id]).Nodup ∧
    ∃ k ≤ d.links.length + 2, Ends (sweepTurn d.links) ([], [id]) k (gather d.links [] [id])

/-- Whatever operations made a diagram, every walk in it ends. -/
theorem climbs_of_reachable (h : d.ReachableBy p fun _ _ => True) : d.Climbs where
  parentBefore := h.linked.parentBefore
  sourceBefore := h.linked.sourceBefore
  isAncestorOrSelf := h.linked.ends_ancestorTurn
  underAppliedNegation := h.linked.ends_underAppliedNegation
  relevantLinks _ hr := h.linked.endsFor_relevantLinks hr
  linksToRoot := h.linked.ends_linksTurn
  hasAncestorLabeled := h.linked.ends_hasAncestorLabeled
  searchLabel start label := by
    obtain ⟨k, hk, hends⟩ := h.linked.ends_searchTurn (fun n => n.label == label) start
    exact ⟨k, hk, _, hends⟩
  removeSubtree id :=
    ⟨(h.linked.sweep_eq id).symm, nodup_gather List.nodup_nil, ends_sweepTurn d.links id⟩

/-- A node hangs from a candidate value, which then goes. -/
theorem climbs_of_stray :
    let ops : List Operation := [.addRoot "Person" none, .setData ⟨0⟩ [Table.empty],
      .expandValues ⟨0⟩,
      .setRelationships ⟨1⟩ [{ label := "KNOWS", target := "Person", count := 1 }],
      .expandRelationship ⟨1⟩ 0]
    let d := Operation.runAll .plain ops (.new 10)
    let e := Operation.runAll .plain (ops ++ [.collapseValues ⟨0⟩]) (.new 10)
    (d.Climbs ∧ Ends (d.ancestorTurn ⟨0⟩) (some ⟨2⟩) 3 true) ∧
      e.nodes.map (fun n => (n.id.number, n.parent.map NodeId.number)) = [(0, none), (2, some 1)] ∧
      e.Climbs ∧ Ends (e.ancestorTurn ⟨0⟩) (some ⟨2⟩) 3 false := by
  intro ops d e
  have hfirst : d.ancestorTurn ⟨0⟩ (some ⟨2⟩) = .inl (some ⟨1⟩) := by decide +kernel
  have hsecond : d.ancestorTurn ⟨0⟩ (some ⟨1⟩) = .inl (some ⟨0⟩) := by decide +kernel
  have hfirst' : e.ancestorTurn ⟨0⟩ (some ⟨2⟩) = .inl (some ⟨1⟩) := by decide +kernel
  have hsecond' : e.ancestorTurn ⟨0⟩ (some ⟨1⟩) = .inl none := by decide +kernel
  refine ⟨⟨climbs_of_reachable (.runAll (.new 10) ops), ?_⟩, by decide +kernel,
    climbs_of_reachable (.runAll (.new 10) (ops ++ [.collapseValues ⟨0⟩])), ?_⟩
  · exact .next hfirst (.next hsecond (.last rfl))
  · exact .next hfirst' (.next hsecond' (.last rfl))

end Diagram

end PatternQuery
