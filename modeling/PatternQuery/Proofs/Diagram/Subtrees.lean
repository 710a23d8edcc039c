import PatternQuery.Proofs.Diagram.Edits
import PatternQuery.Proofs.Diagram.Walks

/-!
# Subtrees

What goes with a node is gathered over links with a stack (`Diagram.gather`), what a node is an
ancestor of is told by parents (`Diagram.isAncestorOrSelf`). Both closures are the same wherever
nodes and links run in step (`Linked.isReachableFrom_eq`), so the removal of a node takes exactly
its subtree and the links at it (`Diagram.removeNode_subtree`).
-/

namespace PatternQuery.Diagram

/-! ## Gathering over links -/

/-- A link leads from one node to another. -/
def Leads (links : List Link) (x y : NodeId) : Prop := ∃ l ∈ links, l.source = x ∧ l.target = y

/-- What links lead to from a node, the last one first. -/
def targets (links : List Link) (x : NodeId) : List NodeId :=
  ((links.filter fun l => l.source == x).map Link.target).reverse

/-- The links whose source was not found yet. -/
def unfound (links : List Link) (found : List NodeId) : Nat :=
  links.countP fun l => l.source ∉ found

variable {links : List Link} {found stack : List NodeId} {x y : NodeId}

theorem mem_targets : y ∈ targets links x ↔ Leads links x y := by
  simp only [targets, Leads, List.mem_reverse, List.mem_map, List.mem_filter, beq_iff_eq, and_assoc]

/-- A node that is found takes its links with it. -/
theorem unfound_cons (links : List Link) (hx : x ∉ found) :
    unfound links (x :: found) + (targets links x).length = unfound links found := by
  simp only [unfound, targets, List.length_reverse, List.length_map, ← List.countP_eq_length_filter]
  induction links with
  | nil => rfl
  | cons l links ih =>
    simp only [List.countP_cons, List.mem_cons, not_or] at ih ⊢
    by_cases hl : l.source = x
    · subst hl
      simp only [hx, not_true_eq_false, false_and, decide_false, Bool.false_eq_true, ↓reduceIte,
        beq_self_eq_true, not_false_eq_true, decide_true]
      omega
    · simp only [hl, not_false_eq_true, true_and, beq_iff_eq, ↓reduceIte]
      omega

/-- Adds to the nodes that were found what links lead to from the nodes on a stack. The top of the
stack is taken first, and is dropped if it was found before. -/
def gather (links : List Link) (found : List NodeId) : List NodeId → List NodeId
  | [] => found
  | x :: stack =>
    if x ∈ found then gather links found stack
    else gather links (x :: found) (targets links x ++ stack)
termination_by stack => unfound links found + stack.length
decreasing_by
  · simp
  · have := unfound_cons links ‹x ∉ found›
    simp only [List.length_append, List.length_cons]
    omega

/-- Nothing is found twice. -/
theorem nodup_gather (h : found.Nodup) : (gather links found stack).Nodup := by
  fun_induction gather links found stack with
  | case1 found => exact h
  | case2 found x stack hx ih => exact ih h
  | case3 found x stack hx ih => exact ih (List.nodup_cons.2 ⟨hx, h⟩)

/-- What a link leads to from a found node was found, or waits on the stack. -/
def Frontier (links : List Link) (found stack : List NodeId) : Prop :=
  ∀ x ∈ found, ∀ y, Leads links x y → y ∈ found ∨ y ∈ stack

theorem Frontier.drop (h : Frontier links found (x :: stack)) (hx : x ∈ found) :
    Frontier links found stack := by
  intro z hz y hzy
  rcases h z hz y hzy with hy | hy
  · exact .inl hy
  · rcases List.mem_cons.1 hy with rfl | hy
    · exact .inl hx
    · exact .inr hy

theorem Frontier.visit (h : Frontier links found (x :: stack)) :
    Frontier links (x :: found) (targets links x ++ stack) := by
  intro z hz y hzy
  rcases List.mem_cons.1 hz with rfl | hz
  · exact .inr (List.mem_append_left _ (mem_targets.2 hzy))
  · rcases h z hz y hzy with hy | hy
    · exact .inl (List.mem_cons_of_mem x hy)
    · rcases List.mem_cons.1 hy with rfl | hy
      · exact .inl List.mem_cons_self
      · exact .inr (List.mem_append_right _ hy)

/-- A walk that starts at a found node stays among the found ones or passes the stack. -/
theorem Frontier.exit (h : Frontier links found stack) (hx : x ∈ found)
    (hxy : Relation.ReflTransGen (Leads links) x y) :
    y ∈ found ∨ ∃ z ∈ stack, Relation.ReflTransGen (Leads links) z y := by
  induction hxy using Relation.ReflTransGen.head_induction_on with
  | refl => exact .inl hx
  | head hstep hrest ih =>
    rcases h _ hx _ hstep with hz | hz
    · exact ih hz
    · exact .inr ⟨_, hz, hrest⟩

/-- The walk gathers everything that links lead to from its stack. -/
theorem Frontier.mem_gather (h : Frontier links found stack) :
    y ∈ gather links found stack ↔
      y ∈ found ∨ ∃ x ∈ stack, Relation.ReflTransGen (Leads links) x y := by
  fun_induction gather links found stack with
  | case1 found => simp
  | case2 found x stack hx ih =>
    rw [ih (h.drop hx)]
    constructor
    · rintro (hy | ⟨z, hz, hzy⟩)
      · exact .inl hy
      · exact .inr ⟨z, List.mem_cons_of_mem x hz, hzy⟩
    · rintro (hy | ⟨z, hz, hzy⟩)
      · exact .inl hy
      · rcases List.mem_cons.1 hz with rfl | hz
        · exact (h.drop hx).exit hx hzy
        · exact .inr ⟨z, hz, hzy⟩
  | case3 found x stack hx ih =>
    rw [ih h.visit]
    constructor
    · rintro (hy | ⟨z, hz, hzy⟩)
      · rcases List.mem_cons.1 hy with rfl | hy
        · exact .inr ⟨y, List.mem_cons_self, .refl⟩
        · exact .inl hy
      · rcases List.mem_append.1 hz with hz | hz
        · exact .inr ⟨x, List.mem_cons_self, .head (mem_targets.1 hz) hzy⟩
        · exact .inr ⟨z, List.mem_cons_of_mem x hz, hzy⟩
    · rintro (hy | ⟨z, hz, hzy⟩)
      · exact .inl (List.mem_cons_of_mem x hy)
      · rcases List.mem_cons.1 hz with rfl | hz
        · exact h.visit.exit List.mem_cons_self hzy
        · exact .inr ⟨z, List.mem_append_right _ hz, hzy⟩

theorem mem_gather_singleton :
    y ∈ gather links [] [x] ↔ Relation.ReflTransGen (Leads links) x y := by
  have hstart : Frontier links [] [x] := fun _ hz => absurd hz List.not_mem_nil
  rw [hstart.mem_gather]
  simp

/-! ## One closure -/

variable {d : Diagram} {id top : NodeId} {n : Node}

/-- Links run from parents to children. -/
theorem Linked.leads_iff (h : d.Linked) : Leads d.links x y ↔ d.HangsFrom y x := by
  constructor
  · rintro ⟨l, hl, rfl, rfl⟩
    obtain ⟨n, hn, hid, hp, -⟩ := h.edge_mem hl
    exact ⟨n, hn, hid, hp⟩
  · rintro ⟨n, hn, rfl, hp⟩
    obtain ⟨l, hl, ht, hs, -⟩ := h.link_of_parent hn hp
    exact ⟨l, hl, hs, ht⟩

theorem Linked.reaches_iff (h : d.Linked) :
    Relation.ReflTransGen (Leads d.links) top id ↔ d.BelowOrSelf id top := by
  rw [BelowOrSelf, ← Relation.reflTransGen_swap]
  have hswap : Leads d.links = Function.swap d.HangsFrom := by
    funext x y
    exact propext h.leads_iff
  rw [hswap]

/-- The search over incoming links finds what is below a node. -/
theorem Linked.isReachableFrom_iff (h : d.Linked) :
    d.isReachableFrom top id = true ↔ d.BelowOrSelf id top := by
  constructor
  · intro hr
    fun_induction isReachableFrom d top id with
    | case1 id ih =>
      rcases Bool.or_eq_true_iff.1 hr with hid | hr
      · rw [beq_iff_eq.1 hid]
        exact .refl
      · split at hr
        · cases hr
        · rename_i l hl
          obtain ⟨hr, hlt⟩ : d.isReachableFrom top l.source = true ∧
              l.source.number < id.number := by
            split at hr
            · exact ⟨hr, ‹_›⟩
            · cases hr
          have htarget : l.target = id := by simpa using List.find?_some hl
          refine .head (h.leads_iff.1 ⟨l, List.mem_of_find?_eq_some hl, rfl, htarget⟩) ?_
          exact ih l hlt hr
  · intro hb
    induction hb using Relation.ReflTransGen.head_induction_on with
    | refl =>
      rw [isReachableFrom, beq_self_eq_true, Bool.true_or]
    | head hstep _ ih =>
      obtain ⟨l, hl, rfl, rfl⟩ := h.leads_iff.2 hstep
      rw [h.isReachableFrom_target hl, ih, Bool.or_true]

/-- Links and parents tell the same subtrees. -/
theorem Linked.isReachableFrom_eq (h : d.Linked) (top id : NodeId) :
    d.isReachableFrom top id = d.isAncestorOrSelf top id := by
  rw [Bool.eq_iff_iff, h.isReachableFrom_iff, h.isAncestorOrSelf_iff]

theorem Linked.contains_gather (h : d.Linked) (top id : NodeId) :
    (gather d.links [] [top]).contains id = d.isReachableFrom top id := by
  rw [Bool.eq_iff_iff, List.contains_iff_mem, mem_gather_singleton, h.reaches_iff,
    h.isReachableFrom_iff]

/-! ## Removing what is gathered -/

/-- The node `id` with everything below it. -/
def subtree (d : Diagram) (id : NodeId) : List Node :=
  d.nodes.filter fun m => d.isAncestorOrSelf id m.id

/-- Removes what is gathered from a node on, with the links at it. Gives back whether any of it
constrained the query. -/
def sweep (id : NodeId) (d : Diagram) : Bool × Diagram :=
  let gone := gather d.links [] [id]
  let held := (d.nodes.filter fun n => gone.contains n.id).any constrains
  (held, { d with
    links := d.links.filter fun l => !gone.contains l.source && !gone.contains l.target
    nodes := d.nodes.filter fun n => !gone.contains n.id })

theorem Linked.sweep_eq (h : d.Linked) (id : NodeId) : d.sweep id = d.removeSubtree id := by
  simp only [sweep, Diagram.removeSubtree, h.contains_gather, List.any_filter]

theorem mem_subtree : n ∈ d.subtree id ↔ n ∈ d.nodes ∧ d.isAncestorOrSelf id n.id = true :=
  List.mem_filter

/-- What is at or below a node that is there is there itself. -/
theorem Linked.live_of_belowOrSelf (h : d.Linked) (hid : d.node? top = some n)
    (hb : d.BelowOrSelf id top) : ∃ m ∈ d.subtree top, m.id = id := by
  obtain ⟨m, hm, hmid⟩ : ∃ m ∈ d.nodes, m.id = id := by
    rcases Relation.ReflTransGen.cases_head hb with rfl | ⟨p, ⟨m, hm, hmid, -⟩, -⟩
    · exact ⟨n, mem_of_node? hid, id_of_node? hid⟩
    · exact ⟨m, hm, hmid⟩
  exact ⟨m, mem_subtree.2 ⟨hm, h.isAncestorOrSelf_iff.2 (by rwa [hmid])⟩, hmid⟩

/-- An end of a link is at or below a node where it is one of the nodes there. -/
theorem Linked.any_subtree (h : d.Linked) (hid : d.node? top = some n) (id : NodeId) :
    ((d.subtree top).any fun m => m.id == id) = d.isAncestorOrSelf top id := by
  rw [Bool.eq_iff_iff, List.any_eq_true]
  simp only [beq_iff_eq]
  constructor
  · rintro ⟨m, hm, rfl⟩
    exact (mem_subtree.1 hm).2
  · intro hb
    exact h.live_of_belowOrSelf hid (h.isAncestorOrSelf_iff.1 hb)

/-- The walk over links finds each node of a subtree once and nothing else. -/
theorem Linked.gather_perm (h : d.Linked) (hid : d.node? id = some n) :
    (gather d.links [] [id]).Perm ((d.subtree id).map Node.id) := by
  have hids : ((d.subtree id).map Node.id).Nodup := by
    rw [List.Nodup, List.pairwise_map]
    refine (h.sorted.filter _).imp fun hlt e => ?_
    rw [e] at hlt
    omega
  rw [List.perm_ext_iff_of_nodup (nodup_gather List.nodup_nil) hids]
  intro x
  rw [mem_gather_singleton, h.reaches_iff, List.mem_map]
  constructor
  · exact h.live_of_belowOrSelf hid
  · rintro ⟨m, hm, rfl⟩
    exact h.isAncestorOrSelf_iff.1 (mem_subtree.1 hm).2

/-- Whatever operations made a diagram, removing a node other than the root takes exactly the nodes
that it is an ancestor of, itself among them, and the links at one of these. Everything else stays
as it is and where it is. What is given back tells whether something was selected on one of the
nodes that went, or one of them was negated. The walk over the links comes to each of these nodes
once, and to no other. -/
theorem removeNode_subtree {p : Provider} {admits : Operation → Diagram → Prop}
    (h : d.ReachableBy p admits) (hn : d.node? id = some n) (hr : n.isRoot = false) :
    d.removeNode id = (.ok ((d.subtree id).any fun m => m.hasValue || m.negative),
      { d with
        nodes := d.nodes.filter fun m => !d.isAncestorOrSelf id m.id
        links := d.links.filter fun l =>
          !(d.subtree id).any fun m => m.id == l.source || m.id == l.target }) ∧
      d.removeNode id = (.ok (d.sweep id).1, (d.sweep id).2) ∧
      (gather d.links [] [id]).Perm ((d.subtree id).map Node.id) := by
  have hlinked := h.linked
  have hremove : d.removeNode id = (.ok (d.removeSubtree id).1, (d.removeSubtree id).2) := by
    simp [removeNode, hn, hr]
  refine ⟨?_, by rw [hlinked.sweep_eq, hremove], hlinked.gather_perm hn⟩
  have hends (l : Link) :
      (!(d.subtree id).any fun m => m.id == l.source || m.id == l.target) =
        (!d.isAncestorOrSelf id l.source && !d.isAncestorOrSelf id l.target) := by
    rw [← hlinked.any_subtree hn, ← hlinked.any_subtree hn, ← Bool.not_or, Bool.eq_iff_iff]
    simp [imp_and, forall_and]
  rw [hremove]
  simp only [hends, removeSubtree, hlinked.isReachableFrom_eq]
  simp only [subtree, List.any_filter]
  rfl

/-- A child goes that shows a candidate, on which another one is selected; its sister stays. -/
theorem removeNode_subtree_of_sisters :
    let d := Operation.runAll .plain [.addRoot "Person" none,
      .setRelationships ⟨0⟩ [{ label := "KNOWS", target := "Person", count := 1 }],
      .expandRelationship ⟨0⟩ 0, .expandRelationship ⟨0⟩ 0,
      .setData ⟨1⟩ [Table.empty, Table.empty], .expandValues ⟨1⟩, .selectValue ⟨3⟩,
      .expandValues ⟨1⟩] (.new 1)
    d.Reachable .plain ∧ d.nodes.map (fun m => m.id.number) = [0, 1, 2, 4] ∧
      (d.removeNode ⟨1⟩).1 = .ok true ∧
      (d.removeNode ⟨1⟩).2.nodes.map (fun m => m.id.number) = [0, 2] ∧
      (gather d.links [] [⟨1⟩]).Perm ((d.subtree ⟨1⟩).map Node.id) := by
  intro d
  have hd : d.Reachable .plain := Reachable.runAll (.new 1) _ (by decide +kernel)
  obtain ⟨n, hn⟩ : ∃ n, d.node? ⟨1⟩ = some n := Option.isSome_iff_exists.1 (by decide +kernel)
  have hr : n.isRoot = false := by
    have hr : (d.node? ⟨1⟩).any Node.isRoot = false := by decide +kernel
    rwa [hn] at hr
  obtain ⟨hremove, -, hperm⟩ := removeNode_subtree hd hn hr
  refine ⟨hd, by decide +kernel, ?_, ?_, hperm⟩
  · rw [hremove]
    decide +kernel
  · rw [hremove]
    decide +kernel

end PatternQuery.Diagram
