import PatternQuery.Proofs.Diagram.Candidates
import PatternQuery.Proofs.Diagram.Orphans

/-!
# What is shown under a node

Whatever the arguments of operations are, candidate values hang only from nodes that show them
(`Diagram.Displays`), so what is hidden before a page is shown is all that was shown. The candidates
under a node are therefore the rows of its page, in their order (`Linked.shownRows_expandValues`).
-/

namespace PatternQuery.Diagram

variable {p : Provider} {d e : Diagram} {id x : NodeId} {n : Node}

/-- Candidate values hang only from nodes that show them. -/
def Displays (d : Diagram) : Prop :=
  ∀ v ∈ d.nodes, v.kind = .value → ∀ n ∈ d.nodes, v.parent = some n.id → n.expanded = true

/-! ## Edits -/

theorem displays_of_query (h : ∀ n ∈ d.nodes, n.kind ≠ .value) : d.Displays :=
  fun v hv hk => absurd hk (h v hv)

theorem Displays.keep (h : d.Displays) (q : NodeId → Bool) (r : Link → Bool) :
    (d.keep q r).Displays :=
  fun v hv hk n hn => h v (List.mem_filter.1 hv).1 hk n (List.mem_filter.1 hn).1

/-- A changed node may only stop to show its candidates where there are none. -/
theorem displays_modify {f : Node → Node} (hf : ∀ n, (f n).place = n.place)
    (hv : ∀ v ∈ d.nodes, v.kind = .value → ∀ n ∈ d.nodes, v.parent = some n.id →
      (if n.id = id then f n else n).expanded = true) : (d.modify id f).Displays := by
  intro v' hv' hk n' hn' hp
  obtain ⟨v, hvd, rfl⟩ := mem_modify.1 hv'
  obtain ⟨n, hnd, rfl⟩ := mem_modify.1 hn'
  obtain ⟨-, hkind, hparent⟩ := Node.place_eq_iff.1 (place_ite hf id v)
  rw [hkind] at hk
  rw [hparent, (Node.place_eq_iff.1 (place_ite hf id n)).1] at hp
  exact hv v hvd hk n hnd hp

theorem Displays.modify (h : d.Displays) {f : Node → Node} (hf : ∀ n, (f n).place = n.place)
    (he : ∀ n, (f n).expanded = n.expanded) : (d.modify id f).Displays := by
  refine displays_modify hf fun v hv hk n hn hp => ?_
  split
  · rw [he]
    exact h v hv hk n hn hp
  · exact h v hv hk n hn hp

theorem Displays.setPinned (h : d.Displays) (parent : Option NodeId) (fixed : Bool) :
    (d.setPinned parent fixed).Displays := by
  cases parent with
  | none => exact h
  | some y =>
    refine h.modify (fun n => ?_) fun n => ?_ <;> split <;> rfl

/-- A node of the query comes, from which nothing can hang yet. -/
theorem Linked.displays_attachChild (hd : d.Linked) (h : d.Displays) (p : Provider) (id : NodeId)
    (s : Segment) : (d.attachChild p id s .choose).2.Displays := by
  rw [attachChild_eq]
  intro v hv hk n hn hp
  have hvd : v ∈ d.nodes := by
    rcases List.mem_append.1 hv with hv | hv
    · exact hv
    · rw [List.mem_singleton.1 hv] at hk
      cases hk
  rcases List.mem_append.1 hn with hn | hn
  · exact h v hvd hk n hn hp
  · rw [List.mem_singleton.1 hn] at hp
    have hbefore := hd.parentBefore v hvd _ hp
    have hbound := hd.bounded v hvd
    simp only [childNode] at hbefore
    omega

/-! ## Hiding and showing -/

theorem Linked.displays_collapseValues (hd : d.Linked) (h : d.Displays) (id : NodeId) :
    (d.collapseValues id).2.Displays := by
  cases hn : d.node? id with
  | none => rwa [collapseValues_of_collapsed (by simp [hn])]
  | some n =>
    cases he : n.expanded with
    | false => rwa [collapseValues_of_collapsed (by simp [hn, he])]
    | true =>
      rw [collapseValues_eq hn he]
      refine Displays.setPinned ?_ _ _
      refine displays_modify (fun _ => rfl) fun v hv hk m hm hp => ?_
      obtain ⟨hvd, hgone⟩ := List.mem_filter.1 hv
      have hne : m.id ≠ id := by
        rintro rfl
        rw [Bool.not_eq_true', ← Bool.not_eq_true, List.contains_iff_mem,
          hd.mem_shown_iff _ hvd] at hgone
        exact hgone ⟨hk, hp⟩
      rw [if_neg hne]
      exact h.keep _ _ v hv hk m hm hp

/-- Values that come hang from the node that shows them from then on. -/
theorem Linked.displays_showRows (hd : d.Linked) (h : d.Displays) (id : NodeId) (label : String)
    (rows : List Row) : ((rows.foldl (addValueNode id label) d).modify id fun n =>
      { n with fixed := true, expanded := true }).Displays := by
  refine displays_modify (fun _ => rfl) fun v hv hk n hn hp => ?_
  split
  · rfl
  · rename_i hne
    rw [addValueNodes_nodes] at hv hn
    have hvd : v ∈ d.nodes := by
      rcases List.mem_append.1 hv with hv | hv
      · exact hv
      · obtain ⟨i, hi, rfl⟩ := List.mem_mapIdx.1 hv
        exact absurd (Option.some.inj hp).symm hne
    rcases List.mem_append.1 hn with hn | hn
    · exact h v hvd hk n hn hp
    · obtain ⟨i, hi, rfl⟩ := List.mem_mapIdx.1 hn
      have hbefore := hd.parentBefore v hvd _ hp
      have hbound := hd.bounded v hvd
      simp only [shownNode] at hbefore
      omega

theorem Linked.displays_expandValues (hd : d.Linked) (h : d.Displays) (id : NodeId) :
    (d.expandValues id).2.Displays := by
  have hc := hd.displays_collapseValues h id
  cases hn : d.node? id with
  | none => rwa [expandValues_of_none (by simp [hn])]
  | some n =>
    cases hr : n.data with
    | none => rwa [expandValues_of_none (by simp [hn, hr])]
    | some rows =>
      rw [expandValues_eq hn hr]
      exact ((hd.collapseValues id).displays_showRows hc id n.label _).setPinned _ _

theorem Linked.displays_turnPage (hd : d.Linked) (h : d.Displays) (id : NodeId)
    (turn : Nat → Nat) : (d.turnPage id turn).2.Displays := by
  rw [turnPage_snd]
  refine Linked.displays_expandValues ?_ ?_ id
  · exact hd.modify fun _ => rfl
  · exact h.modify (fun _ => rfl) fun _ => rfl

theorem Linked.displays_selectValue (hd : d.Linked) (h : d.Displays) (id : NodeId) :
    (d.selectValue id).2.Displays := by
  unfold Diagram.selectValue
  split
  · exact h
  · split
    · split
      · exact h
      · refine Linked.displays_collapseValues ?_ ?_ _
        · exact hd.modify fun _ => rfl
        · exact h.modify (fun _ => rfl) fun _ => rfl
    · exact h

/-! ## Pruning -/

theorem Displays.removeSubtree (h : d.Displays) (id : NodeId) :
    (d.removeSubtree id).2.Displays := by
  rw [removeSubtree_snd]
  exact h.keep _ _

theorem Displays.removeSubtrees (h : d.Displays) (ids : List NodeId) :
    (ids.foldl (fun d x => (d.removeSubtree x).2) d).Displays :=
  List.foldlRecOn ids _ h fun _ he x _ => he.removeSubtree x

theorem Linked.displays_pruneNegated (hd : d.Linked) (h : d.Displays) (id : NodeId) :
    (d.pruneNegated id).Displays := by
  have hlinked : ((d.children id).foldl (fun d x => (d.removeSubtree x).2) d).Linked :=
    hd.strokes (p := .plain) (Strokes.removeSubtrees .refl _)
  unfold Diagram.pruneNegated
  exact (hlinked.displays_collapseValues (h.removeSubtrees _) id).modify (fun _ => rfl) fun _ => rfl

theorem Linked.displays_removeValue (hd : d.Linked) (h : d.Displays) (id value : NodeId) :
    (d.removeValue id value).2.Displays := by
  unfold Diagram.removeValue
  split
  · exact h
  · rename_i n hn
    have hunselected : (d.modify id fun m =>
        { m with selected := n.selected.filter fun v => v.id != value }).Displays :=
      h.modify (fun _ => rfl) fun _ => rfl
    dsimp only
    split
    · exact h
    · split
      · refine Linked.displays_pruneNegated ?_ hunselected id
        exact hd.modify fun _ => rfl
      · exact hunselected

theorem Linked.displays_negate (hd : d.Linked) (h : d.Displays) (id : NodeId) :
    (d.negate id).2.Displays := by
  have hset {e : Diagram} (he : e.Displays) (negative : Bool) :
      (e.modify id fun n => { n with negative }).Displays :=
    he.modify (fun _ => rfl) fun _ => rfl
  unfold Diagram.negate
  split
  · exact h
  · split
    · exact h
    · split
      · exact hset h false
      · dsimp only
        split
        · exact hset h true
        · exact hset (hd.displays_pruneNegated h id) true

/-! ## Operations -/

theorem Linked.displays_run (hd : d.Linked) (h : d.Displays) (p : Provider) (o : Operation) :
    (o.run p d).2.Displays := by
  cases o with
  | addRoot label anchor =>
    exact displays_of_query fun n hn => ((addRoot_fresh p label anchor d).2 n hn).kind
  | addSchema s anchor =>
    exact displays_of_query fun n hn => ((addSchema_fresh p s anchor d).2 n hn).kind
  | clear => exact displays_of_query (by simp [Operation.run, Diagram.clear])
  | expandRelationship id index =>
    simp only [Operation.run, Operation.outcome, Diagram.expandRelationship]
    split
    · exact h
    · split
      · exact h
      · exact hd.displays_attachChild h p id _
  | setRelationships id segments =>
    simp only [Operation.run, Operation.outcome, Diagram.setRelationships]
    split
    · exact h
    · exact h.modify (fun _ => rfl) fun _ => rfl
  | setData id rows =>
    simp only [Operation.run, Operation.outcome, Diagram.setData]
    split
    · exact h
    · exact h.modify (fun _ => rfl) fun _ => rfl
  | expandValues id => exact hd.displays_expandValues h id
  | collapseValues id => exact hd.displays_collapseValues h id
  | selectValue id => exact hd.displays_selectValue h id
  | removeValue id value => exact hd.displays_removeValue h id value
  | negate id => exact hd.displays_negate h id
  | removeNode id =>
    simp only [Operation.run, Operation.outcome, Diagram.removeNode]
    split
    · exact h
    · split
      · exact displays_of_query (by simp [Diagram.clear])
      · exact h.removeSubtree id
  | nextPage id =>
    simp only [Operation.run, Operation.outcome, Diagram.nextPage]
    split
    · exact hd.displays_turnPage h id _
    · exact h
  | previousPage id =>
    simp only [Operation.run, Operation.outcome, Diagram.previousPage]
    split
    · exact hd.displays_turnPage h id _
    · exact h

theorem Linked.displays_runAll (hd : d.Linked) (h : d.Displays) (p : Provider)
    (ops : List Operation) : (Operation.runAll p ops d).Displays := by
  induction ops generalizing d with
  | nil => exact h
  | cons o rest ih => exact ih (hd.run o) (hd.displays_run h p o)

theorem ReachableBy.displays {admits : Operation → Diagram → Prop} (h : d.ReachableBy p admits) :
    d.Displays := by
  induction h with
  | new pageSize => exact displays_of_query (by simp [Diagram.new])
  | step h o _ ih => exact h.linked.displays_run ih p o

/-! ## Rows in their order -/

/-- The rows of the candidate values shown under a node. -/
def shownRows (d : Diagram) (id : NodeId) : List (Option Row) :=
  (d.valueNodes id).map Node.attributes

/-- A node is a candidate value of another one. -/
def isCandidateOf (id : NodeId) (v : Node) : Bool := v.kind == .value && v.parent == some id

/-- Links and nodes run in step, so the values that links lead to are met in the order of the
nodes. -/
theorem Linked.valueNodes_eq (h : d.Linked) (id : NodeId) :
    d.valueNodes id = d.nodes.filter (isCandidateOf id) := by
  let value (e : LinkKind × NodeId × NodeId) : Option Node :=
    if e.1 == .value && e.2.1 == id then d.node? e.2.2 else none
  calc d.valueNodes id = (d.links.map Link.edge).filterMap value := by
        simp only [valueNodes, valueLinks, List.filterMap_filter, List.filterMap_map]
        rfl
    _ = d.nodes.filterMap fun v => v.edge?.bind value := by
        rw [h.edges, List.filterMap_filterMap]
    _ = d.nodes.filterMap (Option.guard (isCandidateOf id)) := by
        refine List.filterMap_congr fun v hv => ?_
        cases hp : v.parent with
        | none => simp [Node.edge?, hp, isCandidateOf, Option.guard]
        | some x =>
          have hkind : (v.kind.link == LinkKind.value) = (v.kind == .value) := by
            cases v.kind <;> rfl
          simp only [Node.edge?, hp, Option.map_some, Option.bind_some, value, hkind,
            h.node?_of_mem hv, Option.guard, isCandidateOf, Option.some_beq_some]
    _ = d.nodes.filter (isCandidateOf id) := by rw [List.filterMap_eq_filter]

theorem Linked.shownRows_eq (h : d.Linked) (id : NodeId) :
    d.shownRows id = (d.nodes.filter (isCandidateOf id)).map Node.attributes := by
  rw [shownRows, h.valueNodes_eq]

/-- A change of what nodes are not made with changes no row that is shown. -/
theorem Linked.shownRows_modify (h : d.Linked) {f : Node → Node}
    (hf : ∀ n, (f n).origin = n.origin) : (d.modify x f).shownRows id = d.shownRows id := by
  have horigin (n : Node) : (if n.id = x then f n else n).origin = n.origin := by
    split
    · exact hf n
    · rfl
  have hmodified : (d.modify x f).Linked := h.modify fun n => Node.place_of_origin (hf n)
  rw [hmodified.shownRows_eq, h.shownRows_eq]
  simp only [Diagram.modify, List.filter_map, List.map_map]
  have hcandidate : isCandidateOf id ∘ (fun n => if n.id = x then f n else n) =
      isCandidateOf id := by
    funext n
    simp only [Function.comp, isCandidateOf, Node.kind_of_origin (horigin n),
      Node.parent_of_origin (horigin n)]
  rw [hcandidate]
  refine List.map_congr_left fun n _ => ?_
  exact Node.congr_origin (horigin n) Node.attributes fun _ => rfl

theorem Linked.shownRows_setPinned (h : d.Linked) (parent : Option NodeId) (fixed : Bool) :
    (d.setPinned parent fixed).shownRows id = d.shownRows id := by
  cases parent with
  | none => rfl
  | some y =>
    refine h.shownRows_modify fun n => ?_
    split <;> rfl

/-- A node whose candidates were hidden does not show any. -/
theorem Numbered.collapsed_of_collapseValues (h : d.Numbered) {m : Node}
    (hm : m ∈ (d.collapseValues id).2.nodes) (hid : m.id = id) : m.expanded = false := by
  cases hn : d.node? id with
  | none =>
    rw [collapseValues_of_collapsed (by simp [hn])] at hm
    have := h.node?_of_mem hm
    rw [hid, hn] at this
    cases this
  | some n =>
    cases he : n.expanded with
    | false =>
      rw [collapseValues_of_collapsed (by simp [hn, he])] at hm
      rwa [h.eq_of_node? hn hm hid]
    | true =>
      rw [collapseValues_eq hn he] at hm
      have hmarked : ∀ k ∈ ((d.withoutValues id).modify id fun n =>
          { n with expanded := false, fixed := n.isRoot && n.fixed }).nodes,
          k.id = id → k.expanded = false := by
        intro k hk hkid
        obtain ⟨k, hk, rfl⟩ := mem_modify.1 hk
        split at hkid
        · rw [if_pos ‹_›]
        · exact absurd hkid ‹_›
      cases hp : n.parent with
      | none =>
        rw [hp] at hm
        exact hmarked m hm hid
      | some y =>
        rw [hp] at hm
        obtain ⟨k, hk, rfl⟩ := mem_modify.1 hm
        have hkid : k.id = id := by
          rw [← hid]
          split
          · split <;> rfl
          · rfl
        have hk := hmarked k hk hkid
        split
        · split <;> exact hk
        · exact hk

/-- Once they are hidden, no candidates are left under a node. -/
theorem Linked.no_candidates (hd : d.Linked) (h : d.Displays) (hid : d.Live id) :
    (d.collapseValues id).2.nodes.filter (isCandidateOf id) = [] := by
  rw [List.filter_eq_nil_iff]
  intro v hv hcandidate
  simp only [isCandidateOf, Bool.and_eq_true, beq_iff_eq] at hcandidate
  obtain ⟨m, hm, hmid⟩ := hd.live_collapseValues hid
  have hshown := hd.displays_collapseValues h id v hv hcandidate.1 m hm (by rw [hmid, hcandidate.2])
  rw [hd.collapsed_of_collapseValues hm hmid] at hshown
  cases hshown

/-- Where no candidates were, those that come are shown in the order of their rows. -/
theorem Linked.shownRows_addValueNodes (h : d.Linked) (hid : d.Live id)
    (hnone : d.nodes.filter (isCandidateOf id) = []) (label : String) (rows : List Row) :
    (rows.foldl (addValueNode id label) d).shownRows id = rows.map some := by
  obtain ⟨n, hn, hnid⟩ := hid
  have hbound : id.number < d.nextNode := by
    rw [← hnid]
    exact h.bounded n hn
  have hlinked : (rows.foldl (addValueNode id label) d).Linked :=
    h.strokes (p := .plain) (Strokes.addValueNodes .refl hbound label rows)
  rw [hlinked.shownRows_eq, addValueNodes_nodes, List.filter_append, hnone, List.nil_append,
    List.filter_eq_self.2]
  · apply List.ext_getElem <;> simp [shownNode]
  · intro v hv
    obtain ⟨i, hi, rfl⟩ := List.mem_mapIdx.1 hv
    simp [isCandidateOf, shownNode]

theorem node?_addValueNodes (hn : d.node? id = some n) (y : NodeId) (label : String)
    (rows : List Row) : (rows.foldl (addValueNode y label) d).node? id = some n :=
  node?_append (addValueNodes_nodes y label rows d) hn

/-- To show the candidates of a node is to show the rows of its page, in their order, and nothing
else. What is stored on the node stays, and so does its page. -/
theorem Linked.shownRows_expandValues (hd : d.Linked) (h : d.Displays)
    (hn : d.node? id = some n) {rows : List Row} (hr : n.data = some rows) :
    (d.expandValues id).2.shownRows id = (pageRows d.pageSize n rows).map some ∧
      ∃ n', (d.expandValues id).2.node? id = some n' ∧ n.Keeps n' := by
  have hid : d.Live id := ⟨n, mem_of_node? hn, id_of_node? hn⟩
  have hc := hd.collapseValues id
  have hlive := hd.live_collapseValues hid
  have htraces := (Traces.refl d).collapseValues id
  obtain ⟨m, hm⟩ := Option.isSome_iff_exists.1 (node?_isSome_iff.2 hlive)
  have hkeeps := htraces.keeps_of_node? hd.toNumbered hn (mem_of_node? hm) (id_of_node? hm)
  let rows' := pageRows (d.collapseValues id).2.pageSize n rows
  let shown := rows'.foldl (addValueNode id n.label) (d.collapseValues id).2
  have hshown : shown.Linked :=
    hc.strokes (p := .plain) (Strokes.addValueNodes .refl (hc.number_lt_of_node? hm) n.label _)
  have hmarked : (shown.modify id fun n => { n with fixed := true, expanded := true }).Linked :=
    hshown.modify fun _ => rfl
  rw [expandValues_eq hn hr]
  constructor
  · rw [hmarked.shownRows_setPinned, hshown.shownRows_modify,
      hc.shownRows_addValueNodes hlive (hd.no_candidates h hid)]
    · rw [← htraces.pageSize]
    · exact fun _ => rfl
  · have hm' := node?_addValueNodes hm id n.label rows'
    have hlast := traces_markExpanded id n.parent shown
    have hlive' : ((shown.modify id fun n =>
        { n with fixed := true, expanded := true }).setPinned n.parent true).Live id := by
      refine (live_setPinned _ _).2 ((live_modify ?_).2 ⟨m, mem_of_node? hm', id_of_node? hm'⟩)
      exact fun _ => rfl
    obtain ⟨n', hn'⟩ := Option.isSome_iff_exists.1 (node?_isSome_iff.2 hlive')
    exact ⟨n', hn', hkeeps.trans
      (hlast.keeps_of_node? hshown.toNumbered hm' (mem_of_node? hn') (id_of_node? hn'))⟩

end PatternQuery.Diagram
