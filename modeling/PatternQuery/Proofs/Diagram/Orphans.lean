import PatternQuery.Proofs.Diagram.Edits

/-!
# Orphans

Whatever the arguments of operations are, links lead to nodes that are there. What they come from
may be gone: segments can be stored on a candidate value, a child that is made along one of them
hangs from the value, and where candidates are hidden, only the values go
(`Linked.sourced_withoutValues`). This is the one way in which a diagram comes to pieces: of all
strokes just the hiding of candidates with something below them leaves orphans, so an operation
keeps a diagram whole if and only if it does not do this (`Operation.orphans`).
-/

namespace PatternQuery

namespace Diagram

/-- There is a node with this id. -/
def Live (d : Diagram) (id : NodeId) : Prop := ∃ n ∈ d.nodes, n.id = id

instance (d : Diagram) (id : NodeId) : Decidable (d.Live id) :=
  inferInstanceAs (Decidable (∃ n ∈ d.nodes, n.id = id))

/-- Nothing hangs from a node that is gone, and no link comes from one or leads to one. -/
structure Whole (d : Diagram) : Prop where
  ends : ∀ l ∈ d.links, d.Live l.source ∧ d.Live l.target
  parents : ∀ n ∈ d.nodes, n.kind ≠ .root → ∃ x, n.parent = some x ∧ d.Live x

/-- Hiding the candidates of a node would leave something behind that hangs from one of them. -/
def strands (d : Diagram) (id : NodeId) : Bool :=
  (d.node? id).any Node.expanded &&
    (d.valueLinks id).any fun l => d.links.any fun k => k.source == l.target

end Diagram

/-- The node whose candidates an operation hides. -/
def Operation.hides? (o : Operation) (d : Diagram) : Option NodeId :=
  match o with
  | expandValues id | collapseValues id => some id
  | nextPage id => if d.hasNextPage id then some id else none
  | previousPage id => if d.hasPreviousPage id then some id else none
  | selectValue id =>
    (d.node? id).bind fun n => if n.kind == .value then n.parent else none
  | removeValue id value =>
    if (d.node? id).any fun n => n.negative && n.hasValue && n.selected.all fun v => v.id == value
    then some id else none
  | negate id =>
    if (d.node? id).any fun n => n.kind == .choose && !n.negative && !n.hasValue
    then some id else none
  | _ => none

/-- Hides a candidate with something below it, which stays. -/
def Operation.orphans (o : Operation) (d : Diagram) : Bool := (o.hides? d).any d.strands

namespace Diagram

variable {d e : Diagram} {id x : NodeId} {n : Node} {l : Link}

/-- Every link comes from a node. -/
def Sourced (d : Diagram) : Prop := ∀ l ∈ d.links, d.Live l.source

instance (d : Diagram) : Decidable d.Sourced :=
  inferInstanceAs (Decidable (∀ l ∈ d.links, d.Live l.source))

theorem Linked.live_target (h : d.Linked) (hl : l ∈ d.links) : d.Live l.target := by
  obtain ⟨n, hn, ht, -⟩ := h.edge_mem hl
  exact ⟨n, hn, ht⟩

/-- Nodes and links run in step, so the sources of links tell all. -/
theorem Linked.whole_iff (h : d.Linked) : d.Whole ↔ d.Sourced := by
  constructor
  · intro hw l hl
    exact (hw.ends l hl).1
  · intro hs
    refine ⟨fun l hl => ⟨hs l hl, h.live_target hl⟩, fun n hn hk => ?_⟩
    obtain ⟨x, hx⟩ := h.exists_parent hn hk
    obtain ⟨l, hl, -, rfl, -⟩ := h.link_of_parent hn hx
    exact ⟨l.source, hx, hs l hl⟩

theorem strands_eq_false_iff :
    d.strands id = false ↔ ((d.node? id).any Node.expanded = true →
      ∀ l ∈ d.valueLinks id, ∀ k ∈ d.links, k.source ≠ l.target) := by
  simp only [strands, Bool.and_eq_false_imp, List.any_eq_false, beq_iff_eq, Bool.not_eq_true]

/-! ## Strokes -/

theorem live_modify {f : Node → Node} (hf : ∀ n, (f n).place = n.place) :
    (d.modify id f).Live x ↔ d.Live x := by
  have hid (n : Node) := (Node.place_eq_iff.1 (place_ite hf id n)).1
  simp only [Live, mem_modify]
  constructor
  · rintro ⟨n, ⟨m, hm, rfl⟩, hx⟩
    exact ⟨m, hm, by rwa [hid] at hx⟩
  · rintro ⟨n, hn, hx⟩
    exact ⟨_, ⟨n, hn, rfl⟩, by rwa [hid]⟩

theorem sourced_modify {f : Node → Node} (hf : ∀ n, (f n).place = n.place) :
    (d.modify id f).Sourced ↔ d.Sourced := by
  simp only [Sourced, live_modify hf]
  rfl

theorem Sourced.modify (hs : d.Sourced) {f : Node → Node} (hf : ∀ n, (f n).place = n.place) :
    (d.modify id f).Sourced :=
  (sourced_modify hf).2 hs

theorem sourced_setPinned (parent : Option NodeId) (fixed : Bool) :
    (d.setPinned parent fixed).Sourced ↔ d.Sourced := by
  cases parent with
  | none => rfl
  | some id =>
    refine sourced_modify fun n => ?_
    split <;> rfl

/-- A node that comes is the source of no link that is there. -/
theorem Linked.sourced_attach (h : d.Linked) (hn : n.id.number = d.nextNode)
    (hl : d.Live l.source) : (d.attach n l).Sourced ↔ d.Sourced := by
  have hold {x : NodeId} (hx : d.Live x) : (d.attach n l).Live x := by
    obtain ⟨m, hm, hmx⟩ := hx
    exact ⟨m, List.mem_append_left _ hm, hmx⟩
  constructor
  · intro hs k hk
    obtain ⟨m, hm, hmk⟩ := hs k (List.mem_append_left _ hk)
    rcases List.mem_append.1 hm with hm | hm
    · exact ⟨m, hm, hmk⟩
    · rw [List.mem_singleton.1 hm] at hmk
      obtain ⟨t, ht, htk⟩ := h.live_target hk
      have hbefore := h.sourceBefore k hk
      have hbound := h.bounded t ht
      rw [htk] at hbound
      rw [← hmk, hn] at hbefore
      omega
  · intro hs k hk
    rcases List.mem_append.1 hk with hk | hk
    · exact hold (hs k hk)
    · rw [List.mem_singleton.1 hk]
      exact hold hl

/-- A link that leads away from a candidate value stays where the value is hidden. -/
theorem Linked.not_isValueOf (h : d.Linked) (hl : l ∈ d.valueLinks id) {k : Link}
    (hk : k.source = l.target) : k.isValueOf id = false := by
  obtain ⟨hmem, hvalue⟩ := List.mem_filter.1 hl
  have hbefore := h.sourceBefore l hmem
  simp only [Link.isValueOf, Bool.and_eq_true, beq_iff_eq] at hvalue
  apply Bool.eq_false_iff.2
  intro hkv
  simp only [Link.isValueOf, Bool.and_eq_true, beq_iff_eq] at hkv
  rw [← hk, hvalue.2, hkv.2] at hbefore
  omega

theorem Linked.sourced_withoutValues (h : d.Linked) (hs : d.Sourced) (id : NodeId) :
    (d.withoutValues id).Sourced ↔
      ∀ l ∈ d.valueLinks id, ∀ k ∈ d.links, k.source ≠ l.target := by
  constructor
  · intro hsourced l hl k hk hkl
    have hstays : k ∈ (d.withoutValues id).links := by
      refine List.mem_filter.2 ⟨hk, ?_⟩
      rw [h.not_isValueOf hl hkl]
      rfl
    obtain ⟨m, hm, hmk⟩ := hsourced k hstays
    have hgone := (List.mem_filter.1 hm).2
    rw [Bool.not_eq_true', ← Bool.not_eq_true, List.contains_iff_mem, hmk, hkl] at hgone
    exact hgone (List.mem_map_of_mem hl)
  · intro hnone k hk
    have hkd := (List.mem_filter.1 hk).1
    obtain ⟨m, hm, hmk⟩ := hs k hkd
    refine ⟨m, List.mem_filter.2 ⟨hm, ?_⟩, hmk⟩
    rw [Bool.not_eq_true', ← Bool.not_eq_true, List.contains_iff_mem]
    intro hshown
    obtain ⟨l, hl, hlm⟩ := List.mem_map.1 hshown
    exact hnone l hl k hkd (hmk.symm.trans hlm.symm)

/-- A node goes with the links that come from it. -/
theorem Sourced.removeSubtree (hs : d.Sourced) (id : NodeId) : (d.removeSubtree id).2.Sourced := by
  intro k hk
  rw [removeSubtree_snd] at hk ⊢
  obtain ⟨hkd, hstays⟩ := List.mem_filter.1 hk
  simp only [Bool.and_eq_true] at hstays
  obtain ⟨m, hm, hmk⟩ := hs k hkd
  exact ⟨m, List.mem_filter.2 ⟨hm, by rw [hmk]; exact hstays.1⟩, hmk⟩

/-! ## Hiding candidates -/

theorem strands_modify {f : Node → Node} (hf : ∀ n, (f n).place = n.place)
    (he : ∀ n, (f n).expanded = n.expanded) : (d.modify x f).strands id = d.strands id := by
  have hnode : ((d.modify x f).node? id).any Node.expanded = (d.node? id).any Node.expanded := by
    rw [node?_modify fun n => (Node.place_eq_iff.1 (hf n)).1]
    cases d.node? id with
    | none => rfl
    | some n =>
      simp only [Option.map_some, Option.any_some]
      split
      · exact he n
      · rfl
  unfold strands
  rw [hnode]
  rfl

theorem Linked.sourced_collapseValues (h : d.Linked) (hs : d.Sourced) (id : NodeId) :
    (d.collapseValues id).2.Sourced ↔ d.strands id = false := by
  cases hn : d.node? id with
  | none =>
    rw [collapseValues_of_collapsed (by simp [hn])]
    simp [strands, hn, hs]
  | some n =>
    cases he : n.expanded with
    | false =>
      rw [collapseValues_of_collapsed (by simp [hn, he])]
      simp [strands, hn, he, hs]
    | true =>
      rw [collapseValues_eq hn he, sourced_setPinned, sourced_modify,
        h.sourced_withoutValues hs, strands_eq_false_iff]
      · simp [hn, he]
      · exact fun _ => rfl

theorem Linked.sourced_addValueNodes (h : d.Linked) (hid : d.Live id) (label : String)
    (rows : List Row) : (rows.foldl (addValueNode id label) d).Sourced ↔ d.Sourced := by
  induction rows generalizing d with
  | nil => rfl
  | cons row rows ih =>
    obtain ⟨n, hn, hnid⟩ := hid
    have hbound := h.bounded n hn
    rw [hnid] at hbound
    rw [List.foldl_cons, ih, addValueNode_eq]
    · exact h.sourced_attach rfl ⟨n, hn, hnid⟩
    · exact h.attach rfl rfl rfl (by simp) hbound
    · exact ⟨n, List.mem_append_left _ hn, hnid⟩

theorem Linked.live_withoutValues (h : d.Linked) (hn : d.Live id) :
    (d.withoutValues id).Live id := by
  obtain ⟨n, hn, rfl⟩ := hn
  refine ⟨n, List.mem_filter.2 ⟨hn, ?_⟩, rfl⟩
  rw [Bool.not_eq_true', ← Bool.not_eq_true, List.contains_iff_mem, h.mem_shown_iff _ hn]
  rintro ⟨-, hp⟩
  have := h.parentBefore n hn _ hp
  omega

theorem live_setPinned (parent : Option NodeId) (fixed : Bool) :
    (d.setPinned parent fixed).Live x ↔ d.Live x := by
  cases parent with
  | none => rfl
  | some id =>
    refine live_modify fun n => ?_
    split <;> rfl

theorem Linked.live_collapseValues (h : d.Linked) (hn : d.Live id) :
    (d.collapseValues id).2.Live id := by
  cases hd : d.node? id with
  | none => rwa [collapseValues_of_collapsed (by simp [hd])]
  | some n =>
    cases he : n.expanded with
    | false => rwa [collapseValues_of_collapsed (by simp [hd, he])]
    | true =>
      rw [collapseValues_eq hd he, live_setPinned, live_modify]
      · exact h.live_withoutValues hn
      · exact fun _ => rfl

theorem Linked.collapseValues (h : d.Linked) (id : NodeId) : (d.collapseValues id).2.Linked :=
  h.strokes (p := .plain) (Strokes.collapseValues .refl id)

theorem Linked.sourced_expandValues (h : d.Linked) (hs : d.Sourced) (id : NodeId) :
    (d.expandValues id).2.Sourced ↔ d.strands id = false := by
  rw [← h.sourced_collapseValues hs]
  cases hn : d.node? id with
  | none => rw [expandValues_of_none (by simp [hn])]
  | some n =>
    cases hr : n.data with
    | none => rw [expandValues_of_none (by simp [hn, hr])]
    | some rows =>
      rw [expandValues_eq hn hr, sourced_setPinned, sourced_modify]
      · apply (h.collapseValues id).sourced_addValueNodes
        apply h.live_collapseValues
        exact ⟨n, mem_of_node? hn, id_of_node? hn⟩
      · exact fun _ => rfl

theorem Linked.sourced_turnPage (h : d.Linked) (hs : d.Sourced) (id : NodeId) (turn : Nat → Nat) :
    (d.turnPage id turn).2.Sourced ↔ d.strands id = false := by
  rw [turnPage_snd, Linked.sourced_expandValues, strands_modify]
  · exact fun _ => rfl
  · exact fun _ => rfl
  · exact h.modify fun _ => rfl
  · exact hs.modify fun _ => rfl

/-- Values are selected on the parents of value nodes, whose candidates are hidden then. -/
theorem hides?_selectValue (hn : d.node? id = some n) :
    (Operation.selectValue id).hides? d = if n.kind = .value then n.parent else none := by
  simp [Operation.hides?, hn]

theorem Linked.sourced_selectValue (h : d.Linked) (hs : d.Sourced) (id : NodeId) :
    (d.selectValue id).2.Sourced ↔ (Operation.selectValue id).orphans d = false := by
  unfold Diagram.selectValue Operation.orphans
  cases hn : d.node? id with
  | none => simpa [Operation.hides?, hn] using hs
  | some n =>
    rw [hides?_selectValue hn]
    dsimp only
    split
    · rename_i x hk hp
      rw [if_pos hk, hp, Option.any_some]
      cases hx : d.node? x with
      | none => simpa [hx, strands] using hs
      | some m =>
        dsimp only
        rw [Linked.sourced_collapseValues, strands_modify]
        · exact fun _ => rfl
        · exact fun _ => rfl
        · exact h.modify fun _ => rfl
        · exact hs.modify fun _ => rfl
    · rename_i hno
      refine iff_of_true hs ?_
      by_cases hk : n.kind = .value
      · rw [if_pos hk]
        cases hp : n.parent with
        | none => rfl
        | some x => exact absurd hp (hno x hk)
      · rw [if_neg hk, Option.any_none]

theorem Linked.sourced_nextPage (h : d.Linked) (hs : d.Sourced) (id : NodeId) :
    (d.nextPage id).2.Sourced ↔ (Operation.nextPage id).orphans d = false := by
  unfold Diagram.nextPage
  simp only [Operation.orphans, Operation.hides?]
  by_cases hpage : d.hasNextPage id
  · rw [if_pos hpage, if_pos hpage]
    exact h.sourced_turnPage hs id _
  · rw [if_neg hpage, if_neg hpage]
    exact iff_of_true hs rfl

theorem Linked.sourced_previousPage (h : d.Linked) (hs : d.Sourced) (id : NodeId) :
    (d.previousPage id).2.Sourced ↔ (Operation.previousPage id).orphans d = false := by
  unfold Diagram.previousPage
  simp only [Operation.orphans, Operation.hides?]
  by_cases hpage : d.hasPreviousPage id
  · rw [if_pos hpage, if_pos hpage]
    exact h.sourced_turnPage hs id _
  · rw [if_neg hpage, if_neg hpage]
    exact iff_of_true hs rfl

theorem Sourced.setRelationships (hs : d.Sourced) (id : NodeId) (segments : List Segment) :
    (d.setRelationships id segments).2.Sourced := by
  unfold Diagram.setRelationships
  split
  · exact hs
  · exact hs.modify fun _ => rfl

theorem Sourced.setData (hs : d.Sourced) (id : NodeId) (rows : List Row) :
    (d.setData id rows).2.Sourced := by
  unfold Diagram.setData
  split
  · exact hs
  · exact hs.modify fun _ => rfl

/-! ## Pruning -/

theorem node?_keep (q : NodeId → Bool) (r : Link → Bool) (hq : q id = true) :
    (d.keep q r).node? id = d.node? id := by
  simp only [node?, keep, List.find?_filter]
  congr 1
  funext n
  by_cases hn : n.id = id
  · simp [hn, hq]
  · simp [hn]

theorem isReachableFrom_eq_false (hx : id.number < x.number) : d.isReachableFrom x id = false := by
  apply Bool.eq_false_iff.2
  intro hreach
  have := number_le_of_isReachableFrom hreach
  omega

/-- What is below a node is reached from none of its children but the one it is below. -/
theorem Linked.not_isReachableFrom (h : d.Linked) (hl : l ∈ d.links) (hne : l.target ≠ x)
    (hs : d.isReachableFrom x l.source = false) : d.isReachableFrom x l.target = false := by
  rw [h.isReachableFrom_target hl, hs]
  simpa using hne

theorem node?_removeSubtrees {ids : List NodeId} (hids : ∀ x ∈ ids, id.number < x.number) :
    (ids.foldl (fun d x => (d.removeSubtree x).2) d).node? id = d.node? id := by
  induction ids generalizing d with
  | nil => rfl
  | cons x ids ih =>
    rw [List.foldl_cons, ih fun y hy => hids y (List.mem_cons_of_mem x hy), removeSubtree_snd,
      node?_keep]
    rw [isReachableFrom_eq_false (hids x List.mem_cons_self)]
    rfl

theorem links_removeSubtrees_subset (ids : List NodeId) :
    (ids.foldl (fun d x => (d.removeSubtree x).2) d).links ⊆ d.links := by
  induction ids generalizing d with
  | nil => exact List.Subset.refl _
  | cons x ids ih =>
    intro l hl
    exact (List.mem_filter.1 (ih hl)).1

/-- A link to a candidate of a node stays where nodes go that were made after the node, and so does
a link that leads away from the candidate. -/
theorem Linked.mem_links_removeSubtrees (h : d.Linked) (ids : List NodeId) {k : Link}
    (hids : ∀ x ∈ ids, l.source.number < x.number ∧ l.target ≠ x ∧ k.target ≠ x)
    (hl : l ∈ d.links) (hk : k ∈ d.links) (hkl : k.source = l.target) :
    l ∈ (ids.foldl (fun d x => (d.removeSubtree x).2) d).links ∧
      k ∈ (ids.foldl (fun d x => (d.removeSubtree x).2) d).links := by
  induction ids generalizing d with
  | nil => exact ⟨hl, hk⟩
  | cons x ids ih =>
    obtain ⟨hx, hlx, hkx⟩ := hids x List.mem_cons_self
    have hsource := isReachableFrom_eq_false (d := d) hx
    have hvalue := h.not_isReachableFrom hl hlx hsource
    rw [← hkl] at hvalue
    have hbelow := h.not_isReachableFrom hk hkx hvalue
    refine ih (h.removeSubtree x) (fun y hy => hids y (List.mem_cons_of_mem x hy)) ?_ ?_
    · refine List.mem_filter.2 ⟨hl, ?_⟩
      rw [hsource, ← hkl, hvalue]
      rfl
    · refine List.mem_filter.2 ⟨hk, ?_⟩
      rw [hvalue, hbelow]
      rfl

theorem Numbered.number_lt_of_mem_children (h : d.Numbered) (hx : x ∈ d.children id) :
    id.number < x.number := by
  obtain ⟨l, hl, rfl⟩ := List.mem_map.1 hx
  obtain ⟨hl, hsource⟩ := List.mem_filter.1 hl
  rw [← beq_iff_eq.1 hsource]
  exact h.sourceBefore l (List.mem_filter.1 hl).1

theorem Linked.strands_removeSubtrees (h : d.Linked) (id : NodeId) :
    ((d.children id).foldl (fun d x => (d.removeSubtree x).2) d).strands id = d.strands id := by
  have hchild : ∀ x ∈ d.children id,
      ∃ r ∈ d.links, r.kind = .relation ∧ r.source = id ∧ r.target = x := by
    intro x hx
    obtain ⟨r, hr, rfl⟩ := List.mem_map.1 hx
    obtain ⟨hr, hsource⟩ := List.mem_filter.1 hr
    obtain ⟨hr, hkind⟩ := List.mem_filter.1 hr
    exact ⟨r, hr, beq_iff_eq.1 hkind, beq_iff_eq.1 hsource, rfl⟩
  have hbefore : ∀ x ∈ d.children id, id.number < x.number := fun _ hx =>
    h.number_lt_of_mem_children hx
  unfold strands
  rw [node?_removeSubtrees hbefore]
  congr 1
  rw [Bool.eq_iff_iff]
  simp only [List.any_eq_true, beq_iff_eq]
  constructor
  · rintro ⟨l, hl, k, hk, hkl⟩
    obtain ⟨hl, hlv⟩ := List.mem_filter.1 hl
    exact ⟨l, List.mem_filter.2 ⟨links_removeSubtrees_subset _ hl, hlv⟩, k,
      links_removeSubtrees_subset _ hk, hkl⟩
  · rintro ⟨l, hl, k, hk, hkl⟩
    obtain ⟨hl, hlv⟩ := List.mem_filter.1 hl
    have hlv' := hlv
    simp only [Link.isValueOf, Bool.and_eq_true, beq_iff_eq] at hlv'
    obtain ⟨hkind, hsource⟩ := hlv'
    have hapart : ∀ x ∈ d.children id,
        l.source.number < x.number ∧ l.target ≠ x ∧ k.target ≠ x := by
      intro x hx
      obtain ⟨r, hr, hrk, hrs, rfl⟩ := hchild x hx
      refine ⟨?_, fun e => ?_, fun e => ?_⟩
      · rw [hsource]
        exact hbefore _ hx
      · rw [h.eq_of_target_eq hl hr e, hrk] at hkind
        simp at hkind
      · have hlt := h.sourceBefore l hl
        rw [h.eq_of_target_eq hk hr e, hrs] at hkl
        rw [← hkl, hsource] at hlt
        omega
    obtain ⟨hl', hk'⟩ := h.mem_links_removeSubtrees (d.children id) hapart hl hk hkl
    exact ⟨l, List.mem_filter.2 ⟨hl', hlv⟩, k, hk', hkl⟩

theorem Linked.sourced_pruneNegated (h : d.Linked) (hs : d.Sourced) (id : NodeId) :
    (d.pruneNegated id).Sourced ↔ d.strands id = false := by
  have hlinked (ids : List NodeId) :
      (ids.foldl (fun d x => (d.removeSubtree x).2) d).Linked :=
    h.strokes (p := .plain) (Strokes.removeSubtrees .refl ids)
  have hsourced (ids : List NodeId) :
      (ids.foldl (fun d x => (d.removeSubtree x).2) d).Sourced :=
    List.foldlRecOn ids _ hs fun _ he x _ => he.removeSubtree x
  unfold Diagram.pruneNegated
  rw [sourced_modify, Linked.sourced_collapseValues (hlinked _) (hsourced _),
    h.strands_removeSubtrees]
  exact fun _ => rfl

/-- A negation loses its last value where it has values and all of them go. -/
theorem loses_last_iff (selected : List SelectedValue) (value : NodeId) :
    ((selected.filter fun v => v.id != value).length ≠ selected.length ∧
        (selected.filter fun v => v.id != value).isEmpty = true) ↔
      selected.isEmpty = false ∧ (selected.all fun v => v.id == value) = true := by
  have hall : (selected.filter fun v => v.id != value).isEmpty = true ↔
      (selected.all fun v => v.id == value) = true := by
    simp [List.isEmpty_iff, List.filter_eq_nil_iff]
  rw [hall]
  refine and_congr_left fun h => ?_
  have hnil := List.isEmpty_iff.1 (hall.2 h)
  rw [hnil]
  cases selected <;> simp

theorem Linked.sourced_removeValue (h : d.Linked) (hs : d.Sourced) (id value : NodeId) :
    (d.removeValue id value).2.Sourced ↔ (Operation.removeValue id value).orphans d = false := by
  unfold Diagram.removeValue
  simp only [Operation.orphans, Operation.hides?]
  cases hn : d.node? id with
  | none => simpa using hs
  | some n =>
    have hlast := loses_last_iff n.selected value
    have hselect : (d.modify id fun m =>
        { m with selected := n.selected.filter fun v => v.id != value }).Sourced :=
      hs.modify fun _ => rfl
    -- If the node is no negation left without values, nothing is hidden.
    have hkept (hno : ¬ (n.negative = true ∧ n.selected.isEmpty = false ∧
        (n.selected.all fun v => v.id == value) = true)) :
        ¬ (n.negative && n.hasValue && n.selected.all fun v => v.id == value) = true := by
      simpa only [Node.hasValue, Bool.and_eq_true, Bool.not_eq_true', and_assoc] using hno
    simp only [Option.any_some]
    by_cases hlen : (n.selected.filter fun v => v.id != value).length = n.selected.length
    · rw [if_pos hlen, if_neg (hkept fun hall => (hlast.2 hall.2).1 hlen)]
      simpa using hs
    · rw [if_neg hlen]
      by_cases hempty : n.negative = true ∧
          (n.selected.filter fun v => v.id != value).isEmpty = true
      · obtain ⟨hvalues, hall⟩ := hlast.1 ⟨hlen, hempty.2⟩
        simp only [hempty.1, hempty.2, hall, Node.hasValue, hvalues, Bool.and_self,
          Bool.not_false, ↓reduceIte, Option.any_some]
        rw [Linked.sourced_pruneNegated _ hselect, strands_modify]
        · exact fun _ => rfl
        · exact fun _ => rfl
        · exact h.modify fun _ => rfl
      · rw [if_neg (hkept fun hall => hempty ⟨hall.1, (hlast.2 hall.2).2⟩)]
        rw [← Bool.and_eq_true] at hempty
        rw [if_neg hempty]
        simpa using hselect

theorem Linked.sourced_negate (h : d.Linked) (hs : d.Sourced) (id : NodeId) :
    (d.negate id).2.Sourced ↔ (Operation.negate id).orphans d = false := by
  have hmodify {e : Diagram} (b : Bool) :
      (e.modify id fun m => { m with negative := b }).Sourced ↔ e.Sourced :=
    sourced_modify fun _ => rfl
  unfold Diagram.negate
  simp only [Operation.orphans, Operation.hides?]
  cases hn : d.node? id with
  | none => simpa using hs
  | some n =>
    cases hk : n.kind == .choose with
    | false => simpa [bne, hk] using hs
    | true =>
      cases hneg : n.negative with
      | true => simpa [bne, hk, hneg, hmodify] using hs
      | false =>
        cases hv : n.hasValue with
        | true => simpa [bne, hk, hneg, hv, hmodify] using hs
        | false => simp [bne, hk, hneg, hv, hmodify, h.sourced_pruneNegated hs]

theorem Sourced.removeNode (hs : d.Sourced) (id : NodeId) : (d.removeNode id).2.Sourced := by
  unfold Diagram.removeNode
  split
  · exact hs
  · split
    · simp [Sourced, Diagram.clear]
    · exact hs.removeSubtree id

/-! ## Building -/

theorem Linked.sourced_attachChild (h : d.Linked) (hid : d.Live id) (p : Provider) (s : Segment)
    (kind : NodeKind) : (d.attachChild p id s kind).2.Sourced ↔ d.Sourced := by
  rw [attachChild_eq]
  exact h.sourced_attach (n := childNode p id s kind d) (l := childLink id s d) rfl hid

theorem Linked.sourced_expandRelationship (h : d.Linked) (hs : d.Sourced) (p : Provider)
    (id : NodeId) (index : Nat) : (d.expandRelationship p id index).2.Sourced := by
  unfold Diagram.expandRelationship
  split
  · exact hs
  · rename_i n hn
    split
    · exact hs
    · exact (h.sourced_attachChild ⟨n, mem_of_node? hn, id_of_node? hn⟩ p _ .choose).2 hs

theorem Linked.sourced_addRoot (h : d.Linked) (p : Provider) (label : String)
    (anchor : Option Position) : (d.addRoot p label anchor).2.Sourced := by
  unfold Diagram.addRoot
  cases hd : d.isEmpty with
  | false => simp [Sourced, addNode, Diagram.clear]
  | true =>
    intro l hl
    obtain ⟨n, hn, -⟩ := h.live_target hl
    rw [List.isEmpty_iff.1 hd] at hn
    exact absurd hn List.not_mem_nil

theorem Linked.sourced_addSchema (h : d.Linked) (p : Provider) (s : Schema)
    (anchor : Option Position) : (d.addSchema p s anchor).2.Sourced := by
  refine (applySchema_induction (P := fun e => e.Linked ∧ e.Sourced) p ?_ ?_ ?_ _ s _ ?_
    (isQueryNode_addRoot p s.label anchor d)).1.2
  · intro e id label rows ⟨he, hs⟩ _
    exact ⟨(he.setAside rows.length).modify fun _ => rfl, hs.modify fun _ => rfl⟩
  · intro e id segments ⟨he, hs⟩ _
    exact ⟨he.modify fun _ => rfl, hs.modify fun _ => rfl⟩
  · intro e id s kind hk ⟨he, hs⟩ ⟨n, hn, hid, _⟩
    refine ⟨?_, (he.sourced_attachChild ⟨n, hn, hid⟩ p s kind).2 hs⟩
    refine he.stroke (.attachChild id s kind hk ?_)
    rw [← hid]
    exact he.bounded n hn
  · exact ⟨h.run (.addRoot s.label anchor), h.sourced_addRoot p s.label anchor⟩

/-- In a diagram without orphans an operation leaves some if and only if it hides candidates that
have something below them. -/
theorem Linked.sourced_run (h : d.Linked) (hs : d.Sourced) (p : Provider) (o : Operation) :
    (o.run p d).2.Sourced ↔ o.orphans d = false := by
  cases o with
  | addRoot label anchor => exact iff_of_true (h.sourced_addRoot p label anchor) rfl
  | addSchema s anchor => exact iff_of_true (h.sourced_addSchema p s anchor) rfl
  | clear => exact iff_of_true (by simp [Operation.run, Sourced, Diagram.clear]) rfl
  | expandRelationship id index =>
    exact iff_of_true (h.sourced_expandRelationship hs p id index) rfl
  | setRelationships id segments => exact iff_of_true (hs.setRelationships id segments) rfl
  | setData id rows => exact iff_of_true (hs.setData id rows) rfl
  | expandValues id => exact h.sourced_expandValues hs id
  | collapseValues id => exact h.sourced_collapseValues hs id
  | selectValue id => exact h.sourced_selectValue hs id
  | removeValue id value => exact h.sourced_removeValue hs id value
  | negate id => exact h.sourced_negate hs id
  | removeNode id => exact iff_of_true (hs.removeNode id) rfl
  | nextPage id => exact h.sourced_nextPage hs id
  | previousPage id => exact h.sourced_previousPage hs id

/-! ## Reachable diagrams -/

theorem Linked.whole_run (h : d.Linked) (hw : d.Whole) (p : Provider) (o : Operation) :
    (o.run p d).2.Whole ↔ o.orphans d = false := by
  rw [(h.run o).whole_iff, h.sourced_run (h.whole_iff.1 hw)]

theorem whole_new (pageSize : Nat) : (Diagram.new pageSize).Whole := by
  constructor <;> simp [Diagram.new]

theorem ReachableBy.whole {p : Provider}
    (h : d.ReachableBy p fun o d => o.orphans d = false) : d.Whole := by
  induction h with
  | new pageSize => exact whole_new pageSize
  | step h o ho ih => exact (h.linked.whole_run ih p o).2 ho

/-- Where candidate values are spared, nothing hangs from one. -/
theorem Shape.strands_eq_false (h : d.Shape) (id : NodeId) : d.strands id = false := by
  rw [strands_eq_false_iff]
  intro _ l hl k hk hkl
  obtain ⟨hl, hlv⟩ := List.mem_filter.1 hl
  simp only [Link.isValueOf, Bool.and_eq_true, beq_iff_eq] at hlv
  obtain ⟨n, hn, hkn, hparent, -⟩ := h.edge_mem hk
  obtain ⟨m, hm, hmk, hquery⟩ := h.parentLive n hn _ hparent
  obtain ⟨-, hkind⟩ := h.parent_of_link hl hm (hmk.trans hkl)
  rw [hlv.1] at hkind
  exact hquery (NodeKind.link_eq_value_iff.1 hkind.symm)

theorem Shape.orphans_eq_false (h : d.Shape) (o : Operation) : o.orphans d = false := by
  unfold Operation.orphans
  cases o.hides? d with
  | none => rfl
  | some id => exact h.strands_eq_false id

/-- Whatever the arguments are, links lead to nodes, and every node but the root has a link that
leads to it from its parent. In a diagram that is whole, an operation leaves an orphan behind if and
only if it hides candidates with something below them; a diagram is whole if no operation that made
it did. None does where segments and candidates are stored on nodes of the query only. -/
theorem whole_of_reachable {p : Provider} (h : d.ReachableBy p fun _ _ => True) :
    (∀ l ∈ d.links, d.Live l.target) ∧
      (∀ n ∈ d.nodes, n.kind ≠ .root → ∃ l ∈ d.links, l.target = n.id ∧ n.parent = some l.source) ∧
      (d.Whole → ∀ o : Operation, (o.run p d).2.Whole ↔ o.orphans d = false) ∧
      ((d.ReachableBy p fun o d => o.orphans d = false) → d.Whole) ∧
      (d.Reachable p → ∀ o : Operation, o.orphans d = false) := by
  have hlinked := h.linked
  refine ⟨fun l hl => hlinked.live_target hl, fun n hn hk => ?_,
    fun hw o => hlinked.whole_run hw p o, fun hd => hd.whole,
    fun hd o => hd.wellFormed.orphans_eq_false o⟩
  obtain ⟨x, hx⟩ := hlinked.exists_parent hn hk
  obtain ⟨l, hl, ht, rfl, -⟩ := hlinked.link_of_parent hn hx
  exact ⟨l, hl, ht, hx⟩

/-- A child that is made along a segment of a shown candidate. -/
def fosterSteps : List Operation :=
  [.addRoot "Person" none, .setData ⟨0⟩ [Table.empty], .expandValues ⟨0⟩,
    .setRelationships ⟨1⟩ [{ label := "KNOWS", target := "Person", count := 1 }],
    .expandRelationship ⟨1⟩ 0]

/-- As long as the candidates are shown nothing is amiss; to hide them leaves the child behind. -/
theorem whole_until_collapse :
    let d := Operation.runAll .plain fosterSteps (.new 10)
    (d.ReachableBy .plain fun _ _ => True) ∧ d.Whole ∧
      ¬ ((Operation.collapseValues ⟨0⟩).run .plain d).2.Whole := by
  intro d
  have hd : d.ReachableBy .plain fun _ _ => True := ReachableBy.runAll (.new 10) fosterSteps
  have hw : d.Whole := hd.linked.whole_iff.2 (by decide +kernel)
  refine ⟨hd, hw, ?_⟩
  rw [(whole_of_reachable hd).2.2.1 hw]
  decide +kernel

/-- Then the child hangs from a node that is gone. -/
theorem not_whole_of_foster :
    ¬ ∀ (p : Provider) (d : Diagram), (d.ReachableBy p fun _ _ => True) → d.Whole := by
  intro hall
  have hd := ReachableBy.runAll (p := .plain) (.new 10) (fosterSteps ++ [.collapseValues ⟨0⟩])
  have hsourced := hd.linked.whole_iff.1 (hall .plain _ hd)
  revert hsourced
  decide +kernel

end Diagram

end PatternQuery
