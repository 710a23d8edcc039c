import PatternQuery.Proofs.Diagram.Edits
import PatternQuery.Proofs.Diagram.Identity

/-!
# Operations that leave candidates alone

Most operations neither store nor show candidates, and select nothing on the nodes that are there
(`Diagram.Traces`): what is stored on a node and the page it shows stay, and values are unselected
at most. What is true of stored candidates stays true after such an operation.
-/

namespace PatternQuery

/-- `n'` may be what becomes of `n`: the same is stored on it, and nothing more is selected. -/
structure Node.Keeps (n n' : Node) : Prop where
  origin : n'.origin = n.origin
  data : n'.data = n.data
  page : n'.page = n.page
  selected : n'.selected ⊆ n.selected

variable {d d' e : Diagram} {id : NodeId} {m n n' n'' : Node}

theorem Node.Keeps.refl (n : Node) : n.Keeps n := ⟨rfl, rfl, rfl, List.Subset.refl _⟩

theorem Node.Keeps.trans (h : n.Keeps n') (h' : n'.Keeps n'') : n.Keeps n'' :=
  ⟨h'.origin.trans h.origin, h'.data.trans h.data, h'.page.trans h.page,
    List.Subset.trans h'.selected h.selected⟩

theorem Node.Keeps.pageRows_eq (h : n.Keeps n') (pageSize : Nat) (rows : List Row) :
    Diagram.pageRows pageSize n' rows = Diagram.pageRows pageSize n rows := by
  rw [Diagram.pageRows, Diagram.pageRows, h.page]

/-- A node that came between two diagrams, without candidates; what is selected on it has numbers
of its own. -/
structure Node.Fresh (d d' : Diagram) (n : Node) : Prop where
  number : d.nextNode ≤ n.id.number
  kind : n.kind ≠ .value
  data : n.data = none
  page : n.page = 1
  known : ∀ v ∈ n.selected, d'.Knows v.id

theorem Node.Fresh.mono (h : n.Fresh d d') (he : d'.Continues e) : n.Fresh d e :=
  ⟨h.number, h.kind, h.data, h.page, fun v hv => he.knows (h.known v hv)⟩

namespace Diagram

/-- No candidates are stored or shown between two diagrams, and nothing is selected on the nodes
that stay. -/
structure Traces (d d' : Diagram) : Prop where
  continues : d.Continues d'
  pageSize : d'.pageSize = d.pageSize
  nodes : ∀ n' ∈ d'.nodes, (∃ n ∈ d.nodes, n.Keeps n') ∨ n'.Fresh d d'

theorem Traces.refl (d : Diagram) : d.Traces d :=
  ⟨.refl d, rfl, fun n hn => .inl ⟨n, hn, .refl n⟩⟩

theorem Traces.trans (h : d.Traces d') (h' : d'.Traces e) : d.Traces e where
  continues := h.continues.trans h'.continues
  pageSize := h'.pageSize.trans h.pageSize
  nodes n'' hn'' := by
    rcases h'.nodes n'' hn'' with ⟨n', hn', hkeeps'⟩ | hfresh
    · rcases h.nodes n' hn' with ⟨n, hn, hkeeps⟩ | hfresh
      · exact .inl ⟨n, hn, hkeeps.trans hkeeps'⟩
      · refine .inr ⟨?_, ?_, hkeeps'.data.trans hfresh.data, hkeeps'.page.trans hfresh.page,
          fun v hv => ?_⟩
        · rw [Node.id_of_origin hkeeps'.origin]
          exact hfresh.number
        · rw [Node.kind_of_origin hkeeps'.origin]
          exact hfresh.kind
        · exact h'.continues.knows (hfresh.known v (hkeeps'.selected hv))
    · exact .inr ⟨Nat.le_trans h.continues.nextNode hfresh.number, hfresh.kind, hfresh.data,
        hfresh.page, hfresh.known⟩

/-! ## Edits -/

theorem traces_of_keeps (hnext : d.nextNode ≤ d'.nextNode) (hsize : d'.pageSize = d.pageSize)
    (hnodes : ∀ n' ∈ d'.nodes, ∃ n ∈ d.nodes, n.Keeps n') : d.Traces d' where
  continues := .of_within (fun n' hn' => by
    obtain ⟨n, hn, hkeeps⟩ := hnodes n' hn'
    exact ⟨n, hn, hkeeps.origin⟩) hnext
  pageSize := hsize
  nodes n' hn' := .inl (hnodes n' hn')

theorem Traces.modify (h : d.Traces d') {f : Node → Node} (hf : ∀ n : Node, n.Keeps (f n)) :
    d.Traces (d'.modify id f) := by
  refine h.trans (traces_of_keeps (Nat.le_refl _) rfl fun n' hn' => ?_)
  obtain ⟨n, hn, rfl⟩ := mem_modify.1 hn'
  refine ⟨n, hn, ?_⟩
  split
  · exact hf n
  · exact .refl n

theorem Traces.keep (h : d.Traces d') (p : NodeId → Bool) (q : Link → Bool) :
    d.Traces (d'.keep p q) :=
  h.trans (traces_of_keeps (Nat.le_refl _) rfl fun n hn => ⟨n, (List.mem_filter.1 hn).1, .refl n⟩)

theorem traces_clear (d : Diagram) : d.Traces d.clear :=
  traces_of_keeps (Nat.le_refl _) rfl (by simp [Diagram.clear])

/-- Where all nodes are new, nothing is left of what was stored. -/
theorem traces_of_fresh (hc : d.Continues d') (hsize : d'.pageSize = d.pageSize)
    (hnodes : ∀ n' ∈ d'.nodes, n'.Fresh d d') : d.Traces d' :=
  ⟨hc, hsize, fun n' hn' => .inr (hnodes n' hn')⟩

/-! ## Building -/

theorem fresh_childNode (p : Provider) (id : NodeId) (s : Segment) {kind : NodeKind}
    (hk : kind = .choose ∨ kind = .group) (hd : e.nextNode ≤ d.nextNode) :
    (childNode p id s kind d).Fresh e d' := by
  refine ⟨hd, ?_, rfl, rfl, by simp [childNode]⟩
  rcases hk with rfl | rfl <;> simp [childNode]

theorem traces_attachChild (p : Provider) (id : NodeId) (s : Segment) {kind : NodeKind}
    (hk : kind = .choose ∨ kind = .group) (d : Diagram) :
    d.Traces (d.attachChild p id s kind).2 where
  continues := continues_attachChild p id s kind d
  pageSize := rfl
  nodes n' hn' := by
    rw [attachChild_eq] at hn'
    rcases List.mem_append.1 hn' with hn' | hn'
    · exact .inl ⟨n', hn', .refl n'⟩
    · rw [List.mem_singleton.1 hn']
      exact .inr (fresh_childNode p id s hk (Nat.le_refl _))

theorem addRoot_fresh (p : Provider) (label : String) (anchor : Option Position) (d : Diagram) :
    (d.addRoot p label anchor).2.pageSize = d.pageSize ∧
      ∀ n' ∈ (d.addRoot p label anchor).2.nodes, n'.Fresh d (d.addRoot p label anchor).2 := by
  unfold Diagram.addRoot
  cases hd : d.isEmpty with
  | true =>
    refine ⟨rfl, fun n' hn' => ?_⟩
    simp only [addNode, List.isEmpty_iff.1 hd, List.nil_append, ↓reduceIte,
      List.mem_singleton] at hn'
    rw [hn']
    exact ⟨Nat.le_refl _, by simp, rfl, rfl, by simp⟩
  | false =>
    refine ⟨rfl, fun n' hn' => ?_⟩
    simp only [addNode, Diagram.clear, List.nil_append, Bool.false_eq_true, ↓reduceIte,
      List.mem_singleton] at hn'
    rw [hn']
    exact ⟨Nat.le_refl _, by simp, rfl, rfl, by simp⟩

theorem traces_addRoot (p : Provider) (label : String) (anchor : Option Position) (d : Diagram) :
    d.Traces (d.addRoot p label anchor).2 :=
  traces_of_fresh (continues_addRoot p label anchor d) (addRoot_fresh p label anchor d).1
    (addRoot_fresh p label anchor d).2

/-- Rows are selected under numbers of their own. -/
theorem knows_selectRows (hd : ∀ n ∈ d.nodes, n.kind ≠ .value) (label : String) (rows : List Row)
    {v : SelectedValue}
    (hv : v ∈ rows.mapIdx fun i row => SelectedValue.ofRow ⟨d.nextNode + i⟩ label row) :
    (d.selectRows id label rows).Knows v.id := by
  obtain ⟨i, hi, rfl⟩ := List.mem_mapIdx.1 hv
  refine ⟨Nat.add_lt_add_left hi d.nextNode, fun n hn _ => ?_⟩
  obtain ⟨m, hm, rfl⟩ := mem_modify.1 hn
  split
  · exact hd m hm
  · exact hd m hm

theorem addSchema_fresh (p : Provider) (s : Schema) (anchor : Option Position) (d : Diagram) :
    (d.addSchema p s anchor).2.pageSize = d.pageSize ∧
      ∀ n' ∈ (d.addSchema p s anchor).2.nodes, n'.Fresh d (d.addSchema p s anchor).2 := by
  let P (e : Diagram) : Prop :=
    d.nextNode ≤ e.nextNode ∧ e.pageSize = d.pageSize ∧ ∀ n' ∈ e.nodes, n'.Fresh d e
  have hselect (e : Diagram) (id : NodeId) (label : String) (rows : List Row) (he : P e) :
      P (e.selectRows id label rows) := by
    obtain ⟨hnext, hsize, hfresh⟩ := he
    have hc := continues_selectRows id label rows e
    refine ⟨Nat.le_trans hnext hc.nextNode, hsize, fun n' hn' => ?_⟩
    obtain ⟨n, hn, rfl⟩ := mem_modify.1 hn'
    have hn := hfresh n hn
    split
    · exact ⟨hn.number, hn.kind, hn.data, hn.page, fun v hv =>
        knows_selectRows (fun m hm => (hfresh m hm).kind) label rows hv⟩
    · exact hn.mono hc
  have hrelate (e : Diagram) (id : NodeId) (segments : List Segment) (he : P e) :
      P (e.modify id fun n =>
        { n with relationships := segments, relationshipsLoaded := true }) := by
    obtain ⟨hnext, hsize, hfresh⟩ := he
    have hc : e.Continues (e.modify id fun n =>
      { n with relationships := segments, relationshipsLoaded := true }) :=
      Continues.modify (.refl e) fun _ => rfl
    refine ⟨hnext, hsize, fun n' hn' => ?_⟩
    obtain ⟨n, hn, rfl⟩ := mem_modify.1 hn'
    have hn := (hfresh n hn).mono hc
    split
    · exact ⟨hn.number, hn.kind, hn.data, hn.page, hn.known⟩
    · exact hn
  have hattach (e : Diagram) (id : NodeId) (s : Segment) (kind : NodeKind)
      (hk : kind = .choose ∨ kind = .group) (he : P e) : P (e.attachChild p id s kind).2 := by
    obtain ⟨hnext, hsize, hfresh⟩ := he
    have hc := continues_attachChild p id s kind e
    refine ⟨Nat.le_trans hnext hc.nextNode, hsize, fun n' hn' => ?_⟩
    rw [attachChild_eq] at hn'
    rcases List.mem_append.1 hn' with hn' | hn'
    · exact (hfresh n' hn').mono hc
    · rw [List.mem_singleton.1 hn']
      exact fresh_childNode p id s hk hnext
  have hroot := addRoot_fresh p s.label anchor d
  exact (applySchema_induction (P := P) p (fun e id label rows he _ => hselect e id label rows he)
    (fun e id segments he _ => hrelate e id segments he)
    (fun e id s kind hk he _ => hattach e id s kind hk he) _ s _
    ⟨(continues_addRoot p s.label anchor d).nextNode, hroot.1, hroot.2⟩
    (isQueryNode_addRoot p s.label anchor d)).1.2

theorem traces_addSchema (p : Provider) (s : Schema) (anchor : Option Position) (d : Diagram) :
    d.Traces (d.addSchema p s anchor).2 :=
  traces_of_fresh (continues_addSchema p s anchor d) (addSchema_fresh p s anchor d).1
    (addSchema_fresh p s anchor d).2

theorem traces_expandRelationship (p : Provider) (id : NodeId) (index : Nat) (d : Diagram) :
    d.Traces (d.expandRelationship p id index).2 := by
  unfold Diagram.expandRelationship
  split
  · exact .refl d
  · split
    · exact .refl d
    · exact traces_attachChild p id _ (.inl rfl) d

theorem traces_setRelationships (id : NodeId) (segments : List Segment) (d : Diagram) :
    d.Traces (d.setRelationships id segments).2 := by
  unfold Diagram.setRelationships
  split
  · exact .refl d
  · exact (Traces.refl d).modify fun _ => ⟨rfl, rfl, rfl, List.Subset.refl _⟩

/-! ## Hiding and pruning -/

theorem Traces.setPinned (h : d.Traces d') (parent : Option NodeId) (fixed : Bool) :
    d.Traces (d'.setPinned parent fixed) := by
  cases parent with
  | none => exact h
  | some id =>
    refine h.modify fun n => ?_
    split
    · exact .refl n
    · exact ⟨rfl, rfl, rfl, List.Subset.refl _⟩

theorem Traces.collapseValues (h : d.Traces d') (id : NodeId) :
    d.Traces (d'.collapseValues id).2 := by
  cases hn : d'.node? id with
  | none => rwa [collapseValues_of_collapsed (by simp [hn])]
  | some n =>
    cases he : n.expanded with
    | false => rwa [collapseValues_of_collapsed (by simp [hn, he])]
    | true =>
      rw [collapseValues_eq hn he]
      refine Traces.setPinned ?_ _ _
      exact (h.keep _ _).modify fun _ => ⟨rfl, rfl, rfl, List.Subset.refl _⟩

theorem Traces.removeSubtree (h : d.Traces d') (id : NodeId) :
    d.Traces (d'.removeSubtree id).2 := by
  rw [removeSubtree_snd]
  exact h.keep _ _

theorem Traces.pruneNegated (h : d.Traces d') (id : NodeId) : d.Traces (d'.pruneNegated id) := by
  have hfold : d.Traces ((d'.children id).foldl (fun d x => (d.removeSubtree x).2) d') :=
    List.foldlRecOn (motive := d.Traces) _ _ h fun _ he x _ => he.removeSubtree x
  unfold Diagram.pruneNegated
  exact (hfold.collapseValues id).modify fun _ => ⟨rfl, rfl, rfl, List.Subset.refl _⟩

theorem Numbered.traces_removeValue (hd : d.Numbered) (id value : NodeId) :
    d.Traces (d.removeValue id value).2 := by
  unfold Diagram.removeValue
  split
  · exact .refl d
  · rename_i n hn
    dsimp only
    split
    · exact .refl d
    · have hunselect : d.Traces (d.modify id fun m =>
          { m with selected := n.selected.filter fun v => v.id != value }) := by
        refine traces_of_keeps (Nat.le_refl _) rfl fun n' hn' => ?_
        obtain ⟨m, hm, rfl⟩ := mem_modify.1 hn'
        refine ⟨m, hm, ?_⟩
        split
        · obtain rfl := hd.eq_of_node? hn hm ‹_›
          exact ⟨rfl, rfl, rfl, List.filter_subset_self _⟩
        · exact .refl m
      dsimp only
      split
      · exact hunselect.pruneNegated id
      · exact hunselect

theorem traces_negate (id : NodeId) (d : Diagram) : d.Traces (d.negate id).2 := by
  have hset {e : Diagram} (he : d.Traces e) (negative : Bool) :
      d.Traces (e.modify id fun n => { n with negative }) :=
    he.modify fun _ => ⟨rfl, rfl, rfl, List.Subset.refl _⟩
  unfold Diagram.negate
  split
  · exact .refl d
  · split
    · exact .refl d
    · split
      · exact hset (.refl d) false
      · dsimp only
        split
        · exact hset (.refl d) true
        · exact hset ((Traces.refl d).pruneNegated id) true

theorem traces_removeNode (id : NodeId) (d : Diagram) : d.Traces (d.removeNode id).2 := by
  unfold Diagram.removeNode
  split
  · exact .refl d
  · split
    · exact traces_clear d
    · exact (Traces.refl d).removeSubtree id

/-! ## Nodes that stay -/

/-- Under the number of a node nothing else comes. -/
theorem Traces.keeps_of_node? (h : d.Traces d') (hd : d.Numbered) (hn : d.node? id = some n)
    (hn' : n' ∈ d'.nodes) (hid : n'.id = id) : n.Keeps n' := by
  rcases h.nodes n' hn' with ⟨m, hm, hkeeps⟩ | hfresh
  · rwa [← hd.eq_of_node? hn hm ((Node.id_of_origin hkeeps.origin).symm.trans hid)]
  · have hbound := hd.bounded n (mem_of_node? hn)
    have hnumber := hfresh.number
    rw [hid, ← id_of_node? hn] at hnumber
    omega

end Diagram

end PatternQuery
