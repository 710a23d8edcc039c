import PatternQuery.Proofs.Diagram.Root
import PatternQuery.Proofs.Statement.IdleEdits
import PatternQuery.Proofs.Statement.Mapping
import PatternQuery.Proofs.Statement.Statements

/-!
# Operations that change no result

The statement for the result rows depends on the nodes that constrain the query, and on the
relations that lead to them. Operations that only store or show something leave it as it is, and so
does the removal of a node if what it gives back says that nothing below the node constrained the
query (`Diagram.result_of_idle`): what is left is a diagram that the old one extends by idle nodes
(`WellFormed.removeSubtree_extends`).
-/

namespace PatternQuery

/-- The operation neither selects, unselects nor negates anything. If it removes a node, then not
the root, and it reports that nothing constrained the query. -/
def Operation.Idle (o : Operation) (d : Diagram) : Prop :=
  match o with
  | expandRelationship _ _ | setRelationships _ _ | setData _ _ | expandValues _
  | collapseValues _ | nextPage _ | previousPage _ => True
  | removeNode id =>
    (∃ n, d.node? id = some n ∧ n.isRoot = false) ∧ (d.removeNode id).1 = .ok false
  | _ => False

/-! ## Changes that no statement sees -/

theorem Node.unseen_of_essence {f : Node → Node} (hf : ∀ n, (f n).essence = n.essence) :
    Node.Unseen f where
  id n := Node.congr_essence (hf n) Node.id fun _ => rfl
  parent n := Node.congr_essence (hf n) Node.parent fun _ => rfl
  isRoot n := Node.congr_essence (hf n) Node.isRoot fun _ => rfl
  negative n := Node.congr_essence (hf n) Node.negative fun _ => rfl
  hasValue n := Node.congr_essence (hf n) Node.hasValue fun _ => rfl

section Essence

variable {f : Node → Node} {p : Provider} {settings : QuerySettings} {needed : Bool}

theorem Diagram.addLink_mapNodes (hf : ∀ n, (f n).essence = n.essence) (d : Diagram)
    (target : NodeId) (b : ElementsDraft) (l : Link) :
    ElementsDraft.addLink (d.mapNodes f) p settings target needed b l =
      ElementsDraft.addLink d p settings target needed b l := by
  have hu := Node.unseen_of_essence hf
  have hsource := node?_mapNodes hu d l.source
  have htarget := node?_mapNodes hu d l.target
  cases hs : d.node? l.source with
  | none => simp only [ElementsDraft.addLink, hsource, hs, Option.map_none]
  | some s =>
    cases hn : d.node? l.target with
    | none => simp only [ElementsDraft.addLink, hsource, htarget, hs, hn, Option.map_none,
        Option.map_some]
    | some n =>
      rw [hs, Option.map_some] at hsource
      rw [hn, Option.map_some] at htarget
      rw [addLink_eq hsource htarget, addLink_eq hs hn, negationApplies_mapNodes hu]
      have es := Node.congr_essence (hf s)
        (b.addEnds p settings target needed (d.negationApplies l.target target) l · (f n))
        fun _ => rfl
      have en := Node.congr_essence (hf n)
        (b.addEnds p settings target needed (d.negationApplies l.target target) l s ·)
        fun _ => rfl
      rw [es, en]

theorem Diagram.generateElements_mapNodes (hf : ∀ n, (f n).essence = n.essence) (d : Diagram)
    (target : NodeId) (links : List Link) :
    generateElements (d.mapNodes f) p settings target links needed =
      generateElements d p settings target links needed := by
  have hadd : ElementsDraft.addLink (d.mapNodes f) p settings target needed =
      ElementsDraft.addLink d p settings target needed := by
    funext b l
    exact addLink_mapNodes hf d target b l
  unfold generateElements
  rw [root?_mapNodes (Node.unseen_of_essence hf), hadd]
  cases d.root? with
  | none => rfl
  | some r =>
    have hstart := Node.congr_essence (hf r) (fun n =>
      (ElementsDraft.addPredefined p n {}).addValueConstraints p target needed n) fun _ => rfl
    have hpattern := Node.congr_essence (hf r) Node.pattern fun _ => rfl
    simp only [Option.map_some, hstart, hpattern]

variable {c : Compiler}

theorem Compiler.elements_mapNodes (hf : ∀ n, (f n).essence = n.essence) (d : Diagram)
    (target : NodeId) : c.elements (d.mapNodes f) target = c.elements d target := by
  rw [elements, elements, Diagram.relevantLinks_mapNodes (Node.unseen_of_essence hf),
    Diagram.generateElements_mapNodes hf]

theorem Compiler.resultQuery_mapNodes (hc : c.provider.Local)
    (hf : ∀ n, (f n).essence = n.essence) (d : Diagram) (graphMode : Bool) :
    c.resultQuery (d.mapNodes f) graphMode = c.resultQuery d graphMode := by
  have hroot := Diagram.root?_mapNodes (Node.unseen_of_essence hf) d
  cases hr : d.root? with
  | none =>
    rw [hr, Option.map_none] at hroot
    simp only [resultQuery, hr, hroot]
  | some r =>
    rw [hr, Option.map_some] at hroot
    have helements : c.elements (d.mapNodes f) (f r).id = c.elements d r.id := by
      rw [elements_mapNodes hf, (Node.unseen_of_essence hf).id r]
    cases he : c.elements d r.id with
    | error e =>
      rw [he] at helements
      simp only [resultQuery, hr, hroot, he, helements]
    | ok e =>
      rw [he] at helements
      rw [resultQuery_of_elements hr he, resultQuery_of_elements hroot helements,
        finish_congr hc (hf r) .result (c.resultParts e graphMode) fun _ => rfl]

end Essence

namespace Diagram

variable {d : Diagram} {id : NodeId} {n : Node}

/-! ## Removals -/

theorem mem_removeSubtree {m : Node} : m ∈ (d.removeSubtree id).2.nodes ↔
    m ∈ d.nodes ∧ d.isReachableFrom id m.id = false := by
  rw [removeSubtree_snd]
  simp [Diagram.keep]

/-- A diagram holds what is left of it after a removal that spares the root. -/
theorem WellFormed.removeSubtree_embeds (h : d.WellFormed)
    (hroot : ∀ r ∈ d.nodes, r.kind = .root → id ≠ r.id) : (d.removeSubtree id).2.Embeds d := by
  refine ⟨?_, fun m hm _ => ⟨m, (mem_removeSubtree.1 hm).1, rfl⟩, ?_⟩
  · cases hd : d.nodes with
    | nil => simp [removeSubtree_snd, root?, Diagram.keep, hd]
    | cons r rest =>
      have hr : r ∈ d.nodes := by simp [hd]
      have hkind := h.head_kind hd
      have hfree := h.isReachableFrom_root ⟨r, hr, rfl, hkind⟩ (hroot r hr hkind)
      simp [removeSubtree_snd, root?, Diagram.keep, hd, hfree]
  · have hlinks : (d.removeSubtree id).2.relationLinks = d.relationLinks.filter fun l =>
        !d.isReachableFrom id l.source && !d.isReachableFrom id l.target := by
      rw [removeSubtree_snd]
      simp only [relationLinks, Diagram.keep, List.filter_filter, Bool.and_comm]
    rw [hlinks]
    refine List.filter_congr fun l hl => ?_
    obtain ⟨m, hm, ht, hk⟩ := h.isQueryNode_target hl
    rw [h.staysBehind_eq id (mem_relationLinks.1 hl).1, Bool.eq_iff_iff, decide_eq_true_iff,
      Bool.not_eq_true', ← ht]
    constructor
    · intro hfree
      exact ⟨m, mem_removeSubtree.2 ⟨hm, hfree⟩, rfl, hk⟩
    · rintro ⟨m', hm', e, -⟩
      rw [← e]
      exact (mem_removeSubtree.1 hm').2

theorem isReachableFrom_of_gone {m : Node} (hm : m ∈ d.nodes) (hk : m.kind ≠ .value)
    (hgone : ¬ (d.removeSubtree id).2.IsQueryNode m.id) : d.isReachableFrom id m.id = true := by
  rw [← Bool.not_eq_false]
  exact fun hfree => hgone ⟨m, mem_removeSubtree.2 ⟨hm, hfree⟩, rfl, hk⟩

/-- A diagram extends what is left of it after a removal of nodes that constrain nothing. -/
theorem WellFormed.removeSubtree_extends (h : d.WellFormed) (hn : d.node? id = some n)
    (hroot : n.isRoot = false) (hheld : (d.removeSubtree id).1 = false) :
    (d.removeSubtree id).2.Extends d := by
  refine ⟨h.removeSubtree_embeds fun r hr hkind hid => ?_, fun m hm hk hgone => ?_⟩
  · rw [← h.eq_of_node? hn hr hid.symm, Node.isRoot, hkind] at hroot
    simp at hroot
  · have hdoomed := isReachableFrom_of_gone hm hk hgone
    have hfree := List.any_eq_false.1 hheld m hm
    simpa [hdoomed, constrains, Node.hasValue, Node.Idle] using hfree

theorem removeNode_of_idle (ho : (Operation.removeNode id).Idle d) :
    ∃ n, d.node? id = some n ∧ n.isRoot = false ∧ (d.removeSubtree id).1 = false ∧
      (d.removeNode id).2 = (d.removeSubtree id).2 := by
  obtain ⟨⟨n, hn, hroot⟩, hresult⟩ := ho
  simp only [Diagram.removeNode, hn, hroot, Bool.false_eq_true, ↓reduceIte, Except.ok.injEq]
    at hresult ⊢
  exact ⟨n, rfl, hroot, hresult, trivial⟩

/-! ## Idle operations -/

/-- Two diagrams ask for the same result rows, with the same clauses. -/
structure SameResult (c : Compiler) (d d' : Diagram) : Prop where
  query : ∀ graphMode, c.resultQuery d' graphMode = c.resultQuery d graphMode
  elements : ∃ r r', d.root? = some r ∧ d'.root? = some r' ∧ c.elements d' r'.id = c.elements d r.id

variable {d' : Diagram} {p : Provider} {c : Compiler}

theorem SameResult.symm (h : SameResult c d d') : SameResult c d' d := by
  obtain ⟨r, r', hr, hr', he⟩ := h.elements
  exact ⟨fun graphMode => (h.query graphMode).symm, r', r, hr', hr, he.symm⟩

/-- Nodes may change in what no statement shows. -/
theorem Shape.sameResult_mapNodes (h : d.Shape) (hne : d.isEmpty = false) (hc : c.provider.Local)
    {f : Node → Node} (hf : ∀ n, (f n).essence = n.essence) : SameResult c d (d.mapNodes f) := by
  obtain ⟨r, hr, -⟩ := h.exists_root hne
  have hu := Node.unseen_of_essence hf
  have hroot := root?_mapNodes hu d
  rw [hr, Option.map_some] at hroot
  refine ⟨Compiler.resultQuery_mapNodes hc hf d, r, f r, hr, hroot, ?_⟩
  rw [Compiler.elements_mapNodes hf, hu.id]

theorem Shape.sameResult_modify (h : d.Shape) (hne : d.isEmpty = false) (hc : c.provider.Local)
    {f : Node → Node} (hf : ∀ n, (f n).essence = n.essence) : SameResult c d (d.modify id f) := by
  rw [modify_eq_mapNodes]
  refine h.sameResult_mapNodes hne hc fun n => ?_
  split
  · exact hf n
  · rfl

theorem Extends.sameResult (h : d.Extends d') (hd : d.Shape) (hd' : d'.Shape)
    (hne : d.isEmpty = false) (hc : c.provider.Local) : SameResult c d d' := by
  obtain ⟨r, hr, hid⟩ := hd.exists_root hne
  have hroot := h.root
  rw [hr, Option.map_some, Option.map_eq_some_iff] at hroot
  obtain ⟨r', hr', e⟩ := hroot
  have hrid : r'.id = r.id := (Node.place_eq_iff.1 (Node.place_of_essence e)).1
  refine ⟨Compiler.resultQuery_eq hc h hd hd' hne, r, r', hr, hr', ?_⟩
  rw [hrid, Compiler.elements_eq (h.covers hd' hid) hd hd' hid]

theorem Shape.sameResult_refl (h : d.Shape) (hne : d.isEmpty = false) : SameResult c d d := by
  obtain ⟨r, hr, -⟩ := h.exists_root hne
  exact ⟨fun _ => rfl, r, r, hr, hr, rfl⟩

theorem WellFormed.sameResult_run (h : d.WellFormed) (hne : d.isEmpty = false)
    (hc : c.provider.Local) {o : Operation} (ho : o.Idle d) : SameResult c d (o.run p d).2 := by
  have hextends {d' : Diagram} (hd' : d'.WellFormed) (he : d.Extends d') : SameResult c d d' :=
    he.sameResult h.toShape hd'.toShape hne hc
  cases o with
  | expandRelationship id index =>
    exact hextends (h.expandRelationship p id index) (h.extends_expandRelationship p id index)
  | setRelationships id segments =>
    show SameResult c d (d.setRelationships id segments).2
    unfold Diagram.setRelationships
    split
    · exact h.sameResult_refl hne
    · exact h.sameResult_modify hne hc fun _ => rfl
  | setData id rows =>
    show SameResult c d (d.setData id rows).2
    unfold Diagram.setData
    split
    · exact h.sameResult_refl hne
    · exact h.sameResult_modify hne hc fun _ => rfl
  | expandValues id => exact hextends (h.expandValues id) (h.extends_expandValues id)
  | collapseValues id => exact hextends (h.collapseValues id) (h.extends_collapseValues id)
  | nextPage id => exact hextends (h.nextPage id) (h.extends_nextPage id)
  | previousPage id => exact hextends (h.previousPage id) (h.extends_previousPage id)
  | removeNode id =>
    -- here it is the old diagram that extends the new one
    obtain ⟨n, hn, hroot, hheld, hd'⟩ := removeNode_of_idle ho
    show SameResult c d (d.removeNode id).2
    rw [hd']
    have hext := h.removeSubtree_extends hn hroot hheld
    have hshape := (h.removeSubtree id).toShape
    refine (hext.sameResult hshape h.toShape ?_ hc).symm
    rw [← Bool.not_eq_true]
    intro hempty
    obtain ⟨r, hr, -⟩ := h.exists_root hne
    have hnone := hext.root
    rw [hr, root?, List.isEmpty_iff.1 hempty] at hnone
    simp at hnone
  | addRoot _ _ | addSchema _ _ | clear | selectValue _ | removeValue _ _ | negate _ => cases ho

theorem removeNode_ok (hn : d.node? id = some n) : ∃ held, (d.removeNode id).1 = .ok held := by
  simp only [Diagram.removeNode, hn]
  split
  · exact ⟨_, rfl⟩
  · exact ⟨_, rfl⟩

/-- In a reachable diagram that is not empty, neither storing nor showing anything nor a new child
changes what is asked for: the result query in either mode, and the clauses it is made of, with the
identifiers of the relations. The same goes for the removal of a node other than the root that gives
back that nothing constrained the query. So a removal that does change it gives back the
opposite. -/
theorem result_of_idle (h : d.Reachable p) (hne : d.isEmpty = false) (hc : c.provider.Local) :
    (∀ o : Operation, o.Idle d → ∀ graphMode, ∃ s,
      c.resultQuery d graphMode = .ok s ∧ c.resultQuery (o.run p d).2 graphMode = .ok s) ∧
    (∀ o : Operation, o.Idle d → ∃ r r' e, d.root? = some r ∧ (o.run p d).2.root? = some r' ∧
      c.elements d r.id = .ok e ∧ c.elements (o.run p d).2 r'.id = .ok e) ∧
    ∀ id n, d.node? id = some n → n.isRoot = false →
      (∃ graphMode, c.resultQuery (d.removeNode id).2 graphMode ≠ c.resultQuery d graphMode) →
        (d.removeNode id).1 = .ok true := by
  have hd := h.wellFormed
  refine ⟨fun o ho graphMode => ?_, fun o ho => ?_, fun id n hn hroot hchange => ?_⟩
  · obtain ⟨s, hs⟩ := c.exists_resultQuery hd.toShape hne graphMode
    exact ⟨s, hs, ((hd.sameResult_run hne hc ho).query graphMode).trans hs⟩
  · obtain ⟨r, r', hr, hr', he⟩ := (hd.sameResult_run (p := p) hne hc ho).elements
    obtain ⟨e, hok⟩ := c.exists_elements hd.toShape hne r.id
    exact ⟨r, r', e, hr, hr', hok, he.trans hok⟩
  · obtain ⟨held, hheld⟩ := removeNode_ok hn
    cases held with
    | true => exact hheld
    | false =>
      obtain ⟨graphMode, hchange⟩ := hchange
      have ho : (Operation.removeNode id).Idle d := ⟨⟨n, hn, hroot⟩, hheld⟩
      exact absurd ((hd.sameResult_run (p := p) hne hc ho).query graphMode) hchange

/-- A person who knows Ann, and a city that nothing is known of. -/
def strangeCitySteps : List Operation :=
  [.addRoot "Person" none,
    .setRelationships ⟨0⟩ [{ label := "KNOWS", target := "Person", count := 1 },
      { label := "LIVES_IN", target := "City", count := 1 }],
    .expandRelationship ⟨0⟩ 0, .expandRelationship ⟨0⟩ 1,
    .setData ⟨1⟩ [Table.empty.insert "name" (.str "Ann")], .expandValues ⟨1⟩, .selectValue ⟨3⟩]

/-- The city goes, and nobody notices. -/
theorem result_of_strange_city :
    let d := Operation.runAll .plain strangeCitySteps (.new 10)
    d.Reachable .plain ∧ (d.removeNode ⟨2⟩).1 = .ok false ∧ (d.removeNode ⟨2⟩).2 ≠ d ∧
      ∃ s, Compiler.resultQuery ⟨.plain, {}⟩ d true = .ok s ∧
        Compiler.resultQuery ⟨.plain, {}⟩ (d.removeNode ⟨2⟩).2 true = .ok s := by
  intro d
  have hd : d.Reachable .plain := Reachable.runAll (.new 10) _ (by decide +kernel)
  have hheld : (d.removeNode ⟨2⟩).1 = .ok false := by decide +kernel
  have hroot : (d.node? ⟨2⟩).map Node.isRoot = some false := by decide +kernel
  have hidle : (Operation.removeNode ⟨2⟩).Idle d := ⟨Option.map_eq_some_iff.1 hroot, hheld⟩
  refine ⟨hd, hheld, by decide +kernel, ?_⟩
  exact (result_of_idle hd (by decide +kernel) Provider.plain_local).1 _ hidle true

end Diagram

end PatternQuery
