import Mathlib.Data.List.Forall2
import PatternQuery.Proofs.Statement.Extension
import PatternQuery.Statement.Compile

/-!
# Statements of well-formed diagrams

There are statements about every node that is there, candidate values among them, and about every
diagram with nodes (`Compiler.exists_countQuery`, `Compiler.exists_resultQuery`). An extension of a
diagram has the same statements about the nodes that were there before (`Compiler.countQuery_eq`,
`Compiler.resultQuery_eq`), provided that the amendments are local (`Provider.Local`).
-/

namespace PatternQuery

/-- Amendments depend on the parts of a statement, the label of the node and its variable. -/
def Provider.Local (p : Provider) : Prop :=
  ∀ kind (m n : Node) parts, m.label = n.label → m.var = n.var →
    p.amend kind m parts = p.amend kind n parts

theorem Provider.plain_local : Provider.plain.Local := fun _ _ _ _ _ _ => rfl

/-! ## Clauses -/

/-- What a relation adds to a statement, once its ends are found. -/
def ElementsDraft.addEnds (p : Provider) (settings : QuerySettings) (target : NodeId)
    (needed applies : Bool) (l : Link) (b : ElementsDraft) (source node : Node) : ElementsDraft :=
  let arrow := if settings.useDirection && !node.isReversed then "->" else "-"
  let b := b.addPredefined p source
  let b :=
    if node.negative && applies then b.addNegation p source l node arrow
    else (b.addRelation source l node arrow).addPredefined p node
  b.addValueConstraints p target needed node

namespace Diagram

variable {d d' : Diagram} {target : NodeId} {l : Link} {links : List Link}
  {p : Provider} {settings : QuerySettings} {needed : Bool}

theorem addLink_eq {source node : Node} (hs : d.node? l.source = some source)
    (hn : d.node? l.target = some node) (b : ElementsDraft) :
    ElementsDraft.addLink d p settings target needed b l =
      .ok (b.addEnds p settings target needed (d.negationApplies l.target target) l source
        node) := by
  simp only [ElementsDraft.addLink, hs, hn, id_of_node? hn]
  rfl

theorem Embeds.addLink_eq (h : d.Embeds d') (hd : d.Shape) (hd' : d'.Shape)
    (ht : d.IsQueryNode target) (hl : l ∈ d.relationLinks) (b : ElementsDraft) :
    ElementsDraft.addLink d' p settings target needed b l =
      ElementsDraft.addLink d p settings target needed b l := by
  obtain ⟨s, s', hs, hs', es⟩ :=
    h.exists_node? hd.toNumbered hd'.toNumbered (hd.isQueryNode_source hl)
  obtain ⟨n, n', hn, hn', en⟩ :=
    h.exists_node? hd.toNumbered hd'.toNumbered (hd.isQueryNode_target hl)
  rw [Diagram.addLink_eq hs hn, Diagram.addLink_eq hs' hn', h.negationApplies_eq hd hd' ht]
  have hsource := Node.congr_essence es
    (b.addEnds p settings target needed (d.negationApplies l.target target) l · n') fun _ => rfl
  have hnode := Node.congr_essence en
    (b.addEnds p settings target needed (d.negationApplies l.target target) l s ·) fun _ => rfl
  rw [hsource, hnode]

theorem Embeds.addLinks_eq (h : d.Embeds d') (hd : d.Shape) (hd' : d'.Shape)
    (ht : d.IsQueryNode target) (hlinks : ∀ l ∈ links, l ∈ d.relationLinks) (b : ElementsDraft) :
    links.foldlM (ElementsDraft.addLink d' p settings target needed) b =
      links.foldlM (ElementsDraft.addLink d p settings target needed) b := by
  induction links generalizing b with
  | nil => rfl
  | cons l links ih =>
    rw [List.foldlM_cons, List.foldlM_cons, h.addLink_eq hd hd' ht (hlinks l (by simp))]
    congr 1
    funext b'
    exact ih (fun k hk => hlinks k (by simp [hk])) b'

/-- Relations of a shape have both their ends, so their clauses are there. -/
theorem Shape.exists_addLinks (h : d.Shape) (hlinks : ∀ l ∈ links, l ∈ d.relationLinks)
    (b : ElementsDraft) :
    ∃ b', links.foldlM (ElementsDraft.addLink d p settings target needed) b = .ok b' := by
  induction links generalizing b with
  | nil => exact ⟨b, rfl⟩
  | cons l links ih =>
    have hl := hlinks l (by simp)
    obtain ⟨s, hs, -⟩ := h.isQueryNode_iff.1 (h.isQueryNode_source hl)
    obtain ⟨n, hn, -⟩ := h.isQueryNode_iff.1 (h.isQueryNode_target hl)
    rw [List.foldlM_cons, Diagram.addLink_eq hs hn]
    exact ih (fun k hk => hlinks k (by simp [hk])) _

theorem Embeds.generateElements_eq (h : d.Embeds d') (hd : d.Shape) (hd' : d'.Shape)
    (ht : d.IsQueryNode target) (hlinks : ∀ l ∈ links, l ∈ d.relationLinks) :
    generateElements d' p settings target links needed =
      generateElements d p settings target links needed := by
  obtain ⟨r, hr⟩ := hd.exists_root? ht
  obtain ⟨r', hr'⟩ := hd'.exists_root? (h.isQueryNode ht)
  have e : r'.essence = r.essence := by
    have := h.root
    rwa [hr, hr', Option.map_some, Option.map_some, Option.some_inj] at this
  have hstart := Node.congr_essence e (fun n =>
    (ElementsDraft.addPredefined p n {}).addValueConstraints p target needed n) fun _ => rfl
  have hpattern := Node.congr_essence e Node.pattern fun _ => rfl
  simp only [generateElements, hr, hr', h.addLinks_eq hd hd' ht hlinks, hstart, hpattern]

theorem Shape.exists_elements (h : d.Shape) (hne : d.isEmpty = false)
    (hlinks : ∀ l ∈ links, l ∈ d.relationLinks) :
    ∃ e, generateElements d p settings target links needed = .ok e := by
  obtain ⟨r, hr, -⟩ := h.exists_root hne
  obtain ⟨b, hb⟩ : ∃ b, links.foldlM (ElementsDraft.addLink d p settings target needed)
      ((ElementsDraft.addPredefined p r {}).addValueConstraints p target needed r) = .ok b :=
    h.exists_addLinks hlinks _
  simp only [generateElements, hr, hb]
  exact ⟨_, rfl⟩

end Diagram

/-! ## Statements -/

/-- A list is mapped to its end if nothing in it is refused. -/
theorem exists_mapM {α β ε : Type} {f : α → Except ε β} {l : List α}
    (h : ∀ a ∈ l, ∃ b, f a = .ok b) :
    ∃ bs, l.mapM f = .ok bs ∧ List.Forall₂ (fun a b => f a = .ok b) l bs := by
  induction l with
  | nil => exact ⟨[], rfl, .nil⟩
  | cons a l ih =>
    obtain ⟨b, hb⟩ := h a (by simp)
    obtain ⟨bs, hbs, hall⟩ := ih fun a' ha' => h a' (by simp [ha'])
    refine ⟨b :: bs, ?_, .cons hb hall⟩
    rw [List.mapM_cons, hb, hbs]
    rfl

namespace Compiler

open Diagram

variable {c : Compiler} {d d' : Diagram} {id : NodeId} {e : QueryElements}

/-- The parts of the statement for the rows of the result. -/
def resultParts (c : Compiler) (e : QueryElements) (graphMode : Bool) (root : Node) :
    StatementParts :=
  let returns :=
    if graphMode then root.var :: e.relations
    else (c.properties root.label).returnAttributes.map (·.returnElement root.var)
  let trailing := c.resultOrder root graphMode ++ [limit c.settings.maxResults]
  { c.constrain root (partsOf e) with distinct := true, returns, trailing }

/-- The parts of the statement that counts the matches of a node. -/
def countParts (c : Compiler) (e : QueryElements) (node : Node) : StatementParts :=
  let a := (c.properties node.label).constraintAttribute
  let returns := ["count(DISTINCT " ++ a.expression node.var ++ ") AS " ++ countColumn]
  { c.constrain node (partsOf e) with returns }

/-- The parts of the statement that returns the candidate values of a node. -/
def valueParts (c : Compiler) (e : QueryElements) (root node : Node) : StatementParts :=
  let properties := c.properties node.label
  let returns :=
    (candidateAttributes properties).map (·.returnElement node.var)
      ++ ["count(" ++ root.var ++ ") AS " ++ countColumn]
      ++ (if c.settings.collectRelations then collectedRelations e.relations else [])
  let order := properties.valueOrderBy.toList.map fun column =>
    "ORDER BY " ++ column ++ " " ++ direction properties.valueOrderAscending
  { partsOf e with returns, trailing := order ++ [limit c.settings.valueLimit] }

/-- The parts of the statement that finds the relations that lead on from a node. -/
def relationParts (c : Compiler) (e : QueryElements) (links : List Link) (node : Node) :
    StatementParts :=
  let discovered := "-[" ++ relationVariable ++ "]->(" ++ relationTargetVariable ++ ")"
  let patterns :=
    if links.isEmpty then [node.pattern ++ discovered]
    else e.patterns ++ ["(" ++ node.var ++ ")" ++ discovered]
  let returns := [
    "type(" ++ relationVariable ++ ") AS label",
    c.settings.targetLabel.function ++ "(labels(" ++ relationTargetVariable ++ ")) AS target",
    "count(" ++ relationVariable ++ ") AS " ++ countColumn]
  { partsOf e with
    patterns, returns, trailing := ["ORDER BY count(" ++ relationVariable ++ ") DESC"] }

theorem resultQuery_of_elements {root : Node} (hr : d.root? = some root)
    (he : c.elements d root.id = .ok e) (graphMode : Bool) :
    c.resultQuery d graphMode = .ok (c.finish .result root (c.resultParts e graphMode root)) := by
  simp only [resultQuery, hr, he]
  rfl

theorem countQuery_of_elements {n : Node} (hn : d.node? id = some n)
    (he : c.elements d id = .ok e) :
    c.countQuery d id = .ok (c.finish .nodeCount n (c.countParts e n)) := by
  simp only [countQuery, hn, he]
  rfl

theorem valueQuery_of_elements {n root : Node} (hn : d.node? id = some n)
    (hr : d.root? = some root) (he : c.elements d id = .ok e) :
    c.valueQuery d id = .ok (c.finish .nodeValue n (c.valueParts e root n)) := by
  simp only [valueQuery, hn, hr, he]
  rfl

theorem relationQuery_of_elements {n : Node} (hn : d.node? id = some n)
    (he : generateElements d c.provider c.settings id (d.linksToRoot id) false = .ok e) :
    c.relationQuery d id =
      .ok (c.finish .nodeRelation n (c.relationParts e (d.linksToRoot id) n)) := by
  simp only [relationQuery, hn, he]
  rfl

/-! ### There are statements -/

theorem exists_elements (c : Compiler) (hd : d.Shape) (hne : d.isEmpty = false) (id : NodeId) :
    ∃ e, c.elements d id = .ok e :=
  hd.exists_elements hne fun _ hl => hd.toNumbered.relevantLinks_subset id hl

theorem exists_resultQuery (c : Compiler) (hd : d.Shape) (hne : d.isEmpty = false)
    (graphMode : Bool) : ∃ s, c.resultQuery d graphMode = .ok s := by
  obtain ⟨r, hr, -⟩ := hd.exists_root hne
  obtain ⟨e, he⟩ := c.exists_elements hd hne r.id
  exact ⟨_, resultQuery_of_elements hr he graphMode⟩

theorem exists_countQuery (c : Compiler) (hd : d.Shape) {n : Node} (hn : d.node? id = some n) :
    ∃ s, c.countQuery d id = .ok s := by
  obtain ⟨e, he⟩ := c.exists_elements hd (isEmpty_eq_false_of_node? hn) id
  exact ⟨_, countQuery_of_elements hn he⟩

theorem exists_valueQuery (c : Compiler) (hd : d.Shape) {n : Node} (hn : d.node? id = some n) :
    ∃ s, c.valueQuery d id = .ok s := by
  have hne := isEmpty_eq_false_of_node? hn
  obtain ⟨r, hr, -⟩ := hd.exists_root hne
  obtain ⟨e, he⟩ := c.exists_elements hd hne id
  exact ⟨_, valueQuery_of_elements hn hr he⟩

theorem exists_relationQuery (c : Compiler) (hd : d.Shape) {n : Node} (hn : d.node? id = some n) :
    ∃ s, c.relationQuery d id = .ok s := by
  have hlinks : ∀ l ∈ d.linksToRoot id, l ∈ d.relationLinks := fun _ hl =>
    incomingPath_subset d id (List.mem_reverse.1 hl)
  obtain ⟨e, he⟩ := hd.exists_elements (isEmpty_eq_false_of_node? hn) hlinks
  exact ⟨_, relationQuery_of_elements hn he⟩

/-! ### Extensions have the same statements -/

theorem elements_eq (h : d.Covers id d') (hd : d.Shape) (hd' : d'.Shape) (hid : d.IsQueryNode id) :
    c.elements d' id = c.elements d id := by
  rw [elements, elements, h.relevantLinks_eq hd hd' hid,
    h.generateElements_eq hd hd' hid fun _ hl => hd.toNumbered.relevantLinks_subset id hl]

/-- The statement about a node depends on its essence, if the amendments are local. -/
theorem finish_congr (hc : c.provider.Local) {m n : Node} (e : m.essence = n.essence)
    (kind : StatementKind) (parts : Node → StatementParts) (hp : ∀ n, parts n.essence = parts n) :
    c.finish kind m (parts m) = c.finish kind n (parts n) := by
  have hlabel := Node.congr_essence e Node.label fun _ => rfl
  have hvar := Node.congr_essence e Node.var fun _ => rfl
  rw [finish, finish, hc kind m n _ hlabel hvar, Node.congr_essence e parts hp]

theorem countQuery_eq (hc : c.provider.Local) (h : d.Extends d') (hd : d.Shape) (hd' : d'.Shape)
    (hid : d.IsQueryNode id) : c.countQuery d' id = c.countQuery d id := by
  obtain ⟨n, n', hn, hn', e⟩ := h.exists_node? hd.toNumbered hd'.toNumbered hid
  obtain ⟨q, hq⟩ := c.exists_elements hd (isEmpty_eq_false_of_node? hn) id
  have hq' : c.elements d' id = .ok q := (elements_eq (h.covers hd' hid) hd hd' hid).trans hq
  rw [countQuery_of_elements hn hq, countQuery_of_elements hn' hq',
    finish_congr hc e .nodeCount (c.countParts q) fun _ => rfl]

theorem resultQuery_eq_of_covers (hc : c.provider.Local) {r : Node} (hr : d.root? = some r)
    (hid : d.IsQueryNode r.id) (h : d.Covers r.id d') (hd : d.Shape) (hd' : d'.Shape)
    (graphMode : Bool) : c.resultQuery d' graphMode = c.resultQuery d graphMode := by
  have hne : d.isEmpty = false := by
    obtain ⟨n, hn, -⟩ := hid
    exact isEmpty_eq_false_of_mem hn
  have hroot := h.root
  rw [hr, Option.map_some, Option.map_eq_some_iff] at hroot
  obtain ⟨r', hr', e⟩ := hroot
  have hrid : r'.id = r.id := (Node.place_eq_iff.1 (Node.place_of_essence e)).1
  obtain ⟨q, hq⟩ := c.exists_elements hd hne r.id
  have hq' : c.elements d' r'.id = .ok q := by
    rw [hrid, elements_eq h hd hd' hid, hq]
  rw [resultQuery_of_elements hr hq, resultQuery_of_elements hr' hq',
    finish_congr hc e .result (c.resultParts q graphMode) fun _ => rfl]

theorem resultQuery_eq (hc : c.provider.Local) (h : d.Extends d') (hd : d.Shape) (hd' : d'.Shape)
    (hne : d.isEmpty = false) (graphMode : Bool) :
    c.resultQuery d' graphMode = c.resultQuery d graphMode := by
  obtain ⟨r, hr, hid⟩ := hd.exists_root hne
  exact resultQuery_eq_of_covers hc hr hid (h.covers hd' hid) hd hd' graphMode

end Compiler

end PatternQuery
