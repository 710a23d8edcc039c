import PatternQuery.Proofs.Statement.Mapping
import PatternQuery.Proofs.Statement.Parameters
import PatternQuery.Proofs.Statement.Statements

/-!
# Data stays in the parameters

A mask takes away what comes from the database: the contents of the selected values, the candidates
and their pages, the rows of candidate values and all counts (`Diagram.masked`). What is left
decides the text of every statement and the names of its parameters
(`Compiler.statements_of_masked`), as long as amendments do not look behind the mask
(`Provider.Blind`). So the parameters are the only way by which data gets into a statement.
-/

namespace PatternQuery

/-! ## Tables -/

section Tables

variable {α β : Type} (f : α → β)

theorem Table.mapValues_insert (t : Table α) (k : String) (v : α) :
    (t.insert k v).mapValues f = Table.insert (t.mapValues f) k (f v) := by
  refine Table.ext fun k' => ?_
  rw [Fields.get?_mapValues, get?_insert, get?_insert, Fields.get?_mapValues]
  split <;> rfl

theorem Table.mapValues_merge (t u : Table α) :
    (t.merge u).mapValues f = Table.merge (t.mapValues f) (u.mapValues f) := by
  refine Table.ext fun k => ?_
  rw [Fields.get?_mapValues, get?_merge, get?_merge, Fields.get?_mapValues, Fields.get?_mapValues,
    Option.map_or]

theorem Table.mapValues_ofList (l : List (String × α)) :
    (ofList l).mapValues f = ofList (l.map fun e => (e.1, f e.2)) := by
  induction l using List.reverseRecOn with
  | nil => rfl
  | append_singleton l e ih =>
    rw [ofList_concat, mapValues_insert, ih, List.map_append, List.map_singleton, ofList_concat]

end Tables

/-- Results that agree after a function is applied are both errors or both fine. -/
theorem Except.of_map_eq_map {ε α β : Type} {f : α → β} {x y : Except ε α}
    (h : x.map f = y.map f) :
    (∃ e, x = .error e ∧ y = .error e) ∨ ∃ a b, x = .ok a ∧ y = .ok b ∧ f a = f b := by
  cases x with
  | error e =>
    cases y with
    | error e' =>
      cases h
      exact .inl ⟨e, rfl, rfl⟩
    | ok b => cases h
  | ok a =>
    cases y with
    | error e' => cases h
    | ok b => exact .inr ⟨a, b, rfl, rfl, Except.ok.inj h⟩

/-! ## Masks -/

/-- The names of parameters. -/
def Parameters.masked (t : Parameters) : Parameters := t.mapValues fun _ => .null

/-- That a value is selected, and which one. -/
def SelectedValue.masked (v : SelectedValue) : SelectedValue :=
  { id := v.id, label := "", attributes := Table.empty, internalId := none, count := 0 }

/-- A node without anything that comes from the database. -/
def Node.masked (n : Node) : Node :=
  { n with
    selected := n.selected.map SelectedValue.masked
    data := none
    page := 1
    count := 0
    attributes := none
    internalId := none }

def Diagram.masked (d : Diagram) : Diagram := { d with nodes := d.nodes.map Node.masked }

def StatementParts.masked (p : StatementParts) : StatementParts :=
  { p with parameters := Parameters.masked p.parameters }

def QueryElements.masked (e : QueryElements) : QueryElements :=
  { e with parameters := Parameters.masked e.parameters }

def ElementsDraft.masked (b : ElementsDraft) : ElementsDraft :=
  { b with elements := b.elements.masked }

/-- What a statement says without its data: the text and the names of the parameters. -/
def Statement.outline (s : Statement) : String × List String := (s.text, s.parameters.keys)

/-- Amendments change nothing but what the masks of the node and of the parts decide. -/
def Provider.Blind (p : Provider) : Prop :=
  ∀ kind (m n : Node) (x y : StatementParts), m.masked = n.masked → x.masked = y.masked →
    (p.amend kind m x).masked = (p.amend kind n y).masked

/-- The function of a hook does not look behind the masks. -/
def Hook.Blind (h : Hook) : Prop :=
  ∀ (m n : Node) (x y : StatementParts), m.masked = n.masked → x.masked = y.masked →
    (h.amend m x).masked = (h.amend n y).masked

/-- A provider with blind hooks is blind. -/
theorem Provider.blind_ofCatalogue (cat : Catalogue) {hooks : List Hook}
    (hh : ∀ h ∈ hooks, h.Blind) : (Provider.ofCatalogue cat hooks).Blind := by
  intro kind m n x y hn hx
  have hlabel : m.label = n.label := (congrArg Node.label hn :)
  show (amendWith cat hooks kind m x).masked = (amendWith cat hooks kind n y).masked
  unfold amendWith
  rw [hlabel]
  split
  · rename_i h hfound
    obtain ⟨label, -, hlast⟩ := List.exists_of_findSome?_eq_some hfound
    exact hh h (List.mem_reverse.1 (List.mem_of_find?_eq_some hlast)) m n x y hn hx
  · exact hx

/-- Amendments write nothing but their own text and the variable of the node. -/
theorem Amendment.masked_apply (n : Node) (x : StatementParts) (a : Amendment) :
    (a.apply n x).masked = a.apply n.masked x.masked := by
  cases a <;> rfl

theorem Hook.blind_of_amendments (label : String) (kind : StatementKind)
    (amendments : List Amendment) :
    Hook.Blind ⟨label, kind, fun n x => amendments.foldl (Amendment.apply n) x⟩ := by
  have hfold (n : Node) (x : StatementParts) :
      (amendments.foldl (Amendment.apply n) x).masked =
        amendments.foldl (Amendment.apply n.masked) x.masked := by
    induction amendments generalizing x with
    | nil => rfl
    | cons a amendments ih => rw [List.foldl_cons, List.foldl_cons, ih, Amendment.masked_apply]
  intro m n x y hn hx
  rw [hfold, hfold, hn, hx]

namespace Parameters

@[simp] theorem masked_masked (t : Parameters) : masked (masked t) = masked t := by
  refine Table.ext fun k => ?_
  simp only [masked, Fields.get?_mapValues, Option.map_map]
  rfl

@[simp] theorem masked_merge (t u : Parameters) :
    masked (Table.merge t u) = Table.merge (masked t) (masked u) :=
  Table.mapValues_merge _ t u

theorem keys_eq_of_masked {t u : Parameters} (h : masked t = masked u) : t.keys = u.keys := by
  rw [← Table.keys_mapValues (fun _ => Value.null) t,
    ← Table.keys_mapValues (fun _ => Value.null) u]
  exact congrArg Table.keys h

end Parameters

/-! ## Walks -/

namespace Diagram

theorem unseen_masked : Node.Unseen Node.masked where
  id _ := rfl
  parent _ := rfl
  isRoot _ := rfl
  negative _ := rfl
  hasValue n := by simp [Node.hasValue, Node.masked]

theorem node?_masked (d : Diagram) (id : NodeId) :
    d.masked.node? id = (d.node? id).map Node.masked :=
  node?_mapNodes unseen_masked d id

theorem root?_masked (d : Diagram) : d.masked.root? = d.root?.map Node.masked :=
  root?_mapNodes unseen_masked d

theorem negationApplies_masked (d : Diagram) (negated target : NodeId) :
    d.masked.negationApplies negated target = d.negationApplies negated target :=
  negationApplies_mapNodes unseen_masked d negated target

theorem relevantLinks_masked (d : Diagram) (target : NodeId) :
    d.masked.relevantLinks target = d.relevantLinks target :=
  relevantLinks_mapNodes unseen_masked d target

theorem linksToRoot_masked (d : Diagram) (id : NodeId) :
    d.masked.linksToRoot id = d.linksToRoot id :=
  linksToRoot_mapNodes Node.masked d id

end Diagram

/-! ## Clauses -/

namespace Node

variable (n : Node) (a : Attribute)

@[simp] theorem hasValue_masked : n.masked.hasValue = n.hasValue := by
  simp [hasValue, masked]

/-- A mask keeps the places of the selected values. -/
theorem mapIdx_selected_masked {α : Type} (f : Nat → α) :
    (n.masked.selected.mapIdx fun i _ => f i) = n.selected.mapIdx fun i _ => f i := by
  refine List.ext_getElem? fun i => ?_
  simp only [masked, List.getElem?_map, List.getElem?_mapIdx, Option.map_map]
  rfl

theorem negatedParameters_masked :
    Parameters.masked (n.masked.negatedParameters a) =
      Parameters.masked (n.negatedParameters a) := by
  simp only [Parameters.masked, negatedParameters, Table.mapValues_ofList]
  congr 1
  refine List.ext_getElem? fun i => ?_
  simp only [masked, List.getElem?_map, List.getElem?_mapIdx, Option.map_map]
  rfl

theorem valueConstraints_masked :
    ((n.masked.valueConstraints a).1, Parameters.masked (n.masked.valueConstraints a).2) =
      ((n.valueConstraints a).1, Parameters.masked (n.valueConstraints a).2) := by
  unfold valueConstraints
  by_cases hneg : n.negative = true
  · rw [if_pos hneg, if_pos (show n.masked.negative = true from hneg)]
    simp only [negatedParameters_masked]
  · rw [if_neg hneg, if_neg (show ¬ n.masked.negative = true from hneg)]
    have hbase : n.masked.parameterName a = n.parameterName a := rfl
    have hselected : n.masked.selected = n.selected.map SelectedValue.masked := rfl
    rw [hbase, hselected]
    -- the form of the condition depends on how many values there are
    rcases n.selected with _ | ⟨v, _ | ⟨w, vs⟩⟩
    · rfl
    · simp only [List.map_cons, List.map_nil, Parameters.masked, Table.mapValues_insert]
      rfl
    · simp only [List.map_cons, Parameters.masked, Table.mapValues_insert]
      rfl

end Node

namespace ElementsDraft

@[simp] theorem masked_masked (b : ElementsDraft) : b.masked.masked = b.masked := by
  simp [masked, QueryElements.masked]

variable (p : Provider) (settings : QuerySettings) (target : NodeId) (needed applies : Bool)

theorem addPredefined_masked (n : Node) (b : ElementsDraft) :
    (b.addPredefined p n).masked = (b.masked.addPredefined p n.masked).masked := by
  unfold addPredefined
  show ElementsDraft.masked (if _ then _ else _) =
    ElementsDraft.masked (if b.predefinedDone.contains n.id then _ else _)
  split
  · exact (masked_masked b).symm
  · simp only [masked, QueryElements.masked, Parameters.masked_masked]
    rfl

theorem addValueConstraints_masked (n : Node) (b : ElementsDraft) :
    (b.addValueConstraints p target needed n).masked =
      (b.masked.addValueConstraints p target needed n.masked).masked := by
  unfold addValueConstraints
  show ElementsDraft.masked (if _ then _ else _) = ElementsDraft.masked (if
    n.id == target || !(needed || n.immutable) || b.valuesDone.contains n.id then _ else _)
  split
  · exact (masked_masked b).symm
  · obtain ⟨hpredicate, hparameters⟩ :=
      Prod.mk.inj (n.valueConstraints_masked (p.properties n.label).constraintAttribute)
    have hlabel : n.masked.label = n.label := rfl
    simp only [masked, QueryElements.masked, Parameters.masked_merge, Parameters.masked_masked,
      hlabel, hpredicate, hparameters]
    rfl

theorem addRelation_masked (source : Node) (l : Link) (n : Node) (arrow : String)
    (b : ElementsDraft) :
    (b.addRelation source l n arrow).masked =
      (b.masked.addRelation source.masked l n.masked arrow).masked := by
  simp only [addRelation, masked, QueryElements.masked, Parameters.masked_masked]
  rfl

/-- The clauses of a negated node count its values, but do not show them. -/
theorem addNegation_masked (source : Node) (l : Link) (n : Node) (arrow : String)
    (b : ElementsDraft) :
    (b.addNegation p source l n arrow).masked =
      (b.masked.addNegation p source.masked l n.masked arrow).masked := by
  unfold addNegation
  have hlabel : n.masked.label = n.label := rfl
  simp only [Node.hasValue_masked, hlabel]
  split
  · have hparameters := n.negatedParameters_masked (p.properties n.label).constraintAttribute
    simp only [masked, QueryElements.masked, Parameters.masked_merge, Parameters.masked_masked,
      hparameters, Node.mapIdx_selected_masked]
    rfl
  · simp only [masked, QueryElements.masked, Parameters.masked_masked]
    rfl

section Congr

variable {m n source source' : Node} {b b' : ElementsDraft} (hb : b.masked = b'.masked)

include hb

theorem addPredefined_congr (hn : m.masked = n.masked) :
    (b.addPredefined p m).masked = (b'.addPredefined p n).masked := by
  rw [addPredefined_masked, hb, hn, ← addPredefined_masked]

theorem addValueConstraints_congr (hn : m.masked = n.masked) :
    (b.addValueConstraints p target needed m).masked =
      (b'.addValueConstraints p target needed n).masked := by
  rw [addValueConstraints_masked, hb, hn, ← addValueConstraints_masked]

theorem addRelation_congr (hs : source.masked = source'.masked) (hn : m.masked = n.masked)
    (l : Link) (arrow : String) :
    (b.addRelation source l m arrow).masked = (b'.addRelation source' l n arrow).masked := by
  rw [addRelation_masked, hb, hs, hn, ← addRelation_masked]

theorem addNegation_congr (hs : source.masked = source'.masked) (hn : m.masked = n.masked)
    (l : Link) (arrow : String) :
    (b.addNegation p source l m arrow).masked = (b'.addNegation p source' l n arrow).masked := by
  rw [addNegation_masked, hb, hs, hn, ← addNegation_masked]

theorem addEnds_congr (hs : source.masked = source'.masked) (hn : m.masked = n.masked)
    (l : Link) :
    (b.addEnds p settings target needed applies l source m).masked =
      (b'.addEnds p settings target needed applies l source' n).masked := by
  have hreversed : m.isReversed = n.isReversed := (congrArg Node.isReversed hn :)
  have hnegative : m.negative = n.negative := (congrArg Node.negative hn :)
  have hsource := addPredefined_congr p hb hs
  unfold addEnds
  rw [hreversed, hnegative]
  refine addValueConstraints_congr p target needed ?_ hn
  split
  · exact addNegation_congr p hsource hs hn l _
  · exact addPredefined_congr p (addRelation_congr hsource hs hn l _) hn

end Congr

end ElementsDraft

namespace Diagram

variable {d d' : Diagram} {id target : NodeId}

/-- Diagrams of one mask have the same nodes, up to the mask. -/
theorem node?_of_masked (h : d.masked = d'.masked) (id : NodeId) :
    (d.node? id = none ∧ d'.node? id = none) ∨
      ∃ n n', d.node? id = some n ∧ d'.node? id = some n' ∧ n.masked = n'.masked := by
  have e : (d.node? id).map Node.masked = (d'.node? id).map Node.masked := by
    rw [← node?_masked, h, node?_masked]
  cases hn : d.node? id with
  | none => exact .inl ⟨rfl, by simpa [hn] using e.symm⟩
  | some n =>
    rw [hn, Option.map_some] at e
    obtain ⟨n', hn', e⟩ := Option.map_eq_some_iff.1 e.symm
    exact .inr ⟨n, n', rfl, hn', e.symm⟩

theorem root?_of_masked (h : d.masked = d'.masked) :
    (d.root? = none ∧ d'.root? = none) ∨
      ∃ r r', d.root? = some r ∧ d'.root? = some r' ∧ r.masked = r'.masked := by
  have e : d.root?.map Node.masked = d'.root?.map Node.masked := by
    rw [← root?_masked, h, root?_masked]
  cases hr : d.root? with
  | none => exact .inl ⟨rfl, by simpa [hr] using e.symm⟩
  | some r =>
    rw [hr, Option.map_some] at e
    obtain ⟨r', hr', e⟩ := Option.map_eq_some_iff.1 e.symm
    exact .inr ⟨r, r', rfl, hr', e.symm⟩

theorem negationApplies_of_masked (h : d.masked = d'.masked) (negated target : NodeId) :
    d.negationApplies negated target = d'.negationApplies negated target := by
  rw [← negationApplies_masked, h, negationApplies_masked]

theorem relevantLinks_of_masked (h : d.masked = d'.masked) (target : NodeId) :
    d.relevantLinks target = d'.relevantLinks target := by
  rw [← relevantLinks_masked, h, relevantLinks_masked]

theorem linksToRoot_of_masked (h : d.masked = d'.masked) (id : NodeId) :
    d.linksToRoot id = d'.linksToRoot id := by
  rw [← linksToRoot_masked, h, linksToRoot_masked]

section Congr

variable (h : d.masked = d'.masked) (p : Provider) (settings : QuerySettings) (target : NodeId)
  (needed : Bool)

include h

theorem addLink_congr (l : Link) {b b' : ElementsDraft} (hb : b.masked = b'.masked) :
    (ElementsDraft.addLink d p settings target needed b l).map ElementsDraft.masked =
      (ElementsDraft.addLink d' p settings target needed b' l).map ElementsDraft.masked := by
  rcases node?_of_masked h l.source with ⟨hs, hs'⟩ | ⟨source, source', hs, hs', es⟩
  · simp only [ElementsDraft.addLink, hs, hs']
  · rcases node?_of_masked h l.target with ⟨hn, hn'⟩ | ⟨n, n', hn, hn', en⟩
    · simp only [ElementsDraft.addLink, hs, hs', hn, hn']
    · rw [addLink_eq hs hn, addLink_eq hs' hn', negationApplies_of_masked h, Except.map, Except.map,
        ElementsDraft.addEnds_congr p settings target needed _ hb es en l]

theorem addLinks_congr (links : List Link) {b b' : ElementsDraft} (hb : b.masked = b'.masked) :
    (links.foldlM (ElementsDraft.addLink d p settings target needed) b).map ElementsDraft.masked =
      (links.foldlM (ElementsDraft.addLink d' p settings target needed) b').map
        ElementsDraft.masked := by
  induction links generalizing b b' with
  | nil => exact congrArg Except.ok hb
  | cons l links ih =>
    rw [List.foldlM_cons, List.foldlM_cons]
    rcases Except.of_map_eq_map (addLink_congr h p settings target needed l hb) with
      ⟨e, he, he'⟩ | ⟨b1, b1', he, he', hb1⟩
    · rw [he, he']
      rfl
    · rw [he, he']
      exact ih hb1

theorem generateElements_congr (links : List Link) :
    (generateElements d p settings target links needed).map QueryElements.masked =
      (generateElements d' p settings target links needed).map QueryElements.masked := by
  rcases root?_of_masked h with ⟨hr, hr'⟩ | ⟨r, r', hr, hr', er⟩
  · simp only [generateElements, hr, hr']
  · have hstart := ElementsDraft.addValueConstraints_congr p target needed
      (ElementsDraft.addPredefined_congr p (rfl : ({} : ElementsDraft).masked = _) er) er
    have hpattern : r.pattern = r'.pattern := (congrArg Node.pattern er :)
    simp only [generateElements, hr, hr']
    rcases Except.of_map_eq_map (addLinks_congr h p settings target needed links hstart) with
      ⟨e, he, he'⟩ | ⟨b, b', he, he', hb⟩
    · rw [he, he']
    · have helements : b.elements.masked = b'.elements.masked :=
        (congrArg ElementsDraft.elements hb :)
      have hpatterns : b.elements.patterns = b'.elements.patterns :=
        (congrArg QueryElements.patterns helements :)
      rw [he, he', Except.map, Except.map, hpatterns, hpattern]
      congr 1
      split
      · exact congrArg (fun e : QueryElements => { e with patterns := [r'.pattern] }) helements
      · exact helements

end Congr

end Diagram

/-! ## Statements -/

namespace Compiler

variable {c : Compiler} {d d' : Diagram} {m n r r' : Node} {e e' : QueryElements}
  {x y : StatementParts}

theorem partsOf_congr (he : e.masked = e'.masked) : (partsOf e).masked = (partsOf e').masked :=
  (congrArg partsOf he :)

theorem constrain_masked (n : Node) (x : StatementParts) :
    (c.constrain n x).masked = (c.constrain n.masked x.masked).masked := by
  obtain ⟨hpredicate, hparameters⟩ :=
    Prod.mk.inj (n.valueConstraints_masked (c.properties n.label).constraintAttribute)
  have hlabel : n.masked.label = n.label := rfl
  simp only [constrain, StatementParts.masked, Parameters.masked_merge, Parameters.masked_masked,
    hlabel, hpredicate, hparameters]

theorem constrain_congr (hn : m.masked = n.masked) (hx : x.masked = y.masked) :
    (c.constrain m x).masked = (c.constrain n y).masked := by
  rw [constrain_masked, hn, hx, ← constrain_masked]

/-- What is returned, and how, is read off the masks. -/
theorem resultParts_masked (e : QueryElements) (graphMode : Bool) (r : Node) :
    (c.resultParts e graphMode r).masked =
      { (c.constrain r (partsOf e)).masked with
        distinct := true
        returns := (c.resultParts e.masked graphMode r.masked).returns
        trailing := (c.resultParts e.masked graphMode r.masked).trailing } := rfl

theorem resultParts_congr (hr : r.masked = r'.masked) (he : e.masked = e'.masked)
    (graphMode : Bool) :
    (c.resultParts e graphMode r).masked = (c.resultParts e' graphMode r').masked := by
  rw [resultParts_masked, constrain_congr hr (partsOf_congr he), hr, he, ← resultParts_masked]

theorem countParts_masked (e : QueryElements) (n : Node) :
    (c.countParts e n).masked =
      { (c.constrain n (partsOf e)).masked with
        returns := (c.countParts e.masked n.masked).returns } := rfl

theorem countParts_congr (hn : m.masked = n.masked) (he : e.masked = e'.masked) :
    (c.countParts e m).masked = (c.countParts e' n).masked := by
  rw [countParts_masked, constrain_congr hn (partsOf_congr he), hn, he, ← countParts_masked]

theorem valueParts_congr (hr : r.masked = r'.masked) (hn : m.masked = n.masked)
    (he : e.masked = e'.masked) :
    (c.valueParts e r m).masked = (c.valueParts e' r' n).masked := by
  show c.valueParts e.masked r.masked m.masked = c.valueParts e'.masked r'.masked n.masked
  rw [hr, hn, he]

theorem relationParts_congr (links : List Link) (hn : m.masked = n.masked)
    (he : e.masked = e'.masked) :
    (c.relationParts e links m).masked = (c.relationParts e' links n).masked := by
  show c.relationParts e.masked links m.masked = c.relationParts e'.masked links n.masked
  rw [hn, he]

theorem finish_of_masked (hc : c.provider.Blind) (kind : StatementKind)
    (hn : m.masked = n.masked) (hx : x.masked = y.masked) :
    (c.finish kind m x).outline = (c.finish kind n y).outline := by
  have h := hc kind m n x y hn hx
  have htext : (c.provider.amend kind m x).text c.settings.preamble =
      (c.provider.amend kind n y).text c.settings.preamble :=
    (congrArg (StatementParts.text c.settings.preamble) h :)
  have hkeys := Parameters.keys_eq_of_masked (congrArg StatementParts.parameters h :)
  exact Prod.ext htext hkeys

/-- The clauses for a node, in the terms of the mask. -/
theorem elements_congr (h : d.masked = d'.masked) (id : NodeId) :
    (c.elements d id).map QueryElements.masked = (c.elements d' id).map QueryElements.masked := by
  rw [elements, elements, Diagram.relevantLinks_of_masked h]
  exact Diagram.generateElements_congr h c.provider c.settings id true _

theorem resultQuery_of_masked (hc : c.provider.Blind) (h : d.masked = d'.masked)
    (graphMode : Bool) :
    (c.resultQuery d graphMode).map Statement.outline =
      (c.resultQuery d' graphMode).map Statement.outline := by
  rcases Diagram.root?_of_masked h with ⟨hr, hr'⟩ | ⟨r, r', hr, hr', er⟩
  · simp only [resultQuery, hr, hr']
  · have hid : r.id = r'.id := (congrArg Node.id er :)
    rcases Except.of_map_eq_map (elements_congr (c := c) h r.id) with
      ⟨err, he, he'⟩ | ⟨e, e', he, he', heq⟩
    · rw [hid] at he'
      simp only [resultQuery, hr, hr', he, he']
    · rw [resultQuery_of_elements hr he, resultQuery_of_elements hr' (hid ▸ he'), Except.map,
        Except.map, finish_of_masked hc .result er (resultParts_congr er heq graphMode)]

theorem countQuery_of_masked (hc : c.provider.Blind) (h : d.masked = d'.masked) (id : NodeId) :
    (c.countQuery d id).map Statement.outline = (c.countQuery d' id).map Statement.outline := by
  rcases Diagram.node?_of_masked h id with ⟨hn, hn'⟩ | ⟨n, n', hn, hn', en⟩
  · simp only [countQuery, hn, hn']
  · rcases Except.of_map_eq_map (elements_congr (c := c) h id) with
      ⟨err, he, he'⟩ | ⟨e, e', he, he', heq⟩
    · simp only [countQuery, hn, hn', he, he']
    · rw [countQuery_of_elements hn he, countQuery_of_elements hn' he', Except.map, Except.map,
        finish_of_masked hc .nodeCount en (countParts_congr en heq)]

theorem valueQuery_of_masked (hc : c.provider.Blind) (h : d.masked = d'.masked) (id : NodeId) :
    (c.valueQuery d id).map Statement.outline = (c.valueQuery d' id).map Statement.outline := by
  rcases Diagram.node?_of_masked h id with ⟨hn, hn'⟩ | ⟨n, n', hn, hn', en⟩
  · simp only [valueQuery, hn, hn']
  · rcases Diagram.root?_of_masked h with ⟨hr, hr'⟩ | ⟨r, r', hr, hr', er⟩
    · simp only [valueQuery, hn, hn', hr, hr']
    · rcases Except.of_map_eq_map (elements_congr (c := c) h id) with
        ⟨err, he, he'⟩ | ⟨e, e', he, he', heq⟩
      · simp only [valueQuery, hn, hn', hr, hr', he, he']
      · rw [valueQuery_of_elements hn hr he, valueQuery_of_elements hn' hr' he', Except.map,
          Except.map, finish_of_masked hc .nodeValue en (valueParts_congr er en heq)]

theorem relationQuery_of_masked (hc : c.provider.Blind) (h : d.masked = d'.masked) (id : NodeId) :
    (c.relationQuery d id).map Statement.outline =
      (c.relationQuery d' id).map Statement.outline := by
  rcases Diagram.node?_of_masked h id with ⟨hn, hn'⟩ | ⟨n, n', hn, hn', en⟩
  · simp only [relationQuery, hn, hn']
  · have hlinks := Diagram.linksToRoot_of_masked h id
    have hpath := Diagram.generateElements_congr h c.provider c.settings id false (d.linksToRoot id)
    rcases Except.of_map_eq_map hpath with ⟨err, he, he'⟩ | ⟨e, e', he, he', heq⟩
    · rw [hlinks] at he he'
      simp only [relationQuery, hn, hn', hlinks, he, he']
    · rw [relationQuery_of_elements hn he, relationQuery_of_elements hn' (hlinks ▸ he'), Except.map,
        Except.map, ← hlinks, finish_of_masked hc .nodeRelation en (relationParts_congr _ en heq)]

/-- Diagrams that differ in their data only have the same statements but for the values of the
parameters, or are refused for the same reason. Statements about the nodes of a query are never
refused. -/
theorem statements_of_masked {p : Provider} (hp : p.Blind) (settings : QuerySettings)
    (h : d.masked = d'.masked) (id : NodeId) :
    let c : Compiler := ⟨p, settings⟩
    ((∀ graphMode, (c.resultQuery d graphMode).map Statement.outline =
        (c.resultQuery d' graphMode).map Statement.outline) ∧
      (c.countQuery d id).map Statement.outline = (c.countQuery d' id).map Statement.outline ∧
      (c.valueQuery d id).map Statement.outline = (c.valueQuery d' id).map Statement.outline ∧
      (c.relationQuery d id).map Statement.outline =
        (c.relationQuery d' id).map Statement.outline) ∧
    (∀ q, d.Reachable q → d.IsQueryNode id →
      (∀ graphMode, ∃ s, c.resultQuery d graphMode = .ok s) ∧
      (∃ s, c.countQuery d id = .ok s) ∧
      (∃ s, c.valueQuery d id = .ok s) ∧
      ∃ s, c.relationQuery d id = .ok s) := by
  intro c
  refine ⟨⟨resultQuery_of_masked hp h, countQuery_of_masked hp h id, valueQuery_of_masked hp h id,
    relationQuery_of_masked hp h id⟩, fun q hd hid => ?_⟩
  have hshape := hd.wellFormed.toShape
  obtain ⟨n, hn, -⟩ := hshape.isQueryNode_iff.1 hid
  exact ⟨c.exists_resultQuery hshape (Diagram.isEmpty_eq_false_of_node? hn),
    c.exists_countQuery hshape hn, c.exists_valueQuery hshape hn, c.exists_relationQuery hshape hn⟩

/-- A person of Ulm who does not know two others, and a person of Bonn who does not know two others.
The provider amends what counts persons. -/
theorem statements_of_persons :
    let city : Catalogue := { labels := Table.ofList [
      ("Person", { constraintAttribute := some (.property "city") })] }
    let living : List Amendment := [.addCondition "NOT \x7bvar\x7d:Dead"]
    let hook : Hook := ⟨"Person", .nodeCount, fun n x => living.foldl (Amendment.apply n) x⟩
    let schema (home : String) (others : List String) : Schema :=
      let row (s : String) : Row := Table.ofList [("city", .str s)]
      .node "Person" [row home]
        [⟨"KNOWS", .node "Person" (others.map row) [] false, false⟩] false
    let q := Provider.ofCatalogue city [hook]
    let make (s : Schema) := Operation.runAll q [.addSchema s none, .negate ⟨2⟩] (.new 10)
    let d := make (schema "Ulm" ["Bonn", "Mainz"])
    let d' := make (schema "Bonn" ["Ulm", "Trier"])
    q.Blind ∧ d.masked = d'.masked ∧
      (countQuery ⟨q, {}⟩ d ⟨0⟩).map Statement.outline =
        (countQuery ⟨q, {}⟩ d' ⟨0⟩).map Statement.outline ∧
      (countQuery ⟨q, {}⟩ d ⟨0⟩).toOption.map (fun s => s.parameters.keys) =
        some ["person0_city", "person0_city2", "person_city"] := by
  intro city living hook schema q make d d'
  have hq : q.Blind := Provider.blind_ofCatalogue city fun h hh => by
    rw [List.mem_singleton.1 hh]
    exact Hook.blind_of_amendments "Person" .nodeCount living
  have hd : d.masked = d'.masked := by decide +kernel
  exact ⟨hq, hd, (statements_of_masked hq {} hd ⟨0⟩).1.2.1, by decide +kernel⟩

end Compiler

end PatternQuery
