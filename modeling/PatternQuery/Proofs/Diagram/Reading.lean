import Mathlib.Data.List.Forall2
import PatternQuery.Proofs.Diagram.Interchange
import PatternQuery.Proofs.Diagram.Resets

/-!
# Schemas read off diagrams

A schema is read off a diagram from a node on along the relations (`Diagram.readSchema`). Where a
schema lies at a node it is read there (`Schema.LiesAt.readWithin_eq`), and what is added elsewhere
does not change that (`Schema.LiesAt.mono`). Placing relations at a node adds one node for each
schema that they lead to, in pre-order, at which this schema lies then (`Diagram.Grown`).
-/

namespace PatternQuery

variable {d d' d'' : Diagram} {id x : NodeId} {n : Node} {s t : Schema}

/-! ## Schemas as trees -/

namespace Schema

mutual

/-- A schema and the schemas that its relations lead to, each in front of those that it leads to. -/
def preorder : Schema → List Schema
  | node label rows relations group => node label rows relations group :: preorderAll relations

def preorderAll : List (SchemaRelation Schema) → List Schema
  | [] => []
  | ⟨_, target, _⟩ :: rest => target.preorder ++ preorderAll rest

end

/-- The schemas that the relations of a schema lead to, in pre-order. -/
def descendants (s : Schema) : List Schema := preorderAll s.relations

/-- Asks for a group or for none. -/
def withGroup (group : Bool) : Schema → Schema
  | node label rows relations _ => node label rows relations group

theorem preorder_eq (s : Schema) : s.preorder = s :: s.descendants := by
  cases s
  rfl

theorem withGroup_isGroup (s : Schema) : s.withGroup s.isGroup = s := by
  cases s
  rfl

end Schema

namespace Diagram

/-! ## Reading -/

/-- The relations that lead on from a node, in the order of the links. -/
def relationsFrom (d : Diagram) (id : NodeId) : List Link :=
  d.relationLinks.filter fun l => l.source == id

theorem number_lt_of_mem_relationsFrom (hd : d.Numbered) {l : Link} (hl : l ∈ d.relationsFrom id) :
    id.number < l.target.number := by
  obtain ⟨hrelation, hsource⟩ := List.mem_filter.1 hl
  obtain rfl : l.source = id := by simpa using hsource
  exact hd.sourceBefore l (List.mem_filter.1 hrelation).1

/-- Reads the schema from a node on, along at most `depth` nodes. -/
def readWithin (d : Diagram) : Nat → NodeId → Option Schema
  | 0, _ => none
  | depth + 1, id => do
    let n ← d.node? id
    let relations ← (d.relationsFrom id).mapM fun l => do
      let child ← d.node? l.target
      let target ← d.readWithin depth l.target
      return ⟨l.label, target, child.isReversed⟩
    return .node n.label (n.selected.map SelectedValue.attributes) relations (n.kind == .group)

/-- Reads the schema from a node on. Numbers grow along relations, so there are not more nodes in a
row than numbers. -/
def readSchema (d : Diagram) (id : NodeId) : Option Schema := d.readWithin d.nextNode id

end Diagram

namespace Schema

/-! ## Schemas in a diagram -/

mutual

/-- The schema is what a diagram shows from a node on. -/
def LiesAt (d : Diagram) : Schema → NodeId → Prop
  | node label rows relations group, id =>
    (∃ n, d.node? id = some n ∧ n.label = label ∧
      n.selected.map SelectedValue.attributes = rows ∧ (n.kind == .group) = group) ∧
    RelationsLieAt d relations (d.relationsFrom id)

/-- The relations are what a diagram shows behind some links. -/
def RelationsLieAt (d : Diagram) : List (SchemaRelation Schema) → List Link → Prop
  | [], links => links = []
  | ⟨label, target, isReverse⟩ :: rest, links =>
    ∃ l links', links = l :: links' ∧ l.label = label ∧
      (∃ n, d.node? l.target = some n ∧ n.isReversed = isReverse) ∧ target.LiesAt d l.target ∧
      RelationsLieAt d rest links'

end

mutual

/-- There are enough steps to read what lies at a node. -/
theorem LiesAt.readWithin_eq (hd : d.Numbered) : ∀ {s : Schema} {id : NodeId} {depth : Nat},
    s.LiesAt d id → d.nextNode ≤ depth + id.number → d.readWithin depth id = some s
  | node label rows relations group, id, depth, ⟨⟨n, hn, hlabel, hrows, hgroup⟩, hrelations⟩,
      hdepth => by
    have hlt := hd.number_lt_of_node? hn
    obtain ⟨k, rfl⟩ : ∃ k, depth = k + 1 := ⟨depth - 1, by omega⟩
    have hdepth : ∀ l ∈ d.relationsFrom id, d.nextNode ≤ k + l.target.number := by
      intro l hl
      have := Diagram.number_lt_of_mem_relationsFrom hd hl
      omega
    have hread := RelationsLieAt.mapM_eq hd hrelations hdepth
    subst hlabel hrows hgroup
    rw [Diagram.readWithin, hn, hread]
    rfl

theorem RelationsLieAt.mapM_eq (hd : d.Numbered) : ∀ {relations : List (SchemaRelation Schema)}
    {links : List Link} {depth : Nat}, RelationsLieAt d relations links →
    (∀ l ∈ links, d.nextNode ≤ depth + l.target.number) →
    (links.mapM fun l => do
      let child ← d.node? l.target
      let target ← d.readWithin depth l.target
      return (⟨l.label, target, child.isReversed⟩ : SchemaRelation Schema)) = some relations
  | [], links, depth, h, _ => by
    obtain rfl : links = [] := h
    rfl
  | ⟨label, target, isReverse⟩ :: rest, links, depth, h, hdepth => by
    obtain ⟨l, links', rfl, rfl, ⟨n, hn, rfl⟩, htarget, hrest⟩ := h
    have hhead := htarget.readWithin_eq hd (hdepth l List.mem_cons_self)
    have htail := RelationsLieAt.mapM_eq hd hrest fun k hk => hdepth k (List.mem_cons_of_mem _ hk)
    rw [List.mapM_cons, htail, hn, hhead]
    rfl

end

section Mono

variable {lo : Nat} (hd : d.Numbered) (hsame : ∀ x : NodeId, lo ≤ x.number →
  x.number < d.nextNode → d'.node? x = d.node? x ∧ d'.relationsFrom x = d.relationsFrom x)

include hd hsame

mutual

/-- What lies at a node stays where neither that node nor any of those behind it changes. -/
theorem LiesAt.mono : ∀ {s : Schema} {x : NodeId}, lo ≤ x.number → s.LiesAt d x → s.LiesAt d' x
  | node label rows relations group, x, hx, ⟨⟨n, hn, hread⟩, hrelations⟩ => by
    obtain ⟨hnode, hlinks⟩ := hsame x hx (hd.number_lt_of_node? hn)
    refine ⟨⟨n, hnode.trans hn, hread⟩, ?_⟩
    rw [hlinks]
    refine RelationsLieAt.mono (fun l hl => ?_) hrelations
    have := Diagram.number_lt_of_mem_relationsFrom hd hl
    omega

theorem RelationsLieAt.mono : ∀ {relations : List (SchemaRelation Schema)} {links : List Link},
    (∀ l ∈ links, lo ≤ l.target.number) → RelationsLieAt d relations links →
    RelationsLieAt d' relations links
  | [], _, _, h => h
  | ⟨label, target, isReverse⟩ :: rest, links, hle, h => by
    obtain ⟨l, links', rfl, hlabel, ⟨n, hn, hreverse⟩, htarget, hrest⟩ := h
    have hl := hle l List.mem_cons_self
    have hnode := (hsame l.target hl (hd.number_lt_of_node? hn)).1
    refine ⟨l, links', rfl, hlabel, ⟨n, hnode.trans hn, hreverse⟩, htarget.mono hl, ?_⟩
    exact RelationsLieAt.mono (fun k hk => hle k (List.mem_cons_of_mem _ hk)) hrest

end

end Mono

theorem preorderAll_append (relations rest : List (SchemaRelation Schema)) :
    preorderAll (relations ++ rest) = preorderAll relations ++ preorderAll rest := by
  induction relations with
  | nil => rfl
  | cons r relations ih => rw [List.cons_append, preorderAll, preorderAll, ih, List.append_assoc]

theorem RelationsLieAt.append {relations rest : List (SchemaRelation Schema)}
    {links links' : List Link} (h : RelationsLieAt d relations links)
    (hrest : RelationsLieAt d rest links') :
    RelationsLieAt d (relations ++ rest) (links ++ links') := by
  induction relations generalizing links with
  | nil =>
    obtain rfl : links = [] := h
    exact hrest
  | cons r relations ih =>
    obtain ⟨l, more, rfl, hlabel, hnode, htarget, hmore⟩ := h
    exact ⟨l, more ++ links', rfl, hlabel, hnode, htarget, ih hmore⟩

end Schema

namespace Diagram

variable {p : Provider} {relations rest : List (SchemaRelation Schema)} {new more : List Node}

/-! ## Filling nodes in -/

/-- What a node becomes that is filled in from its schema. -/
def filled (d : Diagram) (s : Schema) (n : Node) : Node :=
  { n with
    selected := s.rows.mapIdx fun i row => SelectedValue.ofRow ⟨d.nextNode + i⟩ s.label row
    relationships := s.segments
    relationshipsLoaded := true }

/-- Fills a node in from its schema. -/
def fill (id : NodeId) (s : Schema) (d : Diagram) : Diagram :=
  { d with nextNode := d.nextNode + s.rows.length }.modify id (d.filled s)

theorem fill_eq (id : NodeId) (s : Schema) (d : Diagram) :
    d.fill id s = (d.selectRows id s.label s.rows).modify id fun n =>
      { n with relationships := s.segments, relationshipsLoaded := true } := by
  rw [selectRows, modify_modify]
  · rfl
  · exact fun _ => rfl

theorem applySchema_eq (p : Provider) (id : NodeId) (s : Schema) (d : Diagram) :
    applySchema p id s d = applyRelations p id s.relations (d.fill id s) := by
  rw [fill_eq]
  cases s
  rfl

theorem WellFormed.fill (h : d.WellFormed) (hid : d.IsQueryNode id) (s : Schema) :
    (d.fill id s).WellFormed := by
  rw [fill_eq]
  exact (h.selectRows s.label s.rows hid).relate s.segments (hid.selectRows id s.label s.rows)

theorem IsQueryNode.fill (h : d.IsQueryNode x) (id : NodeId) (s : Schema) :
    (d.fill id s).IsQueryNode x := by
  rw [fill_eq]
  exact (h.selectRows id s.label s.rows).modify fun _ => rfl

theorem node?_fill (hn : d.node? id = some n) (s : Schema) :
    (d.fill id s).node? id = some (d.filled s n) :=
  node?_modify_self (d := { d with nextNode := d.nextNode + s.rows.length }) (f := d.filled s)
    (fun _ => rfl) hn

/-- The rows of a schema are what is selected on a node that is filled in from it. -/
theorem attributes_filled (d : Diagram) (s : Schema) (n : Node) :
    (d.filled s n).selected.map SelectedValue.attributes = s.rows := by
  refine List.ext_getElem ?_ fun i hi hi' => ?_
  · simp [filled]
  · simp [filled, SelectedValue.ofRow]

/-- A node at the end of the list is filled in alone if no other one has its number. -/
theorem nodes_fill_append {nodes : List Node} (hother : ∀ m ∈ nodes, m.id ≠ n.id)
    (hnodes : d.nodes = nodes ++ [n]) (s : Schema) :
    (d.fill n.id s).nodes = nodes ++ [d.filled s n] := by
  have hkept : nodes.map (fun m => if m.id = n.id then d.filled s m else m) = nodes := by
    conv_rhs => rw [← List.map_id nodes]
    exact List.map_congr_left fun m hm => if_neg (hother m hm)
  show d.nodes.map _ = _
  rw [hnodes, List.map_append, hkept, List.map_singleton, if_pos rfl]

/-! ## Placing schemas -/

/-- What comes with relations that are placed at a node: links from this node alone, and new
nodes, one for each schema that the relations lead to. -/
structure Grown (d d' : Diagram) (id : NodeId) (relations : List (SchemaRelation Schema))
    (new : List Node) : Prop where
  wellFormed : d'.WellFormed
  nextNode : d.nextNode ≤ d'.nextNode
  nodes : d'.nodes = d.nodes ++ new
  numbers : ∀ n ∈ new, d.nextNode ≤ n.id.number
  made : List.Forall₂ (fun n t => n.kind = childKind t ∧ t.LiesAt d' n.id) new
    (Schema.preorderAll relations)
  elsewhere : ∀ x : NodeId, x ≠ id → x.number < d.nextNode → d'.relationsFrom x = d.relationsFrom x
  links : ∃ links, d'.relationsFrom id = d.relationsFrom id ++ links ∧
    Schema.RelationsLieAt d' relations links

theorem Grown.node?_eq (h : d.Grown d' id relations new) (hx : x.number < d.nextNode) :
    d'.node? x = d.node? x := by
  have hnone : new.find? (fun n => n.id == x) = none := by
    refine List.find?_eq_none.2 fun n hn => ?_
    rw [beq_iff_eq]
    rintro rfl
    have := h.numbers n hn
    omega
  rw [node?, h.nodes, List.find?_append, hnone, Option.or_none, node?]

theorem Grown.isQueryNode (h : d.Grown d' id relations new) (hx : d.IsQueryNode x) :
    d'.IsQueryNode x := by
  obtain ⟨n, hn, hid, hk⟩ := hx
  refine ⟨n, ?_, hid, hk⟩
  rw [h.nodes]
  exact List.mem_append_left _ hn

/-- Behind the node where relations are placed nothing changes. -/
theorem Grown.same (h : d.Grown d' id relations new) (hx : id.number + 1 ≤ x.number)
    (hlt : x.number < d.nextNode) :
    d'.node? x = d.node? x ∧ d'.relationsFrom x = d.relationsFrom x := by
  refine ⟨h.node?_eq hlt, h.elsewhere x ?_ hlt⟩
  rintro rfl
  omega

theorem Grown.nil (h : d.WellFormed) (id : NodeId) : d.Grown d id [] [] :=
  ⟨h, Nat.le_refl _, (List.append_nil _).symm, by simp, .nil, fun _ _ _ => rfl, [],
    (List.append_nil _).symm, rfl⟩

theorem Grown.append (h : d.Grown d' id relations new) (h' : d'.Grown d'' id rest more)
    (hid : id.number < d.nextNode) : d.Grown d'' id (relations ++ rest) (new ++ more) where
  wellFormed := h'.wellFormed
  nextNode := Nat.le_trans h.nextNode h'.nextNode
  nodes := by rw [h'.nodes, h.nodes, List.append_assoc]
  numbers n hn := by
    rcases List.mem_append.1 hn with hn | hn
    · exact h.numbers n hn
    · exact Nat.le_trans h.nextNode (h'.numbers n hn)
  made := by
    rw [Schema.preorderAll_append]
    refine List.rel_append ?_ h'.made
    have hmade := (List.forall₂_and_left _ _).2 ⟨h.numbers, h.made⟩
    refine hmade.imp fun n t ⟨hnumber, hkind, ht⟩ => ⟨hkind, ?_⟩
    exact ht.mono h.wellFormed.toNumbered (fun x => h'.same) (by omega)
  elsewhere x hx hlt :=
    (h'.elsewhere x hx (Nat.lt_of_lt_of_le hlt h.nextNode)).trans (h.elsewhere x hx hlt)
  links := by
    obtain ⟨links, hlinks, hlie⟩ := h.links
    obtain ⟨links', hlinks', hlie'⟩ := h'.links
    refine ⟨links ++ links', by rw [hlinks', hlinks, List.append_assoc], .append ?_ hlie'⟩
    refine hlie.mono h.wellFormed.toNumbered (fun x => h'.same) fun l hl => ?_
    refine number_lt_of_mem_relationsFrom h.wellFormed.toNumbered ?_
    rw [hlinks]
    exact List.mem_append_right _ hl

/-- A schema whose relations are placed at a node that is filled in from it lies there. -/
theorem Grown.liesAt (h : (d.fill id s).Grown d' id s.relations new) (hn : d.node? id = some n)
    (hd : d.Numbered) (hlabel : n.label = s.label) (hnone : d.relationsFrom id = []) :
    (s.withGroup (n.kind == .group)).LiesAt d' id := by
  have hn' : d'.node? id = some (d.filled s n) := by
    rw [h.node?_eq, node?_fill hn]
    exact Nat.lt_of_lt_of_le (hd.number_lt_of_node? hn) (Nat.le_add_right _ _)
  obtain ⟨links, hlinks, hrelations⟩ := h.links
  rw [show (d.fill id s).relationsFrom id = [] from hnone, List.nil_append] at hlinks
  cases s with
  | node label rows relations group =>
    refine ⟨⟨d.filled _ n, hn', hlabel, attributes_filled d _ n, rfl⟩, ?_⟩
    rwa [hlinks]

theorem childKind_beq_group (s : Schema) : (childKind s == .group) = s.isGroup := by
  unfold childKind
  cases s.isGroup <;> rfl

theorem Linked.relationsFrom_eq_nil (h : d.Linked) (hx : d.nextNode ≤ x.number) :
    d.relationsFrom x = [] := by
  refine List.filter_eq_nil_iff.2 fun l hl => ?_
  obtain ⟨n, hn, hid, -⟩ := h.edge_mem (List.mem_filter.1 hl).1
  have hbefore := h.sourceBefore l (List.mem_filter.1 hl).1
  have hbound := h.bounded n hn
  rw [hid] at hbound
  rw [beq_iff_eq]
  rintro rfl
  omega

theorem relationsFrom_attachChild (p : Provider) (id : NodeId) (s : Segment) (kind : NodeKind)
    (d : Diagram) (x : NodeId) : (d.attachChild p id s kind).2.relationsFrom x =
      d.relationsFrom x ++ if id = x then [childLink id s d] else [] := by
  rw [attachChild_eq]
  simp only [relationsFrom, relationLinks, attach, childLink, List.filter_append]
  congr 1
  split <;> simp [*]

/-! ### New children -/

variable {kind : NodeKind}

theorem WellFormed.node?_child (h : d.WellFormed) (hid : d.IsQueryNode id) (p : Provider)
    (s : Segment) (hk : kind = .choose ∨ kind = .group) :
    (d.attachChild p id s kind).2.node? ⟨d.nextNode⟩ = some (childNode p id s kind d) :=
  (h.attachChild p s hk hid).node?_eq_some.2
    ⟨List.mem_append_right _ (List.mem_singleton.2 rfl), rfl⟩

theorem Linked.relationsFrom_child (h : d.Linked) (hid : id.number < d.nextNode) (p : Provider)
    (s : Segment) (kind : NodeKind) :
    (d.attachChild p id s kind).2.relationsFrom ⟨d.nextNode⟩ = [] := by
  rw [relationsFrom_attachChild, h.relationsFrom_eq_nil (Nat.le_refl _), if_neg, List.nil_append]
  rintro rfl
  exact Nat.lt_irrefl _ hid

theorem Numbered.nodes_fill_child (h : d.Numbered) (p : Provider) (id : NodeId) (s : Segment)
    (kind : NodeKind) (t : Schema) :
    ((d.attachChild p id s kind).2.fill ⟨d.nextNode⟩ t).nodes =
      d.nodes ++ [(d.attachChild p id s kind).2.filled t (childNode p id s kind d)] := by
  refine nodes_fill_append (n := childNode p id s kind d) (fun m hm he => ?_) rfl t
  have := h.bounded m hm
  rw [he] at this
  exact Nat.lt_irrefl _ this

/-- The node at the other end of a relation, with what its schema leads to, is what a single
relation adds. -/
theorem WellFormed.grown_child (h : d.WellFormed) (hid : d.IsQueryNode id) (p : Provider)
    (r : SchemaRelation Schema) (hgrown :
      ((d.attachChild p id (Schema.segmentOf r) (childKind r.target)).2.fill ⟨d.nextNode⟩
        r.target).Grown d' ⟨d.nextNode⟩ r.target.relations new) :
    ∃ n, d.Grown d' id [r] (n :: new) := by
  let s := Schema.segmentOf r
  let kind := childKind r.target
  let n := childNode p id s kind d
  let d₁ := (d.attachChild p id s kind).2
  have hlt := h.number_lt_of_isQueryNode hid
  have hd₁ : d₁.WellFormed := h.attachChild p s (childKind_cases r.target) hid
  have hn : d₁.node? ⟨d.nextNode⟩ = some n := h.node?_child hid p s (childKind_cases r.target)
  have hlies : r.target.LiesAt d' ⟨d.nextNode⟩ := by
    have hlies := hgrown.liesAt hn hd₁.toNumbered rfl (h.relationsFrom_child hlt p s kind)
    rwa [show (n.kind == .group) = r.target.isGroup from childKind_beq_group r.target,
      Schema.withGroup_isGroup] at hlies
  have hnext : d.nextNode < (d₁.fill ⟨d.nextNode⟩ r.target).nextNode :=
    Nat.lt_of_lt_of_le (Nat.lt_succ_self _) (Nat.le_add_right _ _)
  have hrelations {x : NodeId} (hx : x.number < d.nextNode) : d'.relationsFrom x =
      d.relationsFrom x ++ if id = x then [childLink id s d] else [] := by
    refine Eq.trans ?_ (relationsFrom_attachChild p id s kind d x)
    refine hgrown.elsewhere x ?_ (Nat.lt_trans hx hnext)
    rintro rfl
    exact Nat.lt_irrefl _ hx
  refine ⟨d₁.filled r.target n, ?_⟩
  exact {
    wellFormed := hgrown.wellFormed
    nextNode := Nat.le_trans (Nat.le_of_lt hnext) hgrown.nextNode
    nodes := by
      rw [hgrown.nodes, h.nodes_fill_child, List.append_assoc, List.singleton_append]
    numbers := List.forall_mem_cons.2 ⟨Nat.le_refl _, fun m hm =>
      Nat.le_trans (Nat.le_of_lt hnext) (hgrown.numbers m hm)⟩
    made := by
      rw [Schema.preorderAll, Schema.preorderAll, List.append_nil, Schema.preorder_eq]
      exact .cons ⟨rfl, hlies⟩ hgrown.made
    elsewhere := fun x hx hxlt => by
      rw [hrelations hxlt, if_neg (Ne.symm hx), List.append_nil]
    links := by
      refine ⟨[childLink id s d], ?_, childLink id s d, [], rfl, rfl, ?_, hlies, rfl⟩
      · rw [hrelations hlt, if_pos rfl]
      · exact ⟨d₁.filled r.target n, (hgrown.node?_eq hnext).trans (node?_fill hn r.target), rfl⟩ }

mutual

/-- What a schema adds at a node besides what it fills in there. By recursion on the schema: every
relation adds a child, at which its schema is placed before the next relation has its turn. -/
theorem WellFormed.grown_applySchema (p : Provider) : ∀ (s : Schema) {d : Diagram} {id : NodeId},
    d.WellFormed → d.IsQueryNode id →
    ∃ new, (d.fill id s).Grown (applySchema p id s d) id s.relations new
  | .node label rows relations group, d, id, h, hid => by
    rw [applySchema_eq]
    exact WellFormed.grown_applyRelations p relations (h.fill hid _) (hid.fill id _)

theorem WellFormed.grown_applyRelations (p : Provider) :
    ∀ (relations : List (SchemaRelation Schema)) {d : Diagram} {id : NodeId},
    d.WellFormed → d.IsQueryNode id →
    ∃ new, d.Grown (applyRelations p id relations d) id relations new
  | [], d, id, h, hid => ⟨[], .nil h id⟩
  | ⟨label, target, isReverse⟩ :: rest, d, id, h, hid => by
    let s := Schema.segmentOf ⟨label, target, isReverse⟩
    have hkind := childKind_cases target
    have hchild : (d.attachChild p id s (childKind target)).2.IsQueryNode ⟨d.nextNode⟩ :=
      isQueryNode_attachChild p s hkind d
    obtain ⟨new, htarget⟩ :=
      WellFormed.grown_applySchema p target (h.attachChild p s hkind hid) hchild
    obtain ⟨n, hfirst⟩ := h.grown_child hid p ⟨label, target, isReverse⟩ htarget
    obtain ⟨more, hrest⟩ :=
      WellFormed.grown_applyRelations p rest hfirst.wellFormed (hfirst.isQueryNode hid)
    exact ⟨_, hfirst.append hrest (h.number_lt_of_isQueryNode hid)⟩

end

/-! ## Reading schemas back -/

/-- A schema is read back off a lone root where it is placed. At each node what it was made for is
read. -/
theorem WellFormed.read_applySchema (h : d.WellFormed) (hnodes : d.nodes = [n])
    (hkind : n.kind = .root) (hlabel : n.label = s.label) (hnone : d.relationsFrom n.id = [])
    (p : Provider) :
    (applySchema p n.id s d).readSchema n.id = some (s.withGroup false) ∧
      (applySchema p n.id s d).nodes.map
          (fun m => (m.kind, (applySchema p n.id s d).readSchema m.id)) =
        (.root, some (s.withGroup false)) :: s.descendants.map fun t => (childKind t, some t) := by
  have hmem : n ∈ d.nodes := by
    rw [hnodes]
    exact List.mem_singleton.2 rfl
  have hn := h.node?_of_mem hmem
  obtain ⟨new, hgrown⟩ := h.grown_applySchema p s (isQueryNode_of_node? hn (by simp [hkind]))
  have hlies := hgrown.liesAt hn h.toNumbered hlabel hnone
  rw [show (n.kind == .group) = false by rw [hkind]; rfl] at hlies
  generalize applySchema p n.id s d = d' at hgrown hlies
  have hread {t : Schema} {x : NodeId} (ht : t.LiesAt d' x) : d'.readSchema x = some t :=
    ht.readWithin_eq hgrown.wellFormed.toNumbered (Nat.le_add_right _ _)
  refine ⟨hread hlies, ?_⟩
  have hfilled : (d.fill n.id s).nodes = [d.filled s n] :=
    nodes_fill_append (fun m (hm : m ∈ []) => nomatch hm) hnodes s
  rw [hgrown.nodes, hfilled, List.singleton_append, List.map_cons]
  congr 1
  · exact Prod.ext hkind (hread hlies)
  · rw [← List.forall₂_eq_eq_eq, List.forall₂_map_left_iff, List.forall₂_map_right_iff]
    exact hgrown.made.imp fun m t ⟨hkind, ht⟩ => Prod.ext hkind (hread ht)

/-- A new root is alone, and nothing is selected on it. -/
theorem exists_addRoot_clear (p : Provider) (label : String) (anchor : Option Position)
    (d : Diagram) : ∃ n, (d.clear.addRoot p label anchor).2.nodes = [n] ∧ n.id = ⟨d.nextNode⟩ ∧
      n.kind = .root ∧ n.label = label ∧ n.selected = [] :=
  ⟨_, rfl, rfl, rfl, rfl, rfl⟩

/-- A schema is read back off the diagram that it makes, but for a group in front, which a root
cannot be. The nodes are those of the schema, in pre-order. -/
theorem ReachableBy.readSchema_addSchema {q : Provider} {admits : Operation → Diagram → Prop}
    (h : d.ReachableBy q admits) (p : Provider) (s : Schema) (anchor : Option Position) :
    (d.addSchema p s anchor).2.readSchema (d.addSchema p s anchor).1 = some (s.withGroup false) ∧
      (d.addSchema p s anchor).2.nodes.map
          (fun n => (n.kind, (d.addSchema p s anchor).2.readSchema n.id)) =
        (.root, some (s.withGroup false)) :: s.descendants.map fun t => (childKind t, some t) := by
  have hroot := (WellFormed.clear d).addRoot p s.label anchor
  obtain ⟨n, hnodes, hid, hkind, hlabel, -⟩ := exists_addRoot_clear p s.label anchor d
  have hread := hroot.read_applySchema hnodes hkind hlabel rfl p
  rw [hid] at hread
  rw [addSchema, h.addRoot_clear p s.label anchor]
  exact hread

end Diagram

end PatternQuery
