import PatternQuery.Proofs.Statement.Statements

/-!
# What a statement is made of

A statement is made of contributions (`Contribution`): the predefined constraints of a node, the
values selected on it, a relation that is matched, or one that stands in `NOT` clauses. Which ones
go in, and in which order, is said by `Diagram.contributions`, without any text, and the clauses of
relations are the clauses of their contributions (`Diagram.Shape.generateElements_eq`).
-/

namespace PatternQuery

/-- The attribute by which values constrain a node. -/
def Provider.attribute (q : Provider) (n : Node) : Attribute :=
  (q.properties n.label).constraintAttribute

/-- A relation with the nodes that it joins. -/
structure Hop where
  source : Node
  link : Link
  target : Node
  deriving DecidableEq

namespace Hop

def arrow (settings : QuerySettings) (x : Hop) : String :=
  if settings.useDirection && !x.target.isReversed then "->" else "-"

/-- The pattern of the relation under an identifier. -/
def pattern (settings : QuerySettings) (x : Hop) (identifier : String) : String :=
  x.source.pattern ++ "-[" ++ identifier ++ ":`" ++ x.link.label ++ "`]" ++ x.arrow settings
    ++ x.target.pattern

/-- The relation without its target, as `NOT` clauses have it. -/
def outset (settings : QuerySettings) (x : Hop) : String :=
  "(" ++ x.source.var ++ ")-[:`" ++ x.link.label ++ "`]" ++ x.arrow settings

/-- The `NOT` clause that excludes every target. -/
def bareNegation (settings : QuerySettings) (x : Hop) : String :=
  "NOT " ++ x.outset settings ++ "(:`" ++ x.target.label ++ "`)"

/-- The parameter of the `NOT` clause for a selected value of the target. -/
def valueParameter (q : Provider) (x : Hop) (index : Nat) : String :=
  Node.valueParameterName (x.target.parameterName (q.attribute x.target)) index

/-- The `NOT` clause that excludes a selected value of the target. -/
def valueNegation (q : Provider) (settings : QuerySettings) (x : Hop) (index : Nat) : String :=
  ElementsDraft.negatedValue (x.outset settings) x.target (q.attribute x.target)
    (x.valueParameter q index)

/-- The `NOT` clauses of the relation: one for each selected value of its target, or one in all. -/
def negations (q : Provider) (settings : QuerySettings) (x : Hop) : List String :=
  if x.target.hasValue then x.target.selected.mapIdx fun i _ => x.valueNegation q settings i
  else [x.bareNegation settings]

end Hop

/-- What goes into a statement as a whole or not at all. -/
inductive Contribution where
  /-- The predefined constraints of a node. -/
  | standing (n : Node)
  /-- The values selected on a node: their condition, unless it is negated, and its parameters. -/
  | selection (n : Node)
  /-- A relation that is matched. -/
  | relation (x : Hop)
  /-- The `NOT` clauses of a relation. -/
  | negation (x : Hop)
  deriving DecidableEq

namespace Contribution

def conditions (q : Provider) (settings : QuerySettings) : Contribution → List String
  | standing n => n.predefinedConstraints q
  | selection n => (n.valueConstraints (q.attribute n)).1.toList
  | relation _ => []
  | negation x => x.negations q settings

def parameters (q : Provider) : Contribution → Parameters
  | standing _ | relation _ => Table.empty
  | selection n => (n.valueConstraints (q.attribute n)).2
  | negation x =>
    if x.target.hasValue then x.target.negatedParameters (q.attribute x.target) else Table.empty

/-- The relation that is matched. -/
def matched? : Contribution → Option Hop
  | relation x => some x
  | _ => none

/-- The relations that are matched, in order. -/
def matched (cs : List Contribution) : List Hop := cs.filterMap matched?

/-- The parameters of all contributions, of which a later one wins. -/
def allParameters (q : Provider) (cs : List Contribution) : Parameters :=
  cs.foldl (fun t c => t.merge (c.parameters q)) Table.empty

end Contribution

/-- The clauses that contributions amount to. -/
def QueryElements.ofContributions (q : Provider) (settings : QuerySettings)
    (cs : List Contribution) : QueryElements where
  patterns := (Contribution.matched cs).mapIdx fun i x => x.pattern settings ("r" ++ toString i)
  conditions := cs.flatMap (Contribution.conditions q settings)
  relations := (Contribution.matched cs).mapIdx fun i _ => "r" ++ toString i
  parameters := Contribution.allParameters q cs

/-- The clauses with the pattern of the root where there is no other. -/
def QueryElements.orRoot (e : QueryElements) (root : Node) : QueryElements :=
  if e.patterns.isEmpty then { e with patterns := [root.pattern] } else e

namespace QueryElements

theorem orRoot_patterns (q : Provider) (settings : QuerySettings) (cs : List Contribution)
    (root : Node) : ((ofContributions q settings cs).orRoot root).patterns =
      if Contribution.matched cs = [] then [root.pattern]
      else (Contribution.matched cs).mapIdx fun i x => x.pattern settings ("r" ++ toString i) := by
  unfold orRoot ofContributions
  cases h : Contribution.matched cs <;> simp

@[simp]
theorem orRoot_conditions (e : QueryElements) (root : Node) :
    (e.orRoot root).conditions = e.conditions := by
  unfold orRoot
  split <;> rfl

@[simp]
theorem orRoot_parameters (e : QueryElements) (root : Node) :
    (e.orRoot root).parameters = e.parameters := by
  unfold orRoot
  split <;> rfl

end QueryElements

/-! ## The contributions of relations -/

namespace Diagram

/-- A relation with its ends, if they are there. -/
def hop? (d : Diagram) (l : Link) : Option Hop :=
  match d.node? l.source, d.node? l.target with
  | some source, some target => some ⟨source, l, target⟩
  | _, _ => none

theorem hop?_eq_some {d : Diagram} {l : Link} {x : Hop} : d.hop? l = some x ↔
    x.link = l ∧ d.node? l.source = some x.source ∧ d.node? l.target = some x.target := by
  unfold hop?
  split
  · rename_i s t hs ht
    rw [hs, ht, Option.some.injEq, Option.some.injEq, Option.some.injEq]
    constructor
    · rintro rfl
      exact ⟨rfl, rfl, rfl⟩
    · rintro ⟨rfl, rfl, rfl⟩
      rfl
  · rename_i hnone
    refine iff_of_false (by simp) ?_
    rintro ⟨-, hs, ht⟩
    exact hnone _ _ hs ht

/-- The relations with their ends. -/
def hops (d : Diagram) (links : List Link) : List Hop := links.filterMap d.hop?

/-- Both ends of a relation are there. -/
theorem Shape.exists_hop? {d : Diagram} (h : d.Shape) {l : Link} (hl : l ∈ d.relationLinks) :
    ∃ x, d.hop? l = some x := by
  obtain ⟨s, hs, -⟩ := h.isQueryNode_iff.1 (h.isQueryNode_source hl)
  obtain ⟨t, ht, -⟩ := h.isQueryNode_iff.1 (h.isQueryNode_target hl)
  exact ⟨⟨s, l, t⟩, hop?_eq_some.2 ⟨rfl, hs, ht⟩⟩

/-- The target of a relation is negated and need not be matched. -/
def excludes (d : Diagram) (target : NodeId) (x : Hop) : Bool :=
  x.target.negative && d.negationApplies x.target.id target

/-- The values of a node constrain a statement if they are needed or can never change, unless the
node is the one asked about. -/
def selectionOf (target : NodeId) (needed : Bool) (n : Node) : List Contribution :=
  if n.id == target || !(needed || n.immutable) then [] else [.selection n]

/-- What a relation contributes to a statement about `target`. -/
def contributionsOf (d : Diagram) (target : NodeId) (needed : Bool) (x : Hop) :
    List Contribution :=
  .standing x.source ::
    (if d.excludes target x then [.negation x] else [.relation x, .standing x.target])
      ++ selectionOf target needed x.target

/-- What the root and relations contribute to a statement about `target`, each contribution at its
first place. -/
def contributions (d : Diagram) (target : NodeId) (needed : Bool) (links : List Link) :
    List Contribution :=
  match d.root? with
  | none => []
  | some root =>
    ((.standing root :: selectionOf target needed root)
      ++ (d.hops links).flatMap (d.contributionsOf target needed)).eraseDups

end Diagram

/-! ## Drafts -/

theorem eraseDups_concat {α : Type} [DecidableEq α] (l : List α) (a : α) :
    (l ++ [a]).eraseDups = if a ∈ l then l.eraseDups else l.eraseDups ++ [a] := by
  rw [List.eraseDups_append]
  by_cases h : a ∈ l
  · simp [List.removeAll, h]
  · simp [List.removeAll, h, List.eraseDups_cons]

namespace Contribution

theorem matched_concat (cs : List Contribution) (c : Contribution) :
    matched (cs ++ [c]) = matched cs ++ c.matched?.toList := by
  rw [matched, List.filterMap_append]
  cases h : c.matched? <;> simp [matched, h]

theorem allParameters_concat (q : Provider) (cs : List Contribution) (c : Contribution) :
    allParameters q (cs ++ [c]) = (allParameters q cs).merge (c.parameters q) := by
  rw [allParameters, List.foldl_append]
  rfl

/-- The node whose predefined constraints are contributed. -/
def standing? : Contribution → Option NodeId
  | standing n => some n.id
  | _ => none

/-- The node whose values are contributed. -/
def selection? : Contribution → Option NodeId
  | selection n => some n.id
  | _ => none

theorem standing?_eq_some {c : Contribution} {id : NodeId} :
    c.standing? = some id ↔ ∃ m, c = standing m ∧ m.id = id := by
  cases c <;> simp [standing?]

theorem selection?_eq_some {c : Contribution} {id : NodeId} :
    c.selection? = some id ↔ ∃ m, c = selection m ∧ m.id = id := by
  cases c <;> simp [selection?]

/-- The nodes that contribute constraints are nodes of a diagram. -/
def About (d : Diagram) (cs : List Contribution) : Prop :=
  ∀ n, standing n ∈ cs ∨ selection n ∈ cs → n ∈ d.nodes

theorem About.append {d : Diagram} {cs cs' : List Contribution} (h : About d cs)
    (h' : About d cs') : About d (cs ++ cs') := by
  intro n hn
  simp only [List.mem_append] at hn
  rcases hn with (hn | hn) | (hn | hn)
  · exact h n (.inl hn)
  · exact h' n (.inl hn)
  · exact h n (.inr hn)
  · exact h' n (.inr hn)

end Contribution

namespace ElementsDraft

open Contribution

variable {q : Provider} {settings : QuerySettings} {d : Diagram} {target : NodeId} {needed : Bool}
  {cs : List Contribution} {n : Node} {x : Hop}

/-- The draft that contributions amount to. -/
def ofContributions (q : Provider) (settings : QuerySettings) (cs : List Contribution) :
    ElementsDraft where
  elements := .ofContributions q settings cs
  predefinedDone := (cs.filterMap standing?).reverse
  valuesDone := (cs.filterMap selection?).reverse

theorem ofContributions_concat (cs : List Contribution) (c : Contribution) :
    ofContributions q settings (cs ++ [c]) =
      let b := ofContributions q settings cs
      { elements := {
          patterns := b.elements.patterns ++ c.matched?.toList.map fun x =>
            x.pattern settings ("r" ++ toString b.elements.relations.length)
          conditions := b.elements.conditions ++ c.conditions q settings
          relations := b.elements.relations ++ c.matched?.toList.map fun _ =>
            "r" ++ toString b.elements.relations.length
          parameters := b.elements.parameters.merge (c.parameters q) }
        predefinedDone := c.standing?.toList ++ b.predefinedDone
        valuesDone := c.selection?.toList ++ b.valuesDone } := by
  simp only [ofContributions, QueryElements.ofContributions, matched_concat, allParameters_concat]
  cases c <;> simp [matched?, standing?, selection?]

/-! ### Additions to a draft -/

/-- A node is in the list of those that are done if its contribution went in. -/
theorem contains_done {f : Contribution → Option NodeId} {g : Node → Contribution}
    (hf : ∀ c id, f c = some id ↔ ∃ m, c = g m ∧ m.id = id) (hd : d.Numbered)
    (hcs : ∀ m, g m ∈ cs → m ∈ d.nodes) (hn : n ∈ d.nodes) :
    (cs.eraseDups.filterMap f).reverse.contains n.id = true ↔ g n ∈ cs := by
  simp only [List.contains_iff_mem, List.mem_reverse, List.mem_filterMap, List.mem_eraseDups, hf]
  constructor
  · rintro ⟨c, hc, m, rfl, e⟩
    rwa [← hd.eq_of_id_eq (hcs m hc) hn e]
  · exact fun h => ⟨_, h, n, rfl, rfl⟩

theorem addPredefined_ofContributions (hd : d.Numbered) (hcs : About d cs) (hn : n ∈ d.nodes) :
    (ofContributions q settings cs.eraseDups).addPredefined q n =
      ofContributions q settings (cs ++ [standing n]).eraseDups := by
  have hdone : (ofContributions q settings cs.eraseDups).predefinedDone.contains n.id = true ↔
      standing n ∈ cs :=
    contains_done (fun _ _ => standing?_eq_some) hd (fun m hm => hcs m (.inl hm)) hn
  rw [eraseDups_concat, addPredefined]
  by_cases h : standing n ∈ cs
  · rw [if_pos (hdone.2 h), if_pos h]
  · rw [if_neg (mt hdone.1 h), if_neg h, ofContributions_concat]
    simp only [matched?, standing?, selection?, conditions, parameters, Option.toList,
      List.map_nil, List.append_nil, List.nil_append, List.cons_append]
    rfl

theorem addValueConstraints_ofContributions (hd : d.Numbered) (hcs : About d cs)
    (hn : n ∈ d.nodes) :
    (ofContributions q settings cs.eraseDups).addValueConstraints q target needed n =
      ofContributions q settings (cs ++ Diagram.selectionOf target needed n).eraseDups := by
  have hdone : (ofContributions q settings cs.eraseDups).valuesDone.contains n.id = true ↔
      selection n ∈ cs :=
    contains_done (fun _ _ => selection?_eq_some) hd (fun m hm => hcs m (.inr hm)) hn
  rw [addValueConstraints, Diagram.selectionOf]
  by_cases hskip : (n.id == target || !(needed || n.immutable)) = true
  · rw [if_pos (by rw [hskip, Bool.true_or]), if_pos hskip, List.append_nil]
  · rw [if_neg hskip, eraseDups_concat]
    by_cases h : selection n ∈ cs
    · rw [if_pos (by rw [hdone.2 h, Bool.or_true]), if_pos h]
    · rw [if_neg (by simp_all), if_neg h, ofContributions_concat]
      simp only [matched?, standing?, selection?, conditions, parameters, Option.toList,
        List.map_nil, List.append_nil, List.nil_append, List.cons_append]
      rfl

theorem addRelation_ofContributions (h : relation x ∉ cs) :
    (ofContributions q settings cs.eraseDups).addRelation x.source x.link x.target
        (x.arrow settings) =
      ofContributions q settings (cs ++ [relation x]).eraseDups := by
  rw [eraseDups_concat, if_neg h, ofContributions_concat]
  simp only [matched?, standing?, selection?, conditions, parameters, Option.toList,
    List.map_nil, List.map_cons, List.append_nil, List.nil_append]
  rfl

theorem addNegation_ofContributions (h : negation x ∉ cs) :
    (ofContributions q settings cs.eraseDups).addNegation q x.source x.link x.target
        (x.arrow settings) =
      ofContributions q settings (cs ++ [negation x]).eraseDups := by
  rw [eraseDups_concat, if_neg h, ofContributions_concat, addNegation]
  simp only [matched?, standing?, selection?, conditions, parameters, Option.toList,
    List.map_nil, List.append_nil, List.nil_append, Hop.negations]
  cases x.target.hasValue <;> rfl

end ElementsDraft

/-! ## Elements -/

namespace Contribution

variable {q : Provider} {settings : QuerySettings} {d : Diagram} {target : NodeId} {needed : Bool}
  {cs : List Contribution} {n : Node} {x : Hop}

theorem about_standing (hn : n ∈ d.nodes) : About d [standing n] := by
  intro m hm
  simp only [List.mem_singleton, standing.injEq, reduceCtorEq, or_false] at hm
  exact hm ▸ hn

theorem about_hop {c : Contribution} (hc : c = relation x ∨ c = negation x) : About d [c] := by
  intro m hm
  rcases hc with rfl | rfl <;> simp at hm

theorem about_selectionOf (hn : n ∈ d.nodes) :
    About d (Diagram.selectionOf target needed n) := by
  intro m hm
  unfold Diagram.selectionOf at hm
  split at hm
  · simp at hm
  · simp only [List.mem_singleton, reduceCtorEq, selection.injEq, false_or] at hm
    exact hm ▸ hn

theorem about_contributionsOf (hs : x.source ∈ d.nodes) (ht : x.target ∈ d.nodes) :
    About d (d.contributionsOf target needed x) := by
  have hmiddle : About d (if d.excludes target x then [negation x]
      else [relation x, standing x.target]) := by
    split
    · exact about_hop (.inr rfl)
    · exact (about_hop (.inl rfl)).append (about_standing ht)
  exact ((about_standing hs).append hmiddle).append (about_selectionOf ht)

/-- A relation contributes no other relation. -/
theorem eq_of_mem_contributionsOf {y : Hop}
    (h : relation y ∈ d.contributionsOf target needed x ∨
      negation y ∈ d.contributionsOf target needed x) : y = x := by
  simp only [Diagram.contributionsOf, Diagram.selectionOf, List.cons_append, List.mem_cons,
    List.mem_append, reduceCtorEq, false_or] at h
  split at h <;> split at h <;> simpa using h

end Contribution

namespace Diagram

open Contribution ElementsDraft

variable {q : Provider} {settings : QuerySettings} {d : Diagram} {target : NodeId} {needed : Bool}
  {cs : List Contribution} {links : List Link} {r : Node} {x : Hop}

theorem Numbered.addEnds_ofContributions (hd : d.Numbered) (hcs : About d cs)
    (hs : x.source ∈ d.nodes) (ht : x.target ∈ d.nodes)
    (hnew : relation x ∉ cs ∧ negation x ∉ cs) :
    (ofContributions q settings cs.eraseDups).addEnds q settings target needed
        (d.negationApplies x.target.id target) x.link x.source x.target =
      ofContributions q settings (cs ++ d.contributionsOf target needed x).eraseDups := by
  have hsource := hcs.append (about_standing hs)
  unfold addEnds contributionsOf
  rw [addPredefined_ofContributions hd hcs hs]
  dsimp only
  cases he : d.excludes target x with
  | false =>
    have hrel : relation x ∉ cs ++ [standing x.source] := by simp [hnew.1]
    have hw := hsource.append (about_hop (x := x) (.inl rfl))
    rw [if_neg (by simpa [excludes] using he)]
    change addValueConstraints q target needed x.target (addPredefined q x.target
      (addRelation x.source x.link x.target (x.arrow settings) _)) = _
    rw [addRelation_ofContributions hrel, addPredefined_ofContributions hd hw ht,
      addValueConstraints_ofContributions hd (hw.append (about_standing ht)) ht]
    simp
  | true =>
    have hneg : negation x ∉ cs ++ [standing x.source] := by simp [hnew.2]
    have hw := hsource.append (about_hop (x := x) (.inr rfl))
    rw [if_pos (by simpa [excludes] using he)]
    change addValueConstraints q target needed x.target
      (addNegation q x.source x.link x.target (x.arrow settings) _) = _
    rw [addNegation_ofContributions hneg, addValueConstraints_ofContributions hd hw ht]
    simp

theorem Shape.addLinks_ofContributions (h : d.Shape) (hlinks : ∀ l ∈ links, l ∈ d.relationLinks)
    (hnodup : links.Nodup) (hcs : About d cs)
    (hnew : ∀ y : Hop, y.link ∈ links → relation y ∉ cs ∧ negation y ∉ cs) :
    links.foldlM (ElementsDraft.addLink d q settings target needed)
        (ofContributions q settings cs.eraseDups) =
      .ok (ofContributions q settings
        (cs ++ (d.hops links).flatMap (d.contributionsOf target needed)).eraseDups) := by
  induction links generalizing cs with
  | nil => simp [hops, pure, Except.pure]
  | cons l links ih =>
    obtain ⟨x, hx⟩ := h.exists_hop? (hlinks l (by simp))
    obtain ⟨rfl, hs, ht⟩ := hop?_eq_some.1 hx
    have hxs := mem_of_node? hs
    have hxt := mem_of_node? ht
    obtain ⟨hfirst, hrest⟩ := List.nodup_cons.1 hnodup
    rw [List.foldlM_cons, addLink_eq hs ht, ← id_of_node? ht,
      h.addEnds_ofContributions hcs hxs hxt (hnew x (by simp)), hops, List.filterMap_cons_some hx,
      List.flatMap_cons, ← List.append_assoc]
    refine ih (fun k hk => hlinks k (by simp [hk])) hrest
      (hcs.append (about_contributionsOf hxs hxt)) fun y hy => ?_
    have hne : y ≠ x := by
      rintro rfl
      exact hfirst hy
    obtain ⟨hr, hn⟩ := hnew y (by simp [hy])
    simp only [List.mem_append, not_or]
    exact ⟨⟨hr, fun hm => hne (eq_of_mem_contributionsOf (.inl hm))⟩, hn,
      fun hm => hne (eq_of_mem_contributionsOf (.inr hm))⟩

/-- The clauses of relations are those of what they contribute. -/
theorem Shape.generateElements_eq (h : d.Shape) (hr : d.root? = some r)
    (hlinks : ∀ l ∈ links, l ∈ d.relationLinks) (hnodup : links.Nodup) :
    generateElements d q settings target links needed =
      .ok ((QueryElements.ofContributions q settings
        (d.contributions target needed links)).orRoot r) := by
  have hroot : r ∈ d.nodes := by
    rw [h.root?_eq_head?] at hr
    exact List.mem_of_head? hr
  have hempty : About d ([] : List Contribution) := by simp [About]
  have hstart : (ElementsDraft.addPredefined q r {}).addValueConstraints q target needed r =
      ofContributions q settings ([standing r] ++ selectionOf target needed r).eraseDups := by
    rw [← addValueConstraints_ofContributions h.toNumbered (about_standing hroot) hroot]
    exact congrArg _ (addPredefined_ofContributions h.toNumbered hempty hroot)
  have hnew (y : Hop) : relation y ∉ [standing r] ++ selectionOf target needed r ∧
      negation y ∉ [standing r] ++ selectionOf target needed r := by
    unfold selectionOf
    split <;> simp
  have habout : About d ([standing r] ++ selectionOf target needed r) :=
    (about_standing hroot).append (about_selectionOf hroot)
  unfold generateElements contributions
  simp only [hr, hstart, h.addLinks_ofContributions hlinks hnodup habout fun y _ => hnew y]
  rfl

end Diagram

end PatternQuery
