import Mathlib.Algebra.Group.Nat.Defs
import PatternQuery.Proofs.Diagram.Allotment
import PatternQuery.Proofs.Diagram.Resets
import PatternQuery.Proofs.Diagram.Unselecting

/-!
# What operations make

An operation drops some nodes and links first (`Operation.before`), and what it makes comes behind
those that are left (`Operation.made`, `Operation.madeLinks`), under numbers that were not given out
before (`Diagram.ReachableBy.makes`). So all that is ever made has numbers of its own
(`Diagram.ReachableBy.once_runAll`), and what is found under a number has been there since that
number was given out (`Diagram.Continues.origin_of_node?`).
-/

namespace PatternQuery

open Diagram

namespace Operation

/-- What is left of a diagram when the operation begins to make nodes and links. Operations that
make none leave what they give back. -/
def before (p : Provider) (o : Operation) (d : Diagram) : Diagram :=
  match o with
  | addRoot _ _ | addSchema _ _ => o.start d
  | expandRelationship _ _ => d
  | expandValues id => (d.collapseValues id).2
  | nextPage id =>
    if d.hasNextPage id then
      ((d.modify id fun n => { n with page := n.page + 1 }).collapseValues id).2
    else d
  | previousPage id =>
    if d.hasPreviousPage id then
      ((d.modify id fun n => { n with page := n.page - 1 }).collapseValues id).2
    else d
  | o => (o.run p d).2

/-- The nodes that an operation makes. -/
def made (p : Provider) (o : Operation) (d : Diagram) : List Node :=
  (o.run p d).2.nodes.drop (o.before p d).nodes.length

/-- The links that an operation makes. -/
def madeLinks (p : Provider) (o : Operation) (d : Diagram) : List Link :=
  (o.run p d).2.links.drop (o.before p d).links.length

/-- All nodes that operations make in turn, those too that are gone in the end. -/
def allMade (p : Provider) : List Operation → Diagram → List Node
  | [], _ => []
  | o :: rest, d => o.made p d ++ allMade p rest (o.run p d).2

def allMadeLinks (p : Provider) : List Operation → Diagram → List Link
  | [], _ => []
  | o :: rest, d => o.madeLinks p d ++ allMadeLinks p rest (o.run p d).2

/-- An operation has nothing but what is left of a diagram and what it makes, and it makes it under
numbers that were not given out before. -/
structure Makes (p : Provider) (o : Operation) (d : Diagram) : Prop where
  sheds : d.Sheds (o.before p d)
  origins : (o.run p d).2.nodes.map Node.origin =
    (o.before p d).nodes.map Node.origin ++ (o.made p d).map Node.origin
  links : (o.run p d).2.links = (o.before p d).links ++ o.madeLinks p d
  since : ∀ n ∈ o.made p d, ∀ x ∈ n.numbers, d.nextNode ≤ x.number
  linksSince : ∀ l ∈ o.madeLinks p d, d.nextLink ≤ l.id.number
  nextNode : d.nextNode ≤ (o.run p d).2.nextNode
  nextLink : d.nextLink ≤ (o.run p d).2.nextLink

end Operation

namespace Diagram

variable {p : Provider} {d d' e : Diagram} {id : NodeId} {n : Node}
  {admits : Operation → Diagram → Prop}

/-! ## What comes behind -/

/-- `d'` has new nodes and new links behind those of `d`, which may have been changed but for what
they were made with. -/
structure Grows (d d' : Diagram) : Prop where
  origins : d.nodes.map Node.origin <+: d'.nodes.map Node.origin
  links : d.links <+: d'.links
  since : ∀ n ∈ d'.nodes.drop d.nodes.length, ∀ x ∈ n.numbers, d.nextNode ≤ x.number
  linksSince : ∀ l ∈ d'.links.drop d.links.length, d.nextLink ≤ l.id.number
  nextNode : d.nextNode ≤ d'.nextNode
  nextLink : d.nextLink ≤ d'.nextLink

theorem Grows.refl (d : Diagram) : d.Grows d := by
  refine ⟨List.prefix_rfl, List.prefix_rfl, ?_, ?_, Nat.le_refl _, Nat.le_refl _⟩
  · simp
  · simp

theorem grows_of_append {new : List Node} {links : List Link} (hnodes : d'.nodes = d.nodes ++ new)
    (hlinks : d'.links = d.links ++ links)
    (hsince : ∀ n ∈ new, ∀ x ∈ n.numbers, d.nextNode ≤ x.number)
    (hlinksSince : ∀ l ∈ links, d.nextLink ≤ l.id.number) (hnode : d.nextNode ≤ d'.nextNode)
    (hlink : d.nextLink ≤ d'.nextLink) : d.Grows d' := by
  refine ⟨?_, ?_, ?_, ?_, hnode, hlink⟩
  · rw [hnodes, List.map_append]
    exact List.prefix_append _ _
  · rw [hlinks]
    exact List.prefix_append _ _
  · rwa [hnodes, List.drop_left]
  · rwa [hlinks, List.drop_left]

/-- Where there was nothing, all is new. -/
theorem Allots.grows (h : d'.Allots d.nextNode d.nextLink) (hn : d.nodes = []) (hl : d.links = []) :
    d.Grows d' := by
  have hnodes : d'.nodes = d.nodes ++ d'.nodes := by simp [hn]
  have hlinks : d'.links = d.links ++ d'.links := by simp [hl]
  exact grows_of_append hnodes hlinks (fun _ hn _ hx => h.since _ (mem_numbers_of_mem hn hx))
    h.linksSince h.nextNode h.nextLink

theorem Grows.modify (h : d.Grows d') {f : Node → Node} (ho : ∀ n, (f n).origin = n.origin)
    (hs : ∀ n : Node, (f n).selected = n.selected) : d.Grows (d'.modify id f) := by
  refine ⟨by rw [origins_modify ho]; exact h.origins, h.links, fun n' hn' x hx => ?_, h.linksSince,
    h.nextNode, h.nextLink⟩
  rw [Diagram.modify, ← List.map_drop] at hn'
  obtain ⟨n, hn, rfl⟩ := List.mem_map.1 hn'
  refine h.since n hn x ?_
  split at hx
  · rwa [Node.numbers, Node.id_of_origin (ho n), hs] at hx
  · exact hx

theorem Grows.setPinned (h : d.Grows d') (parent : Option NodeId) (fixed : Bool) :
    d.Grows (d'.setPinned parent fixed) := by
  cases parent with
  | none => exact h
  | some x =>
    refine h.modify (fun n => ?_) fun n => ?_
    · split <;> rfl
    · split <;> rfl

theorem grows_attachChild (p : Provider) (id : NodeId) (s : Segment) (kind : NodeKind)
    (d : Diagram) : d.Grows (d.attachChild p id s kind).2 := by
  have hnodes : (d.attachChild p id s kind).2.nodes = d.nodes ++ [childNode p id s kind d] := rfl
  have hlinks : (d.attachChild p id s kind).2.links = d.links ++ [childLink id s d] := rfl
  refine grows_of_append hnodes hlinks ?_ ?_ (Nat.le_succ _) (Nat.le_succ _)
  · simp [childNode, Node.numbers]
  · simp [childLink]

theorem addValueNodes_links (id : NodeId) (label : String) (rows : List Row) (d : Diagram) :
    (rows.foldl (addValueNode id label) d).links = d.links ++ rows.mapIdx (fun i _ =>
      shownLink id { d with nextNode := d.nextNode + i, nextLink := d.nextLink + i }) ∧
    (rows.foldl (addValueNode id label) d).nextLink = d.nextLink + rows.length := by
  induction rows generalizing d with
  | nil => simp
  | cons row rows ih =>
    obtain ⟨hlinks, hnext⟩ := ih (addValueNode id label d row)
    rw [List.foldl_cons, hlinks, hnext, addValueNode_eq]
    simp only [Diagram.attach, shownLink, List.append_assoc, List.singleton_append,
      List.mapIdx_cons, List.length_cons, Nat.add_zero, Nat.add_assoc, Nat.add_comm 1, and_self]

theorem grows_addValueNodes (id : NodeId) (label : String) (rows : List Row) (d : Diagram) :
    d.Grows (rows.foldl (addValueNode id label) d) := by
  obtain ⟨hlinks, hnext⟩ := addValueNodes_links id label rows d
  refine grows_of_append (addValueNodes_nodes id label rows d) hlinks ?_ ?_
    (continues_addValueNodes id label rows d).nextNode (hnext ▸ Nat.le_add_right _ _)
  · intro n hn x hx
    obtain ⟨i, hi, rfl⟩ := List.mem_mapIdx.1 hn
    obtain rfl := List.mem_singleton.1 hx
    exact Nat.le_add_right _ _
  · intro l hl
    obtain ⟨i, hi, rfl⟩ := List.mem_mapIdx.1 hl
    exact Nat.le_add_right _ _

theorem grows_expandValues (id : NodeId) (d : Diagram) :
    (d.collapseValues id).2.Grows (d.expandValues id).2 := by
  cases hn : d.node? id with
  | none =>
    rw [expandValues_of_none (by simp [hn])]
    exact .refl _
  | some n =>
    cases hr : n.data with
    | none =>
      rw [expandValues_of_none (by simp [hn, hr])]
      exact .refl _
    | some rows =>
      rw [expandValues_eq hn hr]
      refine Grows.setPinned ?_ n.parent true
      exact (grows_addValueNodes id n.label _ _).modify (fun _ => rfl) fun _ => rfl

/-- What starts anew starts from a cleared diagram. -/
theorem ReachableBy.grows_build (h : d.ReachableBy p admits) {f : Diagram → Diagram}
    (hclear : f d = f d.clear) (hf : ∀ e : Diagram, ∀ a b, e.Allots a b → (f e).Allots a b) :
    (if !d.isEmpty then d.clear else d).Grows (f d) := by
  have hstart : (if !d.isEmpty then d.clear else d) = d.clear := by
    rcases h.eq_clear_or_hasRoot with hcleared | ⟨r, hr⟩
    · rw [← hcleared]
      exact ite_self _
    · rw [hr.isEmpty_eq_false]
      rfl
  rw [hstart, hclear]
  exact (hf d.clear _ _ (allots_of_nil rfl rfl)).grows rfl rfl

theorem ReachableBy.grows_run (h : d.ReachableBy p admits) (o : Operation) :
    (o.before p d).Grows (o.run p d).2 := by
  have hturn (turn : Nat → Nat) (id : NodeId) :
      ((d.modify id fun n => { n with page := turn n.page }).collapseValues id).2.Grows
        (d.turnPage id turn).2 := by
    rw [turnPage_snd]
    exact grows_expandValues id _
  cases o with
  | addRoot label anchor =>
    exact h.grows_build (f := fun e => (e.addRoot p label anchor).2)
      (congrArg Prod.snd (h.addRoot_clear p label anchor))
      fun e a b he => he.addRoot p label anchor
  | addSchema s anchor =>
    exact h.grows_build (f := fun e => (e.addSchema p s anchor).2)
      (by simp only [Diagram.addSchema, h.addRoot_clear p s.label anchor])
      fun e a b he => he.addSchema p s anchor
  | expandRelationship id index =>
    simp only [Operation.run, Operation.outcome, Operation.before, Diagram.expandRelationship]
    split
    · exact .refl d
    · split
      · exact .refl d
      · exact grows_attachChild p id _ .choose d
  | expandValues id => exact grows_expandValues id d
  | nextPage id =>
    simp only [Operation.run, Operation.outcome, Operation.before, Diagram.nextPage]
    split
    · exact hturn (· + 1) id
    · exact .refl d
  | previousPage id =>
    simp only [Operation.run, Operation.outcome, Operation.before, Diagram.previousPage]
    split
    · exact hturn (· - 1) id
    · exact .refl d
  | _ => exact .refl _

theorem Numbered.sheds_before (h : d.Numbered) (p : Provider) (o : Operation) :
    d.Sheds (o.before p d) := by
  have hturn (turn : Nat → Nat) (id : NodeId) :
      d.Sheds ((d.modify id fun n => { n with page := turn n.page }).collapseValues id).2 := by
    refine Sheds.trans ?_ (loses_collapseValues id _).toSheds
    exact sheds_modify fun _ => rfl
  cases o with
  | addRoot label anchor => exact (loses_start _ d).toSheds
  | addSchema s anchor => exact (loses_start _ d).toSheds
  | clear => exact (loses_clear d).toSheds
  | expandRelationship id index => exact .refl d
  | setRelationships id segments => exact (loses_setRelationships id segments d).toSheds
  | setData id rows => exact (loses_setData id rows d).toSheds
  | expandValues id => exact (loses_collapseValues id d).toSheds
  | collapseValues id => exact (loses_collapseValues id d).toSheds
  | selectValue id => exact sheds_selectValue id d
  | removeValue id value => exact (h.loses_removeValue id value).toSheds
  | negate id => exact (loses_negate id d).toSheds
  | removeNode id => exact (loses_removeNode id d).toSheds
  | nextPage id =>
    simp only [Operation.before]
    split
    · exact hturn (· + 1) id
    · exact .refl d
  | previousPage id =>
    simp only [Operation.before]
    split
    · exact hturn (· - 1) id
    · exact .refl d

theorem ReachableBy.makes (h : d.ReachableBy p admits) (o : Operation) : o.Makes p d := by
  have hgrows := h.grows_run o
  have hsheds := h.linked.sheds_before p o
  obtain ⟨rest, hrest⟩ := hgrows.origins
  obtain ⟨links, hlinks⟩ := hgrows.links
  constructor
  case sheds => exact hsheds
  case origins =>
    rw [Operation.made, List.map_drop, ← hrest, ← List.length_map (f := Node.origin),
      List.drop_left]
  case links => rw [Operation.madeLinks, ← hlinks, List.drop_left]
  case since => exact fun n hn x hx => hsheds.nextNode ▸ hgrows.since n hn x hx
  case linksSince => exact fun l hl => hsheds.nextLink ▸ hgrows.linksSince l hl
  case nextNode => exact hsheds.nextNode ▸ hgrows.nextNode
  case nextLink => exact hsheds.nextLink ▸ hgrows.nextLink

/-! ## Whole runs -/

/-- Whatever was made between two diagrams has numbers of its own, given out in the meantime. -/
structure Once (nodes : List Node) (links : List Link) (d d' : Diagram) : Prop where
  nodup : (nodes.flatMap Node.numbers).Nodup
  range : ∀ n ∈ nodes, ∀ x ∈ n.numbers, d.nextNode ≤ x.number ∧ x.number < d'.nextNode
  linksNodup : (links.map Link.id).Nodup
  linksRange : ∀ l ∈ links, d.nextLink ≤ l.id.number ∧ l.id.number < d'.nextLink
  nextNode : d.nextNode ≤ d'.nextNode
  nextLink : d.nextLink ≤ d'.nextLink

theorem Once.append {nodes more : List Node} {links moreLinks : List Link}
    (h : Once nodes links d d') (h' : Once more moreLinks d' e) :
    Once (nodes ++ more) (links ++ moreLinks) d e := by
  constructor
  case nodup =>
    rw [List.flatMap_append]
    refine h.nodup.append h'.nodup fun x hx hx' => ?_
    obtain ⟨n, hn, hx⟩ := List.mem_flatMap.1 hx
    obtain ⟨n', hn', hx'⟩ := List.mem_flatMap.1 hx'
    have hlt := (h.range n hn x hx).2
    have hle := (h'.range n' hn' x hx').1
    omega
  case range =>
    intro n hn x hx
    have hnext := h.nextNode
    have hnext' := h'.nextNode
    rcases List.mem_append.1 hn with hn | hn
    · have hrange := h.range n hn x hx
      omega
    · have hrange := h'.range n hn x hx
      omega
  case linksNodup =>
    rw [List.map_append]
    refine h.linksNodup.append h'.linksNodup fun x hx hx' => ?_
    obtain ⟨l, hl, rfl⟩ := List.mem_map.1 hx
    obtain ⟨l', hl', heq⟩ := List.mem_map.1 hx'
    have hlt := (h.linksRange l hl).2
    have hle := (h'.linksRange l' hl').1
    rw [heq] at hle
    omega
  case linksRange =>
    intro l hl
    have hnext := h.nextLink
    have hnext' := h'.nextLink
    rcases List.mem_append.1 hl with hl | hl
    · have hrange := h.linksRange l hl
      omega
    · have hrange := h'.linksRange l hl
      omega
  case nextNode => exact Nat.le_trans h.nextNode h'.nextNode
  case nextLink => exact Nat.le_trans h.nextLink h'.nextLink

theorem nodup_linkIds (h : d.Numbered) : (d.links.map Link.id).Nodup := by
  rw [List.Nodup, List.pairwise_map]
  refine h.linksSorted.imp fun hlt heq => ?_
  rw [heq] at hlt
  exact Nat.lt_irrefl _ hlt

theorem ReachableBy.once_run (h : d.ReachableBy p fun _ _ => True) (o : Operation) :
    Once (o.made p d) (o.madeLinks p d) d (o.run p d).2 := by
  have hmakes := h.makes o
  have hafter : (o.run p d).2.ReachableBy p fun _ _ => True := .step h o trivial
  have hheld := hafter.allots
  have hmade : (o.made p d).Sublist (o.run p d).2.nodes := List.drop_sublist _ _
  have hlinks : (o.madeLinks p d).Sublist (o.run p d).2.links := List.drop_sublist _ _
  constructor
  case nodup => exact hheld.nodup.sublist (hmade.flatMap _)
  case range =>
    exact fun n hn x hx =>
      ⟨hmakes.since n hn x hx, hheld.bounded x (mem_numbers_of_mem (hmade.subset hn) hx)⟩
  case linksNodup => exact (nodup_linkIds hafter.linked.toNumbered).sublist (hlinks.map _)
  case linksRange =>
    exact fun l hl => ⟨hmakes.linksSince l hl, hafter.linked.linksBounded l (hlinks.subset hl)⟩
  case nextNode => exact hmakes.nextNode
  case nextLink => exact hmakes.nextLink

theorem ReachableBy.once_runAll (h : d.ReachableBy p fun _ _ => True) (ops : List Operation) :
    Once (Operation.allMade p ops d) (Operation.allMadeLinks p ops d) d
      (Operation.runAll p ops d) := by
  induction ops generalizing d with
  | nil =>
    constructor <;> simp [Operation.allMade, Operation.allMadeLinks, Operation.runAll]
  | cons o rest ih => exact (h.once_run o).append (ih (.step h o trivial))

/-- A node is one of those that were there, or of those that were made since. -/
theorem ReachableBy.origin_cases (h : d.ReachableBy p fun _ _ => True) (ops : List Operation)
    {n' : Node} (hn' : n' ∈ (Operation.runAll p ops d).nodes) :
    (∃ n ∈ d.nodes, n'.origin = n.origin) ∨
      ∃ n ∈ Operation.allMade p ops d, n'.origin = n.origin := by
  induction ops generalizing d with
  | nil => exact .inl ⟨n', hn', rfl⟩
  | cons o rest ih =>
    rcases ih (.step h o trivial) hn' with ⟨m, hm, hom⟩ | ⟨m, hm, hom⟩
    · have hmakes := h.makes o
      have horigin : m.origin ∈ (o.before p d).nodes.map Node.origin ++
          (o.made p d).map Node.origin := hmakes.origins ▸ List.mem_map_of_mem hm
      rcases List.mem_append.1 horigin with hkept | hmade
      · obtain ⟨n, hn, hon⟩ := List.mem_map.1 (hmakes.sheds.origins.subset hkept)
        exact .inl ⟨n, hn, hom.trans hon.symm⟩
      · obtain ⟨n, hn, hon⟩ := List.mem_map.1 hmade
        exact .inr ⟨n, List.mem_append_left _ hn, hom.trans hon.symm⟩
    · exact .inr ⟨m, List.mem_append_right _ hm, hom⟩

theorem ReachableBy.link_cases (h : d.ReachableBy p fun _ _ => True) (ops : List Operation)
    {l : Link} (hl : l ∈ (Operation.runAll p ops d).links) :
    l ∈ d.links ∨ l ∈ Operation.allMadeLinks p ops d := by
  induction ops generalizing d with
  | nil => exact .inl hl
  | cons o rest ih =>
    rcases ih (.step h o trivial) hl with hl | hl
    · have hmakes := h.makes o
      rw [hmakes.links] at hl
      rcases List.mem_append.1 hl with hkept | hmade
      · exact .inl (hmakes.sheds.links.subset hkept)
      · exact .inr (List.mem_append_left _ hmade)
    · exact .inr (List.mem_append_right _ hl)

/-! ## Unselecting -/

/-- A number that is there once at most is taken out once at most. -/
theorem filter_eq_eraseP {values : List SelectedValue}
    (h : (values.map SelectedValue.id).Nodup) (x : NodeId) :
    values.filter (fun v => v.id != x) = values.eraseP fun v => v.id == x := by
  induction values with
  | nil => rfl
  | cons v values ih =>
    obtain ⟨hv, hrest⟩ := List.nodup_cons.1 h
    by_cases hx : v.id = x
    · rw [List.filter_cons_of_neg (by simp [hx]), List.eraseP_cons_of_pos (by simp [hx])]
      refine List.filter_eq_self.2 fun w hw => ?_
      rw [bne_iff_ne]
      rintro rfl
      exact hv (hx ▸ List.mem_map_of_mem hw)
    · rw [List.filter_cons_of_pos (by simp [hx]), List.eraseP_cons_of_neg (by simp [hx]), ih hrest]

theorem ReachableBy.removeValue_selected (h : d.ReachableBy p admits) (hn : d.node? id = some n)
    (value : NodeId) : ∃ n', (d.removeValue id value).2.node? id = some n' ∧
      n'.selected = n.selected.eraseP fun v => v.id == value := by
  have hown : n.numbers.Nodup := (List.nodup_flatMap.1 h.allots.nodup).1 n (mem_of_node? hn)
  have herase := filter_eq_eraseP (List.nodup_cons.1 hown).2 value
  simp only [Diagram.removeValue, hn]
  split
  · rename_i hlength
    refine ⟨n, hn, ?_⟩
    rw [← herase]
    exact (List.filter_sublist.eq_of_length hlength).symm
  · have hunselected := node?_modify_of_some
      (f := fun m => { m with selected := n.selected.filter fun v => v.id != value })
      (fun _ => rfl) hn id
    rw [if_pos (id_of_node? hn)] at hunselected
    have hlinked : (d.modify id fun m =>
        { m with selected := n.selected.filter fun v => v.id != value }).Linked :=
      h.linked.modify fun _ => rfl
    split
    · rename_i hbare
      obtain ⟨n', hn', hkeeps, -⟩ := hlinked.node?_pruneNegated hunselected
      refine ⟨n', hn', ?_⟩
      have hempty : n.selected.filter (fun v => v.id != value) = [] :=
        List.isEmpty_iff.1 (Bool.and_eq_true_iff.1 hbare).2
      have hsubset := hkeeps.selected
      rw [← herase, hempty]
      exact List.eq_nil_of_subset_nil (hempty ▸ hsubset)
    · exact ⟨_, hunselected, herase⟩

end Diagram

/-! ## Numbers as words -/

def NodeId.word (id : NodeId) : UInt64 := .ofNat id.number

def LinkId.word (id : LinkId) : UInt64 := .ofNat id.number

/-- Words tell numbers apart that they hold. -/
theorem nodup_words {α : Type} {ids : List α} {number : α → Nat}
    (hinj : Function.Injective number) (h : ids.Nodup) (hlt : ∀ x ∈ ids, number x < 2 ^ 64) :
    (ids.map fun x => UInt64.ofNat (number x)).Nodup := by
  refine List.pairwise_map.2 (h.imp_of_mem fun {x y} hx hy hne heq => hne (hinj ?_))
  rw [← UInt64.toNat_ofNat_of_lt' (hlt x hx), heq, UInt64.toNat_ofNat_of_lt' (hlt y hy)]

theorem NodeId.number_injective : Function.Injective NodeId.number :=
  fun _ _ h => congrArg NodeId.mk h

theorem LinkId.number_injective : Function.Injective LinkId.number :=
  fun _ _ h => congrArg LinkId.mk h

/-! ## All together -/

/-- In a run of operations no number is used again: not for any of the nodes that it makes and the
rows that are selected on them, nor for any of the links, nor by what there is in the end. What has
a number stays the only one that ever has it, whatever comes later. -/
structure Operation.NeverReuses (p : Provider) (ops : List Operation) (start d : Diagram) :
    Prop where
  made : (((allMade p ops start).flatMap Node.numbers).map NodeId.word).Nodup
  madeLinks : (((allMadeLinks p ops start).map Link.id).map LinkId.word).Nodup
  /-- There is nothing but what was made. -/
  nodes : ∀ n ∈ d.nodes, ∃ m ∈ allMade p ops start, n.origin = m.origin
  links : ∀ l ∈ d.links, l ∈ allMadeLinks p ops start
  held : (d.numbers.map NodeId.word).Nodup
  bounded : ∀ x ∈ d.numbers, x.number < d.nextNode
  removeValue : ∀ id n value, d.node? id = some n →
    ∃ n', (d.removeValue id value).2.node? id = some n' ∧
      n'.selected = n.selected.eraseP fun v => v.id == value
  later : ∀ x : NodeId, x.number < d.nextNode → ∀ more,
    (∀ m ∈ allMade p more d, x ∉ m.numbers) ∧
      ∀ n', (runAll p more d).node? x = some n' → ∃ n, d.node? x = some n ∧ n'.origin = n.origin

theorem Operation.neverReuses (p : Provider) (pageSize : Nat) (ops : List Operation)
    (hnodes : (runAll p ops (.new pageSize)).nextNode < 2 ^ 64)
    (hlinks : (runAll p ops (.new pageSize)).nextLink < 2 ^ 64) :
    NeverReuses p ops (.new pageSize) (runAll p ops (.new pageSize)) := by
  have hstart : (Diagram.new pageSize).ReachableBy p fun _ _ => True := .new pageSize
  have hend := hstart.runAll ops
  have hheld := hend.allots
  have honce := hstart.once_runAll ops
  constructor
  case made =>
    refine nodup_words NodeId.number_injective honce.nodup fun x hx => ?_
    obtain ⟨n, hn, hx⟩ := List.mem_flatMap.1 hx
    exact Nat.lt_trans (honce.range n hn x hx).2 hnodes
  case madeLinks =>
    refine nodup_words LinkId.number_injective honce.linksNodup fun x hx => ?_
    obtain ⟨l, hl, rfl⟩ := List.mem_map.1 hx
    exact Nat.lt_trans (honce.linksRange l hl).2 hlinks
  case nodes =>
    intro n hn
    exact (hstart.origin_cases ops hn).resolve_left (by simp [Diagram.new])
  case links =>
    intro l hl
    exact (hstart.link_cases ops hl).resolve_left (by simp [Diagram.new])
  case held =>
    exact nodup_words NodeId.number_injective hheld.nodup fun x hx =>
      Nat.lt_trans (hheld.bounded x hx) hnodes
  case bounded => exact hheld.bounded
  case removeValue => exact fun id n value hn => hend.removeValue_selected hn value
  case later =>
    intro x hx more
    refine ⟨fun m hm hxm => ?_, fun n' hn' => ?_⟩
    · have hle := ((hend.once_runAll more).range m hm x hxm).1
      omega
    · exact (continues_runAll p more _).origin_of_node? hend.linked.toNumbered hx hn'

end PatternQuery
