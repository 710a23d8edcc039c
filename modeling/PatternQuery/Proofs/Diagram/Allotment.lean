import Mathlib.Data.List.Flatten
import Mathlib.Data.List.Nodup
import Mathlib.Data.List.Pairwise
import PatternQuery.Proofs.Diagram.Reshowing

/-!
# Numbers are given out once

Nodes, and values that are selected on them, draw their numbers from one counter, links from another
one. No operation sets a counter back, not even one that clears the diagram, and a number moves from
a candidate value to the selection that it becomes without being held twice
(`Diagram.ReachableBy.allots`). What operations do besides making nodes and links only takes some
away (`Diagram.Sheds`).
-/

namespace PatternQuery

/-- The numbers that a node holds: its own and those of the values that are selected on it. -/
def Node.numbers (n : Node) : List NodeId := n.id :: n.selected.map SelectedValue.id

theorem Node.id_mem_numbers (n : Node) : n.id ∈ n.numbers := List.mem_cons_self

namespace Diagram

/-- All numbers that are held in a diagram. -/
def numbers (d : Diagram) : List NodeId := d.nodes.flatMap Node.numbers

variable {p : Provider} {d d' e : Diagram} {id : NodeId} {m n : Node} {a b : Nat}

theorem mem_numbers_of_mem (hn : n ∈ d.nodes) {x : NodeId} (hx : x ∈ n.numbers) : x ∈ d.numbers :=
  List.mem_flatMap.2 ⟨n, hn, hx⟩

/-! ## What is lost -/

/-- `d'` has some of the nodes and links of `d`, and no others. -/
structure Sheds (d d' : Diagram) : Prop where
  origins : (d'.nodes.map Node.origin).Sublist (d.nodes.map Node.origin)
  links : d'.links.Sublist d.links
  nextNode : d'.nextNode = d.nextNode
  nextLink : d'.nextLink = d.nextLink

/-- Nothing more is selected on the nodes that stay. -/
structure Loses (d d' : Diagram) : Prop extends Sheds d d' where
  numbers : d'.numbers.Sublist d.numbers

theorem Sheds.refl (d : Diagram) : d.Sheds d := ⟨.refl _, .refl _, rfl, rfl⟩

theorem Sheds.trans (h : d.Sheds d') (h' : d'.Sheds e) : d.Sheds e :=
  ⟨h'.origins.trans h.origins, h'.links.trans h.links, h'.nextNode.trans h.nextNode,
    h'.nextLink.trans h.nextLink⟩

theorem Loses.refl (d : Diagram) : d.Loses d := ⟨.refl d, .refl _⟩

theorem Loses.trans (h : d.Loses d') (h' : d'.Loses e) : d.Loses e :=
  ⟨h.toSheds.trans h'.toSheds, h'.numbers.trans h.numbers⟩

theorem origins_modify {f : Node → Node} (ho : ∀ n, (f n).origin = n.origin) :
    (d.modify id f).nodes.map Node.origin = d.nodes.map Node.origin := by
  simp only [Diagram.modify, List.map_map]
  refine List.map_congr_left fun n _ => ?_
  simp only [Function.comp]
  split
  · exact ho n
  · rfl

theorem sheds_modify {f : Node → Node} (ho : ∀ n, (f n).origin = n.origin) :
    d.Sheds (d.modify id f) :=
  ⟨by rw [origins_modify ho], .refl _, rfl, rfl⟩

theorem loses_modify {f : Node → Node} (ho : ∀ n, (f n).origin = n.origin)
    (hs : ∀ n : Node, (f n).selected.Sublist n.selected) : d.Loses (d.modify id f) := by
  refine ⟨sheds_modify ho, ?_⟩
  rw [numbers, Diagram.modify, List.flatMap_map]
  refine List.Sublist.flatMap_right d.nodes fun n _ => ?_
  split
  · rw [Node.numbers, Node.id_of_origin (ho n)]
    exact ((hs n).map _).cons_cons n.id
  · exact .refl _

theorem loses_keep (q : NodeId → Bool) (r : Link → Bool) (d : Diagram) : d.Loses (d.keep q r) :=
  ⟨⟨List.filter_sublist.map _, List.filter_sublist, rfl, rfl⟩, List.filter_sublist.flatMap _⟩

theorem loses_clear (d : Diagram) : d.Loses d.clear :=
  ⟨⟨List.nil_sublist _, List.nil_sublist _, rfl, rfl⟩, List.nil_sublist _⟩

theorem loses_setPinned (parent : Option NodeId) (fixed : Bool) (d : Diagram) :
    d.Loses (d.setPinned parent fixed) := by
  cases parent with
  | none => exact .refl d
  | some x =>
    refine loses_modify (fun n => ?_) fun n => ?_
    · split <;> rfl
    · split <;> exact .refl _

theorem loses_collapseValues (id : NodeId) (d : Diagram) : d.Loses (d.collapseValues id).2 := by
  cases hn : d.node? id with
  | none =>
    rw [collapseValues_of_collapsed (by simp [hn])]
    exact .refl d
  | some n =>
    cases he : n.expanded with
    | false =>
      rw [collapseValues_of_collapsed (by simp [hn, he])]
      exact .refl d
    | true =>
      rw [collapseValues_eq hn he]
      refine Loses.trans ?_ (loses_setPinned n.parent false _)
      exact (loses_keep _ _ d).trans (loses_modify (fun _ => rfl) fun _ => .refl _)

theorem loses_removeSubtree (id : NodeId) (d : Diagram) : d.Loses (d.removeSubtree id).2 := by
  rw [removeSubtree_snd]
  exact loses_keep _ _ d

theorem loses_pruneNegated (id : NodeId) (d : Diagram) : d.Loses (d.pruneNegated id) := by
  have hfold : d.Loses ((d.children id).foldl (fun d x => (d.removeSubtree x).2) d) :=
    List.foldlRecOn (motive := d.Loses) _ _ (.refl d) fun e he x _ =>
      he.trans (loses_removeSubtree x e)
  unfold Diagram.pruneNegated
  refine hfold.trans ((loses_collapseValues id _).trans ?_)
  exact loses_modify (fun _ => rfl) fun _ => .refl _

theorem Numbered.loses_removeValue (hd : d.Numbered) (id value : NodeId) :
    d.Loses (d.removeValue id value).2 := by
  unfold Diagram.removeValue
  split
  · exact .refl d
  · rename_i n hn
    have hsame : (d.modify id fun m =>
        { m with selected := n.selected.filter fun v => v.id != value }) = d.modify id fun m =>
        { m with selected := m.selected.filter fun v => v.id != value } := hd.modify_congr hn rfl
    have hunselect : d.Loses (d.modify id fun m =>
        { m with selected := n.selected.filter fun v => v.id != value }) := by
      rw [hsame]
      exact loses_modify (fun _ => rfl) fun _ => List.filter_sublist
    dsimp only
    split
    · exact .refl d
    · split
      · exact hunselect.trans (loses_pruneNegated id _)
      · exact hunselect

theorem loses_negate (id : NodeId) (d : Diagram) : d.Loses (d.negate id).2 := by
  have hset (e : Diagram) (negative : Bool) : e.Loses (e.modify id fun n => { n with negative }) :=
    loses_modify (fun _ => rfl) fun _ => .refl _
  unfold Diagram.negate
  split
  · exact .refl d
  · split
    · exact .refl d
    · split
      · exact hset d false
      · dsimp only
        split
        · exact hset d true
        · exact (loses_pruneNegated id d).trans (hset _ true)

theorem loses_removeNode (id : NodeId) (d : Diagram) : d.Loses (d.removeNode id).2 := by
  unfold Diagram.removeNode
  split
  · exact .refl d
  · split
    · exact loses_clear d
    · exact loses_removeSubtree id d

theorem loses_setRelationships (id : NodeId) (segments : List Segment) (d : Diagram) :
    d.Loses (d.setRelationships id segments).2 := by
  unfold Diagram.setRelationships
  split
  · exact .refl d
  · exact loses_modify (fun _ => rfl) fun _ => .refl _

theorem loses_setData (id : NodeId) (rows : List Row) (d : Diagram) :
    d.Loses (d.setData id rows).2 := by
  unfold Diagram.setData
  split
  · exact .refl d
  · exact loses_modify (fun _ => rfl) fun _ => .refl _

theorem loses_start (o : Operation) (d : Diagram) : d.Loses (o.start d) := by
  unfold Operation.start
  split
  · exact loses_clear d
  · exact .refl d

/-! ## What is held -/

/-- No number is held twice, and all of them were given out before, to nodes and values from `a` on,
to links from `b` on. -/
structure Allots (d : Diagram) (a b : Nat) : Prop where
  nodup : d.numbers.Nodup
  bounded : ∀ x ∈ d.numbers, x.number < d.nextNode
  since : ∀ x ∈ d.numbers, a ≤ x.number
  linksSince : ∀ l ∈ d.links, b ≤ l.id.number
  nextNode : a ≤ d.nextNode
  nextLink : b ≤ d.nextLink

theorem allots_of_nil (hn : d.nodes = []) (hl : d.links = []) : d.Allots d.nextNode d.nextLink := by
  constructor <;> simp [numbers, hn, hl]

theorem Allots.sheds (h : d.Allots a b) (hs : d.Sheds d') (hnodup : d'.numbers.Nodup)
    (hsubset : ∀ x ∈ d'.numbers, x ∈ d.numbers) : d'.Allots a b where
  nodup := hnodup
  bounded x hx := by
    rw [hs.nextNode]
    exact h.bounded x (hsubset x hx)
  since x hx := h.since x (hsubset x hx)
  linksSince l hl := h.linksSince l (hs.links.subset hl)
  nextNode := hs.nextNode ▸ h.nextNode
  nextLink := hs.nextLink ▸ h.nextLink

theorem Allots.loses (h : d.Allots a b) (hl : d.Loses d') : d'.Allots a b :=
  h.sheds hl.toSheds (h.nodup.sublist hl.numbers) fun _ hx => hl.numbers.subset hx

/-- A number tells the node that holds it. -/
theorem eq_of_mem_numbers (h : d.numbers.Nodup) (hm : m ∈ d.nodes) (hn : n ∈ d.nodes) {x : NodeId}
    (hxm : x ∈ m.numbers) (hxn : x ∈ n.numbers) : m = n := by
  have hapart := (List.nodup_flatMap.1 h).2
  by_contra hne
  have : Std.Symm (Function.onFun (List.Disjoint (α := NodeId)) Node.numbers) :=
    ⟨fun _ _ hxy _ hx hy => hxy hy hx⟩
  exact hapart.forall hm hn hne hxm hxn

/-- Numbers that nothing else holds may come with a change of a node. -/
theorem nodup_modify (h : d.numbers.Nodup) {f : Node → Node}
    (hf : ∀ n ∈ d.nodes, n.id = id → (f n).numbers.Nodup)
    (hnew : ∀ n ∈ d.nodes, n.id = id → ∀ x ∈ (f n).numbers, x ∈ n.numbers ∨ x ∉ d.numbers) :
    (d.modify id f).numbers.Nodup := by
  obtain ⟨heach, hapart⟩ := List.nodup_flatMap.1 h
  rw [numbers, Diagram.modify, List.flatMap_map]
  refine List.nodup_flatMap.2 ⟨fun n hn => ?_, hapart.imp_of_mem fun {m n} hm hn hmn => ?_⟩
  · split
    · exact hf n hn ‹_›
    · exact heach n hn
  · -- What a changed node holds is its own or new, so it is not held by another one.
    have hother {m n : Node} (hm : m ∈ d.nodes) (hn : n ∈ d.nodes) (hid : m.id = id)
        (hmn : List.Disjoint m.numbers n.numbers) : List.Disjoint (f m).numbers n.numbers := by
      intro x hxm hxn
      rcases hnew m hm hid x hxm with hx | hx
      · exact hmn hx hxn
      · exact hx (mem_numbers_of_mem hn hxn)
    show List.Disjoint (if m.id = id then f m else m).numbers (if n.id = id then f n else n).numbers
    split
    · rename_i hmid
      rw [if_neg]
      · exact hother hm hn hmid hmn
      · intro hnid
        exact hmn m.id_mem_numbers (hmid.trans hnid.symm ▸ n.id_mem_numbers)
    · split
      · exact fun x hxm hxn => hother hn hm ‹_› (fun _ hx hy => hmn hy hx) hxn hxm
      · exact hmn

/-! ## Building -/

theorem Allots.append (h : d.Allots a b) (hnodes : e.nodes = d.nodes ++ [n])
    (hid : n.id = ⟨d.nextNode⟩) (hs : n.selected = []) (hnext : e.nextNode = d.nextNode + 1)
    (hlinks : ∀ l ∈ e.links, l ∈ d.links ∨ l.id = ⟨d.nextLink⟩) (hlink : d.nextLink ≤ e.nextLink) :
    e.Allots a b := by
  have hnumbers : e.numbers = d.numbers ++ [⟨d.nextNode⟩] := by
    simp [numbers, hnodes, Node.numbers, hid, hs]
  have hcases {x : NodeId} (hx : x ∈ e.numbers) : x ∈ d.numbers ∨ x = ⟨d.nextNode⟩ := by
    rwa [hnumbers, List.mem_append, List.mem_singleton] at hx
  constructor
  case nodup =>
    rw [hnumbers]
    refine h.nodup.append (List.nodup_singleton _) fun x hx hnew => ?_
    have hlt := h.bounded x hx
    rw [List.mem_singleton.1 hnew] at hlt
    exact Nat.lt_irrefl _ hlt
  case bounded =>
    intro x hx
    rw [hnext]
    rcases hcases hx with hx | rfl
    · exact Nat.lt_succ_of_lt (h.bounded x hx)
    · exact Nat.lt_succ_self _
  case since =>
    intro x hx
    rcases hcases hx with hx | rfl
    · exact h.since x hx
    · exact h.nextNode
  case linksSince =>
    intro l hl
    rcases hlinks l hl with hl | hl
    · exact h.linksSince l hl
    · rw [hl]
      exact h.nextLink
  case nextNode => exact Nat.le_trans h.nextNode (by omega)
  case nextLink => exact Nat.le_trans h.nextLink hlink

theorem Allots.attach (h : d.Allots a b) {l : Link} (hid : n.id = ⟨d.nextNode⟩)
    (hs : n.selected = []) (hl : l.id = ⟨d.nextLink⟩) : (d.attach n l).Allots a b := by
  refine h.append rfl hid hs rfl (fun k hk => ?_) (Nat.le_succ _)
  rcases List.mem_append.1 hk with hk | hk
  · exact .inl hk
  · rw [List.mem_singleton.1 hk]
    exact .inr hl

theorem Allots.withNames (h : d.Allots a b) (names : VariableNames) :
    { d with names }.Allots a b :=
  ⟨h.nodup, h.bounded, h.since, h.linksSince, h.nextNode, h.nextLink⟩

theorem Allots.attachChild (h : d.Allots a b) (p : Provider) (id : NodeId) (s : Segment)
    (kind : NodeKind) : (d.attachChild p id s kind).2.Allots a b := by
  have hattach : (d.attach (childNode p id s kind d) (childLink id s d)).Allots a b :=
    h.attach rfl rfl rfl
  exact hattach.withNames _

theorem Allots.addValueNodes (h : d.Allots a b) (id : NodeId) (label : String) (rows : List Row) :
    (rows.foldl (addValueNode id label) d).Allots a b := by
  induction rows generalizing d with
  | nil => exact h
  | cons row rows ih =>
    rw [List.foldl_cons, addValueNode_eq]
    exact ih (h.attach rfl rfl rfl)

theorem Allots.addRoot (h : d.Allots a b) (p : Provider) (label : String)
    (anchor : Option Position) : (d.addRoot p label anchor).2.Allots a b := by
  have hadd {e : Diagram} (he : e.Allots a b) : (e.addNode p .root label fun n =>
      { n with fixed := true, position := anchor }).2.Allots a b :=
    he.append rfl rfl rfl rfl (fun _ hl => .inl hl) (Nat.le_refl _)
  unfold Diagram.addRoot
  split
  · exact hadd h
  · exact hadd (h.loses (loses_clear d))

/-- The values that rows are selected as, under the numbers from `k` on. -/
def ofRows (k : Nat) (label : String) (rows : List Row) : List SelectedValue :=
  rows.mapIdx fun i row => SelectedValue.ofRow ⟨k + i⟩ label row

theorem mem_ofRows {k : Nat} {label : String} {rows : List Row} {x : NodeId} :
    x ∈ (ofRows k label rows).map SelectedValue.id ↔ k ≤ x.number ∧ x.number < k + rows.length := by
  simp only [ofRows, List.mem_map, List.mem_mapIdx]
  constructor
  · rintro ⟨v, ⟨i, hi, rfl⟩, rfl⟩
    exact ⟨Nat.le_add_right k i, Nat.add_lt_add_left hi k⟩
  · rintro ⟨hle, hlt⟩
    obtain ⟨i, hi⟩ := Nat.exists_eq_add_of_le hle
    refine ⟨_, ⟨i, by omega, rfl⟩, ?_⟩
    rw [SelectedValue.ofRow, ← hi]

theorem nodup_ofRows (k : Nat) (label : String) (rows : List Row) :
    ((ofRows k label rows).map SelectedValue.id).Nodup := by
  induction rows generalizing k with
  | nil => exact List.nodup_nil
  | cons row rows ih =>
    have hrest : ofRows k label (row :: rows) =
        SelectedValue.ofRow ⟨k⟩ label row :: ofRows (k + 1) label rows := by
      simp only [ofRows, List.mapIdx_cons, Nat.add_assoc, Nat.add_comm 1, Nat.add_zero]
    rw [hrest, List.map_cons, List.nodup_cons, mem_ofRows]
    refine ⟨fun hx => ?_, ih (k + 1)⟩
    have hlt : k + 1 ≤ k := hx.1
    omega

theorem Allots.selectRows (h : d.Allots a b) (id : NodeId) (label : String) (rows : List Row) :
    (d.selectRows id label rows).Allots a b := by
  let select (n : Node) : Node := { n with selected := ofRows d.nextNode label rows }
  have hselect {n : Node} {x : NodeId} (hx : x ∈ (select n).numbers) :
      x = n.id ∨ d.nextNode ≤ x.number ∧ x.number < d.nextNode + rows.length :=
    (List.mem_cons.1 hx).imp_right mem_ofRows.1
  have hall {x : NodeId} (hx : x ∈ (d.selectRows id label rows).numbers) :
      x ∈ d.numbers ∨ d.nextNode ≤ x.number ∧ x.number < d.nextNode + rows.length := by
    obtain ⟨n', hn', hx⟩ := List.mem_flatMap.1 hx
    obtain ⟨n, hn, rfl⟩ := mem_modify.1 hn'
    split at hx
    · rcases hselect hx with rfl | hx
      · exact .inl (mem_numbers_of_mem hn n.id_mem_numbers)
      · exact .inr hx
    · exact .inl (mem_numbers_of_mem hn hx)
  constructor
  case nodup =>
    refine nodup_modify (d := { d with nextNode := d.nextNode + rows.length }) (f := select) h.nodup
      (fun n hn _ => ?_) fun n _ _ x hx => ?_
    · refine List.nodup_cons.2 ⟨fun hx => ?_, nodup_ofRows d.nextNode label rows⟩
      have hlt := h.bounded n.id (mem_numbers_of_mem hn n.id_mem_numbers)
      have hle : d.nextNode ≤ n.id.number := (mem_ofRows.1 hx).1
      omega
    · rcases hselect hx with rfl | ⟨hle, -⟩
      · exact .inl n.id_mem_numbers
      · exact .inr fun hmem => Nat.lt_irrefl _ (Nat.lt_of_lt_of_le (h.bounded x hmem) hle)
  case bounded =>
    intro x hx
    rcases hall hx with hx | ⟨-, hlt⟩
    · exact Nat.lt_of_lt_of_le (h.bounded x hx) (Nat.le_add_right _ _)
    · exact hlt
  case since =>
    intro x hx
    rcases hall hx with hx | ⟨hle, -⟩
    · exact h.since x hx
    · exact Nat.le_trans h.nextNode hle
  case linksSince => exact h.linksSince
  case nextNode => exact Nat.le_trans h.nextNode (Nat.le_add_right _ _)
  case nextLink => exact h.nextLink

theorem Allots.addSchema (h : d.Allots a b) (p : Provider) (s : Schema)
    (anchor : Option Position) : (d.addSchema p s anchor).2.Allots a b :=
  (applySchema_induction (P := fun e => e.Allots a b) p
    (fun _ id label rows he _ => he.selectRows id label rows)
    (fun _ _ _ he _ => he.loses (loses_modify (fun _ => rfl) fun _ => .refl _))
    (fun _ id s kind _ he _ => he.attachChild p id s kind) _ s _ (h.addRoot p s.label anchor)
    (isQueryNode_addRoot p s.label anchor d)).1

theorem Allots.expandRelationship (h : d.Allots a b) (p : Provider) (id : NodeId) (index : Nat) :
    (d.expandRelationship p id index).2.Allots a b := by
  unfold Diagram.expandRelationship
  split
  · exact h
  · split
    · exact h
    · exact h.attachChild p id _ .choose

/-! ## Candidates -/

theorem Allots.expandValues (h : d.Allots a b) (id : NodeId) :
    (d.expandValues id).2.Allots a b := by
  have hhidden := h.loses (loses_collapseValues id d)
  cases hn : d.node? id with
  | none => rwa [expandValues_of_none (by simp [hn])]
  | some n =>
    cases hr : n.data with
    | none => rwa [expandValues_of_none (by simp [hn, hr])]
    | some rows =>
      rw [expandValues_eq hn hr]
      have hshown := hhidden.addValueNodes id n.label
        (pageRows (d.collapseValues id).2.pageSize n rows)
      refine Allots.loses ?_ (loses_setPinned n.parent true _)
      exact hshown.loses (loses_modify (fun _ => rfl) fun _ => .refl _)

theorem Allots.turnPage (h : d.Allots a b) (id : NodeId) (turn : Nat → Nat) :
    (d.turnPage id turn).2.Allots a b := by
  rw [turnPage_snd]
  refine Allots.expandValues ?_ id
  exact h.loses (loses_modify (fun _ => rfl) fun _ => .refl _)

/-! ## Selecting -/

theorem mem_numbers_pick {v : SelectedValue} {x : NodeId} (hx : x ∈ (d.pick id v).numbers) :
    x ∈ d.numbers ∨ x = v.id := by
  obtain ⟨n', hn', hx⟩ := List.mem_flatMap.1 hx
  obtain ⟨n, hn, rfl⟩ := mem_modify.1 hn'
  split at hx
  · have happend : x ∈ n.numbers ++ [v.id] := by
      simpa only [Node.numbers, List.map_append, List.map_singleton, List.cons_append] using hx
    rcases List.mem_append.1 happend with hx | hx
    · exact .inl (mem_numbers_of_mem hn hx)
    · exact .inr (List.mem_singleton.1 hx)
  · exact .inl (mem_numbers_of_mem hn hx)

theorem nodup_pick (h : d.numbers.Nodup) {v : SelectedValue} (hv : v.id ∉ d.numbers) :
    (d.pick id v).numbers.Nodup := by
  have happend (n : Node) : ({ n with selected := n.selected ++ [v] } : Node).numbers =
      n.numbers ++ [v.id] := by
    simp only [Node.numbers, List.map_append, List.map_singleton, List.cons_append]
  refine nodup_modify h (fun n hn _ => ?_) fun n hn _ x hx => ?_
  · rw [happend]
    refine ((List.nodup_flatMap.1 h).1 n hn).append (List.nodup_singleton _) fun x hx hxv => ?_
    rw [List.mem_singleton.1 hxv] at hx
    exact hv (mem_numbers_of_mem hn hx)
  · rw [happend] at hx
    rcases List.mem_append.1 hx with hx | hx
    · exact .inl hx
    · exact .inr (List.mem_singleton.1 hx ▸ hv)

/-- The diagram without the candidates of a node. Their links stay. -/
def withoutCandidates (id : NodeId) (d : Diagram) : Diagram :=
  { d with nodes := d.nodes.filter fun n => !isCandidateOf id n }

/-- To select a value and to hide the candidates come in any order. -/
theorem Linked.numbers_collapseValues_pick (hd : d.Linked) (hs : d.Displays)
    (hn : d.node? id = some n) (v : SelectedValue) :
    ((d.pick id v).collapseValues id).2.numbers = ((d.withoutCandidates id).pick id v).numbers := by
  have hlinked : (d.pick id v).Linked := hd.modify fun _ => rfl
  have hdisplays : (d.pick id v).Displays := hs.modify (fun _ => rfl) fun _ => rfl
  have hkept : (d.pick id v).nodes.filter (fun m => !isCandidateOf id m) =
      ((d.withoutCandidates id).pick id v).nodes := by
    simp only [pick, Diagram.modify, withoutCandidates, List.filter_map]
    refine congrArg (List.map _) (List.filter_congr fun m _ => ?_)
    simp only [Function.comp, isCandidateOf]
    split <;> rfl
  have hpicked := node?_modify_of_some (f := fun m => { m with selected := m.selected ++ [v] })
    (fun _ => rfl) hn id
  rw [numbers, hlinked.nodes_collapseValues hdisplays hpicked, hkept, List.flatMap_map]
  rfl

theorem sheds_selectValue (id : NodeId) (d : Diagram) : d.Sheds (d.selectValue id).2 := by
  unfold Diagram.selectValue
  split
  · exact .refl d
  · split
    · split
      · exact .refl d
      · refine Sheds.trans ?_ (loses_collapseValues _ _).toSheds
        exact sheds_modify fun _ => rfl
    · exact .refl d

/-- The number of a candidate moves to the value that it is selected as, since the candidate goes
together with all that are shown beside it. -/
theorem Linked.allots_selectValue (hd : d.Linked) (hs : d.Displays) (h : d.Allots a b)
    (id : NodeId) : (d.selectValue id).2.Allots a b := by
  have hsheds := sheds_selectValue id d
  unfold Diagram.selectValue at hsheds ⊢
  split at hsheds
  · exact h
  · rename_i v hv
    have hmem := mem_of_node? hv
    split at hsheds
    · rename_i parent hk hp
      split at hsheds
      · exact h
      · rename_i m hm
        have hkept : (d.withoutCandidates parent).numbers.Sublist d.numbers :=
          List.filter_sublist.flatMap _
        have hgone : v.id ∉ (d.withoutCandidates parent).numbers := by
          intro hx
          obtain ⟨n, hn, hx⟩ := List.mem_flatMap.1 hx
          obtain ⟨hn, hstays⟩ := List.mem_filter.1 hn
          obtain rfl := eq_of_mem_numbers h.nodup hmem hn v.id_mem_numbers hx
          simp [isCandidateOf, hk, hp] at hstays
        have hnumbers := hd.numbers_collapseValues_pick hs hm (pickedValue v)
        refine h.sheds hsheds ?_ fun x hx => ?_
        · exact hnumbers ▸ nodup_pick (h.nodup.sublist hkept) hgone
        · rcases mem_numbers_pick (hnumbers ▸ hx) with hx | rfl
          · exact hkept.subset hx
          · exact mem_numbers_of_mem hmem v.id_mem_numbers
    · exact h

/-! ## Operations -/

theorem Linked.allots_run (hd : d.Linked) (hs : d.Displays) (h : d.Allots a b) (p : Provider)
    (o : Operation) : (o.run p d).2.Allots a b := by
  cases o with
  | addRoot label anchor => exact h.addRoot p label anchor
  | addSchema s anchor => exact h.addSchema p s anchor
  | clear => exact h.loses (loses_clear d)
  | expandRelationship id index => exact h.expandRelationship p id index
  | setRelationships id segments => exact h.loses (loses_setRelationships id segments d)
  | setData id rows => exact h.loses (loses_setData id rows d)
  | expandValues id => exact h.expandValues id
  | collapseValues id => exact h.loses (loses_collapseValues id d)
  | selectValue id => exact hd.allots_selectValue hs h id
  | removeValue id value => exact h.loses (hd.loses_removeValue id value)
  | negate id => exact h.loses (loses_negate id d)
  | removeNode id => exact h.loses (loses_removeNode id d)
  | nextPage id =>
    simp only [Operation.run, Operation.outcome, Diagram.nextPage]
    split
    · exact h.turnPage id _
    · exact h
  | previousPage id =>
    simp only [Operation.run, Operation.outcome, Diagram.previousPage]
    split
    · exact h.turnPage id _
    · exact h

theorem ReachableBy.allots {admits : Operation → Diagram → Prop} (h : d.ReachableBy p admits) :
    d.Allots 0 0 := by
  induction h with
  | new pageSize => exact allots_of_nil rfl rfl
  | step h o _ ih => exact h.linked.allots_run h.displays ih p o

end Diagram

end PatternQuery
