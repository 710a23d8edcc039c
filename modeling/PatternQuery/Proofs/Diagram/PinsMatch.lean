import PatternQuery.Proofs.Diagram.Bare
import PatternQuery.Proofs.Diagram.Pinning

/-!
# When pins match what is shown

Pruning and removal take nodes away together with everything below them
(`Linked.removeSubtrees_eq_keep`), so one pin at most is affected, that of the node they hung from.
Pins match what is shown at any time, if and only if no operation misplaces some
(`Diagram.pinsMatch_throughout_iff`).
-/

namespace PatternQuery.Diagram

variable {d e : Diagram} {id x : NodeId} {n : Node}

/-! ## What goes -/

/-- Nothing leads to a node without a parent. -/
theorem Linked.isReachableFrom_of_parent_eq_none (h : d.Linked) (hn : n ∈ d.nodes)
    (hp : n.parent = none) (top : NodeId) : d.isReachableFrom top n.id = (n.id == top) := by
  have hnone : (d.links.find? fun l => l.target == n.id) = none := by
    rw [List.find?_eq_none]
    intro l hl ht
    have hparent := (h.parent_of_link hl hn (beq_iff_eq.1 ht).symm).1
    rw [hp] at hparent
    cases hparent
  rw [isReachableFrom, hnone, Bool.or_false]

/-- What is reached from a node is the node itself, or its parent is reached. -/
theorem Linked.eq_or_isReachableFrom_parent (h : d.Linked) (hn : n ∈ d.nodes) {top : NodeId}
    (hr : d.isReachableFrom top n.id = true) :
    n.id = top ∨ ∃ p, n.parent = some p ∧ d.isReachableFrom top p = true := by
  cases hp : n.parent with
  | none =>
    rw [h.isReachableFrom_of_parent_eq_none hn hp] at hr
    exact .inl (beq_iff_eq.1 hr)
  | some p =>
    rw [h.isReachableFrom_of_parent hn hp, Bool.or_eq_true, beq_iff_eq] at hr
    exact hr.imp_right fun hr => ⟨p, rfl, hr⟩

theorem keep_keep (alive alive' : NodeId → Bool) (r r' : Link → Bool) (d : Diagram) :
    (d.keep alive r).keep alive' r' =
      d.keep (fun x => alive x && alive' x) fun l => r l && r' l := by
  simp only [keep, List.filter_filter, Bool.and_comm]

/-- What goes with some nodes is one of them or hangs from something that goes. What was made before
them stays. -/
theorem Linked.removeSubtrees_eq_keep (h : d.Linked) (ids : List NodeId) : ∃ alive r,
    ids.foldl (fun d x => (d.removeSubtree x).2) d = d.keep alive r ∧
      (∀ c ∈ d.nodes, alive c.id = false →
        c.id ∈ ids ∨ ∃ p, c.parent = some p ∧ alive p = false) ∧
      (∀ x ∈ ids, alive x = false) ∧ ∀ y, (∀ x ∈ ids, y.number < x.number) → alive y = true := by
  induction ids generalizing d with
  | nil => exact ⟨fun _ => true, fun _ => true, by simp [Diagram.keep], by simp, by simp, by simp⟩
  | cons x ids ih =>
    obtain ⟨alive, r, heq, hgone, hids, hstay⟩ := ih (h.removeSubtree x)
    refine ⟨fun y => !d.isReachableFrom x y && alive y, fun l =>
      (!d.isReachableFrom x l.source && !d.isReachableFrom x l.target) && r l, ?_, ?_, ?_, ?_⟩
    · rw [List.foldl_cons, heq, removeSubtree_snd, keep_keep]
    · intro c hc hdead
      cases hreach : d.isReachableFrom x c.id with
      | true =>
        rcases h.eq_or_isReachableFrom_parent hc hreach with rfl | ⟨p, hp, hreach⟩
        · exact .inl List.mem_cons_self
        · exact .inr ⟨p, hp, by simp [hreach]⟩
      | false =>
        have hdead : alive c.id = false := by simpa [hreach] using hdead
        have hkept : c ∈ (d.removeSubtree x).2.nodes := by
          rw [removeSubtree_snd]
          exact List.mem_filter.2 ⟨hc, by simp [hreach]⟩
        rcases hgone c hkept hdead with hmem | ⟨p, hp, hdead⟩
        · exact .inl (List.mem_cons_of_mem x hmem)
        · exact .inr ⟨p, hp, by simp [hdead]⟩
    · rintro y (_ | ⟨_, hy⟩)
      · simp [isReachableFrom_self]
      · simp [hids y hy]
    · intro y hy
      simp [hstay y fun z hz => hy z (List.mem_cons_of_mem x hz),
        isReachableFrom_eq_false (hy x List.mem_cons_self)]

/-! ## Pruning -/

/-- The relations that lead away from a node lead to its children in the query. -/
theorem WellFormed.mem_children_iff (h : d.WellFormed) :
    x ∈ d.children id ↔ ∃ c ∈ d.nodes, c.id = x ∧ c.kind ≠ .value ∧ c.parent = some id := by
  simp only [children, relationLinks, List.mem_map, List.mem_filter, beq_iff_eq]
  constructor
  · rintro ⟨l, ⟨⟨hl, hk⟩, rfl⟩, rfl⟩
    obtain ⟨c, hc, ht, hp, hkind⟩ := h.edge_mem hl
    rw [hk] at hkind
    exact ⟨c, hc, ht, NodeKind.link_eq_relation_iff.1 hkind.symm, hp⟩
  · rintro ⟨c, hc, rfl, hk, hp⟩
    obtain ⟨l, hl, ht, hs, hkind⟩ := h.link_of_parent hc hp
    exact ⟨l, ⟨⟨hl, hkind.trans (NodeKind.link_eq_relation_iff.2 hk)⟩, hs⟩, ht⟩

theorem pins_pruneNegated_eq
    (hl : ((d.children id).foldl (fun d x => (d.removeSubtree x).2) d).Linked)
    (hn : ((d.children id).foldl (fun d x => (d.removeSubtree x).2) d).node? id = some n) :
    (d.pruneNegated id).pins = if n.expanded
      then Pin.hide n.pin ((d.children id).foldl (fun d x => (d.removeSubtree x).2) d).pins
      else ((d.children id).foldl (fun d x => (d.removeSubtree x).2) d).pins := by
  have hcount (e : Diagram) : (e.modify id fun n => { n with count := 0 }).pins = e.pins :=
    pins_modify_of_pin_eq (fun _ => rfl) fun _ => rfl
  unfold Diagram.pruneNegated
  rw [hcount]
  cases he : n.expanded with
  | true => exact hl.pins_collapseValues hn he
  | false => rw [collapseValues_of_collapsed (by simp [hn, he])]; rfl

theorem WellFormed.repins_pruneNegated (h : d.WellFormed) (hn : d.node? id = some n)
    (hk : n.kind ≠ .value) :
    d.Repins (d.pruneNegated id) (d.atPin id Pin.pruningMisplaces) := by
  have hbefore : ∀ y ∈ d.children id, id.number < y.number := fun _ hy =>
    h.toNumbered.number_lt_of_mem_children hy
  obtain ⟨alive, r, heq, hgone, hids, hstay⟩ := h.removeSubtrees_eq_keep (d.children id)
  have hmem := mem_of_node? hn
  have hid := id_of_node? hn
  have hself : alive n.id = true := by
    rw [hid]
    exact hstay id hbefore
  have hpruned := pins_pruneNegated_eq (h.removeSubtrees (d.children id)).toLinked
    ((node?_removeSubtrees hbefore).trans hn)
  rw [heq, pins_keep] at hpruned
  intro hu
  have hrest := hu.filter fun q => alive q.id
  refine ⟨?_, fun hfits => ?_⟩
  · rw [hpruned]
    split
    · exact hrest.hide n.pin
    · exact hrest
  · rw [h.atPin_eq hn hk]
    refine Pin.allFit_prune h.apart hu hfits (pin_mem_pins hmem hk) ?_ hself ?_ ?_ _ hpruned
    · intro q hq hdead
      obtain ⟨c, hc, hck, rfl⟩ := mem_pins.1 hq
      rcases hgone c hc hdead with hchild | ⟨p, hp, hdead⟩
      · obtain ⟨c', hc', hcid, -, hp⟩ := h.mem_children_iff.1 hchild
        obtain rfl := h.eq_of_id_eq hc' hc hcid
        exact .inl (by rw [← hid] at hp; exact hp)
      · obtain ⟨m, hm, rfl, hmk⟩ := h.parentLive c hc p hp
        exact .inr ⟨m.pin, pin_mem_pins hm hmk, hp, hdead⟩
    · intro q hq hp
      obtain ⟨c, hc, hck, rfl⟩ := mem_pins.1 hq
      exact hids c.id (h.mem_children_iff.2 ⟨c, hc, rfl, hck, by rw [← hid]; exact hp⟩)
    · intro q hq hp
      have hlt := h.parentBefore n hmem q.id hp
      refine hstay q.id fun y hy => Nat.lt_trans hlt ?_
      rw [hid]
      exact hbefore y hy

/-! ## Removal -/

theorem fitting_clear (d : Diagram) : Pin.Upheld d.clear.pins ∧ Pin.AllFit d.clear.pins := by
  rw [show d.clear.pins = [] from rfl]
  exact ⟨⟨by simp, by simp⟩, by simp [Pin.AllFit]⟩

/-- A candidate value shows no candidates, so its removal misplaces nothing. -/
theorem WellFormed.atPin_removalMisplaces (h : d.WellFormed) (hn : d.node? id = some n) :
    d.atPin id Pin.removalMisplaces = Pin.removalMisplaces d.pins n.pin := by
  by_cases hk : n.kind = .value
  · rw [h.atPin_eq_false (by simp [hn, hk]), Pin.removalMisplaces,
      show n.pin.expanded = false from (h.sound n (mem_of_node? hn)).collapsed hk, Bool.false_and]
  · exact h.atPin_eq hn hk _

/-- A child of a node shows candidates, if a given one does or another one. -/
theorem WellFormed.childShows_eq_or (h : d.WellFormed) (hn : n ∈ d.nodes)
    (hx : n.parent = some x) :
    Pin.childShows d.pins x = (n.expanded || Pin.otherShows d.pins x n.id) := by
  by_cases hk : n.kind = .value
  · -- A candidate shows none itself, and no pin has its number.
    rw [(h.sound n hn).collapsed hk, Bool.false_or, Bool.eq_iff_iff, Pin.childShows_eq_true,
      Pin.otherShows_eq_true]
    refine exists_congr fun q => and_congr_right fun hq => and_congr_right fun _ =>
      (and_iff_left ?_).symm
    obtain ⟨c, hc, hck, rfl⟩ := mem_pins.1 hq
    rintro hcid
    rw [h.eq_of_id_eq hc hn hcid] at hck
    exact hck hk
  · exact h.apart.childShows_eq_or (pin_mem_pins hn hk) hx

theorem WellFormed.repins_removeSubtree (h : d.WellFormed) (hn : d.node? id = some n)
    (hx : n.parent = some x) :
    d.Repins (d.removeSubtree id).2 (Pin.removalMisplaces d.pins n.pin) := by
  have hmem := mem_of_node? hn
  have hid := id_of_node? hn
  have hpins : (d.removeSubtree id).2.pins =
      d.pins.filter fun q => !d.isReachableFrom id q.id := by rw [removeSubtree_snd, pins_keep]
  have hparent : d.isReachableFrom id x = false := by
    apply isReachableFrom_eq_false
    rw [← hid]
    exact h.parentBefore n hmem x hx
  have hreach {c : Node} (hc : c ∈ d.nodes) (hp : c.parent = some x) :
      d.isReachableFrom id c.id = (c.id == id) := by
    rw [h.isReachableFrom_of_parent hc hp, hparent, Bool.or_false]
  intro hu
  rw [hpins]
  refine ⟨hu.filter _, fun hfits => ?_⟩
  refine Pin.allFit_filter_of_gone h.apart hfits (x := x) hx ?_ (h.childShows_eq_or hmem hx) ?_ ?_
  · intro q hq hdead
    obtain ⟨c, hc, hck, rfl⟩ := mem_pins.1 hq
    have hgone : d.isReachableFrom id c.id = true := by simpa [Node.pin] using hdead
    rcases h.eq_or_isReachableFrom_parent hc hgone with hcid | ⟨p, hp, hgone⟩
    · obtain rfl := h.eq_of_id_eq hmem hc (hid.trans hcid.symm)
      exact .inl hx
    · obtain ⟨m, hm, rfl, hmk⟩ := h.parentLive c hc p hp
      exact .inr ⟨m.pin, pin_mem_pins hm hmk, hp, by simp [Node.pin, hgone]⟩
  · intro q hq hqx
    rw [hqx, hparent]
    rfl
  · intro q hq hp
    obtain ⟨c, hc, hck, rfl⟩ := mem_pins.1 hq
    simp [Node.pin, hreach hc hp, hid]

theorem WellFormed.repins_removeNode (h : d.WellFormed) (id : NodeId) :
    d.Repins (d.removeNode id).2 (d.atPin id Pin.removalMisplaces) := by
  unfold Diagram.removeNode
  cases hn : d.node? id with
  | none =>
    rw [h.atPin_eq_false (by simp [hn])]
    exact .of_pins_eq rfl
  | some n =>
    have hmem := mem_of_node? hn
    rw [h.atPin_removalMisplaces hn]
    dsimp only
    split
    · rename_i hr
      have hp : n.pin.parent = none := (h.parent_eq_none_iff n hmem).2 (Node.isRoot_iff.1 hr)
      have hfree : Pin.removalMisplaces d.pins n.pin = false := by
        simp [Pin.removalMisplaces, Pin.parentFree, hp]
      rw [hfree]
      exact .of_fitting (fitting_clear d)
    · rename_i hr
      obtain ⟨x, hx⟩ := h.exists_parent hmem fun hk => hr (Node.isRoot_iff.2 hk)
      exact h.repins_removeSubtree hn hx

/-! ## Negation and unselection -/

theorem WellFormed.repins_removeValue (h : d.WellFormed) (id value : NodeId) :
    d.Repins (d.removeValue id value).2 ((Operation.removeValue id value).misplacesPins d) := by
  unfold Diagram.removeValue Operation.misplacesPins
  simp only [Operation.hides?]
  cases hn : d.node? id with
  | none => exact .of_pins_eq rfl
  | some n =>
    have hlast := loses_last_iff n.selected value
    have hpins : (d.modify id fun m =>
        { m with selected := n.selected.filter fun v => v.id != value }).pins = d.pins :=
      pins_modify_of_pin_eq (fun _ => rfl) fun _ => rfl
    -- If the node is no negation left without values, nothing is pruned.
    have hkept (hno : ¬ (n.negative = true ∧ n.selected.isEmpty = false ∧
        (n.selected.all fun v => v.id == value) = true)) :
        ¬ (n.negative && n.hasValue && n.selected.all fun v => v.id == value) = true := by
      simpa only [Node.hasValue, Bool.and_eq_true, Bool.not_eq_true', and_assoc] using hno
    simp only [Option.any_some]
    by_cases hlen : (n.selected.filter fun v => v.id != value).length = n.selected.length
    · rw [if_pos hlen, if_neg (hkept fun hall => (hlast.2 hall.2).1 hlen)]
      exact .of_pins_eq rfl
    · rw [if_neg hlen]
      have hquery := h.isQueryNode_of_selected hn (selected_ne_nil_of_filter hlen)
      obtain ⟨m, hm, hk⟩ := h.isQueryNode_iff.1 hquery
      obtain rfl : m = n := Option.some.inj (hm.symm.trans hn)
      by_cases hempty : m.negative = true ∧
          (m.selected.filter fun v => v.id != value).isEmpty = true
      · obtain ⟨hvalues, hall⟩ := hlast.1 ⟨hlen, hempty.2⟩
        simp only [hempty.1, hempty.2, hall, Node.hasValue, hvalues, Bool.and_self,
          Bool.not_false, ↓reduceIte, Option.any_some]
        rw [← atPin_congr hpins]
        have hselected := h.reselect hquery fun _ => m.selected.filter fun v => v.id != value
        refine (hselected.repins_pruneNegated (node?_modify_of_some ?_ hn id) ?_).after hpins
        · exact fun _ => rfl
        · rw [if_pos (id_of_node? hn)]
          exact hk
      · rw [if_neg (hkept fun hall => hempty ⟨hall.1, (hlast.2 hall.2).2⟩)]
        rw [← Bool.and_eq_true] at hempty
        rw [if_neg hempty]
        exact .of_pins_eq hpins

theorem WellFormed.repins_negate (h : d.WellFormed) (id : NodeId) :
    d.Repins (d.negate id).2 ((Operation.negate id).misplacesPins d) := by
  have hpins (b : Bool) (e : Diagram) :
      (e.modify id fun m => { m with negative := b }).pins = e.pins :=
    pins_modify_of_pin_eq (fun _ => rfl) fun _ => rfl
  unfold Diagram.negate Operation.misplacesPins
  simp only [Operation.hides?]
  cases hn : d.node? id with
  | none => exact .of_pins_eq rfl
  | some n =>
    cases hk : n.kind == .choose with
    | false => simpa [bne, hk] using Repins.of_pins_eq (d := d) rfl
    | true =>
      cases hneg : n.negative with
      | true => simpa [bne, hk, hneg] using Repins.of_pins_eq (hpins false d)
      | false =>
        cases hv : n.hasValue with
        | true => simpa [bne, hk, hneg, hv] using Repins.of_pins_eq (hpins true d)
        | false =>
          have hquery : n.kind ≠ .value := by simp [beq_iff_eq.1 hk]
          have hnegated : d.Repins
              ((d.pruneNegated id).modify id fun m => { m with negative := true })
              (d.atPin id Pin.pruningMisplaces) := by
            rw [Repins, hpins true]
            exact h.repins_pruneNegated hn hquery
          simpa [bne, hk, hneg, hv] using hnegated

/-! ## Building -/

/-- A well-formed diagram with pins that fit. -/
structure Tidy (d : Diagram) : Prop extends WellFormed d where
  upheld : Pin.Upheld d.pins
  fits : Pin.AllFit d.pins

theorem Tidy.repins (h : e.Tidy) (d : Diagram) : d.Repins e false := .of_fitting ⟨h.upheld, h.fits⟩

theorem Tidy.of_repins (hd : d.Tidy) (he : e.WellFormed) (h : d.Repins e false) : e.Tidy :=
  ⟨he, (h hd.upheld).1, ((h hd.upheld).2 hd.fits).2 rfl⟩

theorem WellFormed.repins_attachChild (h : d.WellFormed) (p : Provider) (s : Segment)
    {kind : NodeKind} (hk : kind = .choose ∨ kind = .group) :
    d.Repins (d.attachChild p id s kind).2 false := by
  have hvalue : kind ≠ .value := by rcases hk with rfl | rfl <;> simp
  have hroot : (childNode p id s kind d).pin.isRoot = false := by
    rcases hk with rfl | rfl <;> rfl
  intro hu
  rw [pins_attachChild p s hvalue]
  refine ⟨hu.append hroot rfl, fun hfits => ?_⟩
  refine iff_of_true (Pin.allFit_append hfits hroot rfl rfl fun q hq hp => ?_) rfl
  obtain ⟨c, hc, -, rfl⟩ := mem_pins.1 hq
  have hbefore := h.parentBefore c hc _ hp
  have hbound := h.bounded c hc
  simp only [Node.pin, childNode] at hbefore
  omega

theorem WellFormed.repins_expandRelationship (h : d.WellFormed) (p : Provider) (id : NodeId)
    (index : Nat) : d.Repins (d.expandRelationship p id index).2 false := by
  unfold Diagram.expandRelationship
  split
  · exact .of_pins_eq rfl
  · split
    · exact .of_pins_eq rfl
    · exact h.repins_attachChild p _ (.inl rfl)

theorem repins_setRelationships (id : NodeId) (segments : List Segment) (d : Diagram) :
    d.Repins (d.setRelationships id segments).2 false := by
  unfold Diagram.setRelationships
  split
  · exact .of_pins_eq rfl
  · exact .of_pins_eq (pins_modify_of_pin_eq (fun _ => rfl) fun _ => rfl)

theorem WellFormed.tidy_addRoot (h : d.WellFormed) (p : Provider) (label : String)
    (anchor : Option Position) : (d.addRoot p label anchor).2.Tidy := by
  obtain ⟨n, hnodes, hk, hf, he⟩ : ∃ n, (d.addRoot p label anchor).2.nodes = [n] ∧
      n.kind = .root ∧ n.fixed = true ∧ n.expanded = false := by
    unfold Diagram.addRoot
    cases hd : d.isEmpty with
    | true => exact ⟨_, by simp [addNode, List.isEmpty_iff.1 hd]; rfl, rfl, rfl, rfl⟩
    | false => exact ⟨_, by simp [addNode, Diagram.clear]; rfl, rfl, rfl, rfl⟩
  have hpins : (d.addRoot p label anchor).2.pins = [n.pin] := by simp [pins, hnodes, hk]
  have hroot : n.pin.isRoot = true := Node.isRoot_iff.2 hk
  refine ⟨h.addRoot p label anchor, ?_, ?_⟩
  · rw [hpins]
    refine ⟨fun q hq _ => ?_, fun q hq hshows => ?_⟩
    all_goals obtain rfl := List.mem_singleton.1 hq
    · exact hf
    · rw [show n.pin.expanded = false from he] at hshows
      cases hshows
  · rw [hpins]
    intro q hq
    obtain rfl := List.mem_singleton.1 hq
    rw [Pin.Fits, hroot, Bool.true_or, Bool.true_or]
    exact hf

theorem WellFormed.tidy_addSchema (h : d.WellFormed) (p : Provider) (s : Schema)
    (anchor : Option Position) : (d.addSchema p s anchor).2.Tidy := by
  refine (applySchema_induction (P := Tidy) p ?_ ?_ ?_ _ s _ (h.tidy_addRoot p s.label anchor)
    (isQueryNode_addRoot p s.label anchor d)).1
  · intro e id label rows he hid
    refine he.of_repins (he.selectRows label rows hid) (.of_pins_eq ?_)
    exact pins_modify_of_pin_eq (d := { e with nextNode := _ }) (fun _ => rfl) fun _ => rfl
  · intro e id segments he hid
    refine he.of_repins (he.relate segments hid) (.of_pins_eq ?_)
    exact pins_modify_of_pin_eq (fun _ => rfl) fun _ => rfl
  · intro e id s kind hk he hid
    exact he.of_repins (he.attachChild p s hk hid) (he.repins_attachChild p s hk)

/-! ## Operations -/

theorem WellFormed.repins_run (h : d.WellFormed) (p : Provider) (o : Operation) :
    d.Repins (o.run p d).2 (o.misplacesPins d) := by
  cases o with
  | addRoot label anchor => exact (h.tidy_addRoot p label anchor).repins d
  | addSchema s anchor => exact (h.tidy_addSchema p s anchor).repins d
  | clear => exact .of_fitting (fitting_clear d)
  | expandRelationship id index => exact h.repins_expandRelationship p id index
  | setRelationships id segments => exact repins_setRelationships id segments d
  | setData id rows => exact repins_setData id rows d
  | expandValues id => exact h.repins_expandValues id
  | collapseValues id => exact h.repins_collapseValues id
  | selectValue id => exact h.repins_selectValue id
  | removeValue id value => exact h.repins_removeValue id value
  | negate id => exact h.repins_negate id
  | removeNode id => exact h.repins_removeNode id
  | nextPage id => exact h.repins_nextPage id
  | previousPage id => exact h.repins_previousPage id

end PatternQuery.Diagram

namespace PatternQuery.Operation

/-- No operation misplaces pins when its turn comes. -/
def noneMisplacesPins (p : Provider) : List Operation → Diagram → Bool
  | [], _ => true
  | o :: rest, d => !o.misplacesPins d && noneMisplacesPins p rest (o.run p d).2

theorem allSpareValues_of_prefix {p : Provider} {d : Diagram} {taken ops : List Operation}
    (ht : taken <+: ops) (h : allSpareValues p ops d) : allSpareValues p taken d := by
  induction ops generalizing d taken with
  | nil =>
    rw [List.prefix_nil.1 ht]
    rfl
  | cons o rest ih =>
    cases taken with
    | nil => rfl
    | cons o' more =>
      obtain ⟨rfl, hmore⟩ := List.cons_prefix_cons.1 ht
      rw [allSpareValues, Bool.and_eq_true] at h ⊢
      exact ⟨h.1, ih hmore h.2⟩

end PatternQuery.Operation

namespace PatternQuery.Diagram

variable {d : Diagram} {p : Provider}

theorem tidy_new (pageSize : Nat) : (Diagram.new pageSize).Tidy where
  toWellFormed := .new pageSize
  upheld := (fitting_clear (.new pageSize)).1
  fits := (fitting_clear (.new pageSize)).2

theorem WellFormed.root_fixed (h : d.WellFormed) (hu : Pin.Upheld d.pins) (ops : List Operation)
    (hops : Operation.allSpareValues p ops d) :
    ∀ n ∈ (Operation.runAll p ops d).nodes, n.kind = .root → n.fixed = true := by
  induction ops generalizing d with
  | nil =>
    intro n hn hk
    exact hu.root n.pin (pin_mem_pins hn (by simp [hk])) (Node.isRoot_iff.2 hk)
  | cons o rest ih =>
    rw [Operation.allSpareValues, Bool.and_eq_true] at hops
    exact ih (h.run p o hops.1) (h.repins_run p o hu).1 hops.2

theorem Tidy.pinsMatch_throughout (h : d.Tidy) (ops : List Operation)
    (hops : Operation.allSpareValues p ops d) :
    (∀ taken, taken <+: ops → (Operation.runAll p taken d).PinsMatch) ↔
      Operation.noneMisplacesPins p ops d = true := by
  induction ops generalizing d with
  | nil => simpa [Operation.runAll, Operation.noneMisplacesPins] using h.pinsMatch_iff.2 h.fits
  | cons o rest ih =>
    rw [Operation.allSpareValues, Bool.and_eq_true] at hops
    have hnext := h.run p o hops.1
    obtain ⟨hupheld, hfits⟩ := h.repins_run p o h.upheld
    rw [Operation.noneMisplacesPins, Bool.and_eq_true, Bool.not_eq_true', ← hfits h.fits]
    constructor
    · intro hall
      have hfit := hnext.pinsMatch_iff.1 (hall [o] ⟨rest, rfl⟩)
      refine ⟨hfit, (ih ⟨hnext, hupheld, hfit⟩ hops.2).1 fun taken ht => ?_⟩
      exact hall (o :: taken) (List.cons_prefix_cons.2 ⟨rfl, ht⟩)
    · rintro ⟨hfit, hrest⟩ taken ht
      cases taken with
      | nil => exact h.pinsMatch_iff.2 h.fits
      | cons o' more =>
        obtain ⟨rfl, hmore⟩ := List.cons_prefix_cons.1 ht
        exact (ih ⟨hnext, hupheld, hfit⟩ hops.2).2 hrest more hmore

/-- The root is pinned at any time. Pins match what is shown at any time, if and only if no
operation misplaces some. -/
theorem pinsMatch_throughout_iff (p : Provider) (pageSize : Nat) (ops : List Operation)
    (hops : Operation.allSpareValues p ops (.new pageSize)) :
    (∀ taken, taken <+: ops →
      ∀ n ∈ (Operation.runAll p taken (.new pageSize)).nodes, n.kind = .root → n.fixed = true) ∧
    ((∀ taken, taken <+: ops → (Operation.runAll p taken (.new pageSize)).PinsMatch) ↔
      Operation.noneMisplacesPins p ops (.new pageSize) = true) := by
  have hnew := tidy_new pageSize
  refine ⟨fun taken ht => ?_, hnew.pinsMatch_throughout ops hops⟩
  exact hnew.root_fixed hnew.upheld taken (Operation.allSpareValues_of_prefix ht hops)

/-- Someone in a city, of which the country and the region are still to be chosen. The countries are
shown. -/
def openCountry : List Operation :=
  [.addSchema (.node "Person" [] [⟨"LIVES_IN", .node "City" []
      [⟨"IN", .node "Country" [] [] false, false⟩,
        ⟨"NEAR", .node "Region" [] [] false, false⟩] false, false⟩] false) none,
    .setData ⟨1⟩ [Table.empty], .setData ⟨2⟩ [Table.empty], .setData ⟨3⟩ [Table.empty],
    .expandValues ⟨2⟩]

/-- One after the other, countries and regions are shown and hidden. -/
theorem pinsMatch_of_turns :
    let ops := openCountry ++ [.collapseValues ⟨2⟩, .expandValues ⟨3⟩]
    Operation.allSpareValues .plain ops (.new 10) ∧
      ∀ taken, taken <+: ops → (Operation.runAll .plain taken (.new 10)).PinsMatch := by
  intro ops
  have hops : Operation.allSpareValues .plain ops (.new 10) := by decide +kernel
  exact ⟨hops, (pinsMatch_throughout_iff .plain 10 ops hops).2.2 (by decide +kernel)⟩

/-- The city stays pinned when the country goes, and it is unpinned while it shows its candidates
when the regions are hidden. -/
theorem not_pinsMatch_of_openCountry :
    (let d := Operation.runAll .plain (openCountry ++ [.removeNode ⟨2⟩]) (.new 10)
      ∃ n ∈ d.nodes, n.id = ⟨1⟩ ∧ n.kind = .choose ∧ n.fixed = true ∧ n.expanded = false ∧
        ∀ c ∈ d.nodes, c.expanded = false) ∧
    (let d := Operation.runAll .plain
        (openCountry ++ [.expandValues ⟨1⟩, .expandValues ⟨3⟩, .collapseValues ⟨3⟩]) (.new 10)
      ∃ n ∈ d.nodes, n.id = ⟨1⟩ ∧ n.expanded = true ∧ n.fixed = false) ∧
    ¬ ∀ (p : Provider) (pageSize : Nat) (ops : List Operation),
      Operation.allSpareValues p ops (.new pageSize) →
        (Operation.runAll p ops (.new pageSize)).PinsMatch := by
  refine ⟨by decide +kernel, by decide +kernel, fun hall => ?_⟩
  have hneeded := (hall .plain 10 (openCountry ++ [.removeNode ⟨2⟩]) (by decide +kernel)).needed
  revert hneeded
  decide +kernel

end PatternQuery.Diagram
