import PatternQuery.Proofs.Diagram.Orphans
import PatternQuery.Proofs.Diagram.Pins

/-!
# The pins of a diagram

What every operation does to the pins of the nodes of the query (`Diagram.pins`). Showing candidates
pins what has to be pinned. Whether hiding candidates, pruning and removing nodes leaves pins that
match what is shown depends on what else is shown nearby (`Operation.misplacesPins`).
-/

namespace PatternQuery

def Node.pin (n : Node) : Pin :=
  { id := n.id, parent := n.parent, isRoot := n.isRoot, filled := n.data.isSome
    expanded := n.expanded, fixed := n.fixed }

namespace Diagram

/-- The nodes of the query, in the order in which they were made. -/
def pins (d : Diagram) : List Pin := (d.nodes.filter fun n => n.kind != .value).map Node.pin

/-- What shows candidates is pinned, so is its parent, and nothing else is pinned but the root. -/
structure PinsMatch (d : Diagram) : Prop where
  expanded : ∀ n ∈ d.nodes, n.expanded = true → n.fixed = true
  parents : ∀ n ∈ d.nodes, n.expanded = true → ∀ x, n.parent = some x →
    ∃ m ∈ d.nodes, m.id = x ∧ m.fixed = true
  needed : ∀ n ∈ d.nodes, n.kind ≠ .value → n.kind ≠ .root → n.fixed = true →
    n.expanded = true ∨ ∃ c ∈ d.nodes, c.parent = some n.id ∧ c.expanded = true
  root : ∀ n ∈ d.nodes, n.kind = .root → n.fixed = true

/-- Something holds of the pin with this id, if there is one. -/
def atPin (d : Diagram) (id : NodeId) (f : List Pin → Pin → Bool) : Bool :=
  d.pins.any fun a => a.id == id && f d.pins a

end Diagram

/-- The operation leaves a pin behind that nothing needs, or takes one away that is needed. -/
def Operation.misplacesPins (o : Operation) (d : Diagram) : Bool :=
  match o with
  | collapseValues _ | selectValue _ => (o.hides? d).any fun id => d.atPin id Pin.hidingMisplaces
  | removeValue _ _ | negate _ => (o.hides? d).any fun id => d.atPin id Pin.pruningMisplaces
  | removeNode id => d.atPin id Pin.removalMisplaces
  | _ => false

namespace Diagram

variable {d d' e : Diagram} {id x : NodeId} {n m : Node} {q : Pin}

theorem mem_pins : q ∈ d.pins ↔ ∃ n ∈ d.nodes, n.kind ≠ .value ∧ n.pin = q := by
  simp [pins, and_assoc]

theorem pin_mem_pins (hn : n ∈ d.nodes) (hk : n.kind ≠ .value) : n.pin ∈ d.pins :=
  mem_pins.2 ⟨n, hn, hk, rfl⟩

theorem Numbered.apart (h : d.Numbered) : Pin.Apart d.pins where
  eq_of_id q hq q' hq' e := by
    obtain ⟨n, hn, -, rfl⟩ := mem_pins.1 hq
    obtain ⟨n', hn', -, rfl⟩ := mem_pins.1 hq'
    rw [h.eq_of_id_eq hn hn' e]
  parent_ne q hq hp := by
    obtain ⟨n, hn, -, rfl⟩ := mem_pins.1 hq
    have := h.parentBefore n hn _ hp
    simp only [Node.pin] at this
    omega

theorem Node.isRoot_iff : n.isRoot = true ↔ n.kind = .root := by simp [Node.isRoot]

/-- Pins match what is shown if every pin of the query fits. -/
theorem WellFormed.pinsMatch_iff (h : d.WellFormed) : d.PinsMatch ↔ Pin.AllFit d.pins := by
  -- What shows candidates is a node of the query, so children are looked for in either list.
  have hquery {n : Node} (hn : n ∈ d.nodes) (he : n.expanded = true) : n.kind ≠ .value := by
    intro hk
    rw [(h.sound n hn).collapsed hk] at he
    cases he
  have hshows (x : NodeId) : Pin.childShows d.pins x = true ↔
      ∃ c ∈ d.nodes, c.parent = some x ∧ c.expanded = true := by
    rw [Pin.childShows_eq_true]
    constructor
    · rintro ⟨q, hq, hp, he⟩
      obtain ⟨c, hc, -, rfl⟩ := mem_pins.1 hq
      exact ⟨c, hc, hp, he⟩
    · rintro ⟨c, hc, hp, he⟩
      exact ⟨c.pin, pin_mem_pins hc (hquery hc he), hp, he⟩
  have hfits (n : Node) : Pin.Fits d.pins n.pin ↔ (n.fixed = true ↔ n.kind = .root ∨
      n.expanded = true ∨ ∃ c ∈ d.nodes, c.parent = some n.id ∧ c.expanded = true) := by
    rw [Pin.Fits, Bool.eq_iff_iff, Bool.or_eq_true, Bool.or_eq_true, hshows, or_assoc]
    exact Iff.of_eq (congrArg₂ _ rfl (congrArg₂ _ (propext Node.isRoot_iff) rfl))
  constructor
  · intro hm q hq
    obtain ⟨n, hn, hk, rfl⟩ := mem_pins.1 hq
    rw [hfits]
    constructor
    · intro hf
      by_cases hr : n.kind = .root
      · exact .inl hr
      · exact .inr (hm.needed n hn hk hr hf)
    · rintro (hr | he | ⟨c, hc, hp, he⟩)
      · exact hm.root n hn hr
      · exact hm.expanded n hn he
      · obtain ⟨m, hmem, hid, hf⟩ := hm.parents c hc he _ hp
        rwa [h.eq_of_id_eq hmem hn hid] at hf
  · intro hall
    have hfit (n : Node) (hn : n ∈ d.nodes) (hk : n.kind ≠ .value) :=
      (hfits n).1 (hall n.pin (pin_mem_pins hn hk))
    refine ⟨fun n hn he => ?_, fun n hn he x hx => ?_, fun n hn hk hr hf => ?_, fun n hn hr => ?_⟩
    · exact (hfit n hn (hquery hn he)).2 (.inr (.inl he))
    · obtain ⟨m, hmem, rfl, hk⟩ := h.parentLive n hn x hx
      exact ⟨m, hmem, rfl, (hfit m hmem hk).2 (.inr (.inr ⟨n, hn, hx, he⟩))⟩
    · exact ((hfit n hn hk).1 hf).resolve_left hr
    · exact (hfit n hn (by simp [hr])).2 (.inl hr)

/-! ## Edits -/

theorem pins_modify {f : Node → Node} {g : Pin → Pin} (hkind : ∀ n, (f n).kind = n.kind)
    (hpin : ∀ n, (f n).pin = g n.pin) : (d.modify id f).pins = Pin.update id g d.pins := by
  simp only [pins, modify, Pin.update, List.filter_map, List.map_map]
  have hfilter : ((fun n : Node => n.kind != .value) ∘ fun n => if n.id = id then f n else n) =
      fun n => n.kind != .value := by
    funext n
    simp only [Function.comp]
    split
    · rw [hkind]
    · rfl
  rw [hfilter]
  refine List.map_congr_left fun n _ => ?_
  simp only [Function.comp]
  by_cases hid : n.id = id
  · rw [if_pos hid, hpin, if_pos (show n.pin.id = id from hid)]
  · rw [if_neg hid, if_neg (show ¬ n.pin.id = id from hid)]

theorem pins_modify_of_pin_eq {f : Node → Node} (hkind : ∀ n, (f n).kind = n.kind)
    (hpin : ∀ n, (f n).pin = n.pin) : (d.modify id f).pins = d.pins := by
  rw [pins_modify (g := fun q => q) hkind hpin, Pin.update]
  simp

theorem pins_setPinned (parent : Option NodeId) (fixed : Bool) (d : Diagram) :
    (d.setPinned parent fixed).pins = Pin.setParent parent fixed d.pins := by
  cases parent with
  | none => simp [setPinned, Pin.setParent]
  | some x =>
    unfold setPinned
    rw [pins_modify (g := fun q => if q.isRoot then q else { q with fixed })]
    · refine List.map_congr_left fun q _ => ?_
      by_cases hid : q.id = x
      · cases hr : q.isRoot <;> simp [hid, hr]
      · rw [if_neg hid, if_neg fun h => hid (Option.some.inj h.1).symm]
    · intro n
      split <;> rfl
    · intro n
      cases hr : n.isRoot with
      | true => simp [Node.pin, hr]
      | false =>
        have hroot : Node.isRoot { n with fixed } = n.isRoot := rfl
        simp [Node.pin, hroot, hr]

theorem pins_keep (alive : NodeId → Bool) (r : Link → Bool) (d : Diagram) :
    (d.keep alive r).pins = d.pins.filter fun q => alive q.id := by
  simp only [pins, keep, List.filter_map, List.filter_filter]
  refine congrArg (List.map Node.pin) (List.filter_congr fun n _ => ?_)
  rw [Bool.and_comm]
  rfl

theorem Linked.pins_withoutValues (h : d.Linked) (id : NodeId) :
    (d.withoutValues id).pins = d.pins := by
  rw [Diagram.withoutValues, pins_keep, List.filter_eq_self]
  intro q hq
  obtain ⟨n, hn, hk, rfl⟩ := mem_pins.1 hq
  rw [Bool.not_eq_true', ← Bool.not_eq_true, List.contains_iff_mem]
  exact fun hshown => hk ((h.mem_shown_iff id hn).1 hshown).1

theorem pins_addValueNodes (id : NodeId) (label : String) (rows : List Row) (d : Diagram) :
    (rows.foldl (addValueNode id label) d).pins = d.pins := by
  obtain ⟨vs, -, hnodes, -, hvalues, -⟩ := addValueNodes_append id label rows d
  have hnone : (vs.filter fun n => n.kind != .value) = [] := by
    rw [List.filter_eq_nil_iff]
    intro v hv
    simp [(hvalues v hv).1]
  rw [pins, hnodes, List.filter_append, hnone, List.append_nil, pins]

theorem pins_attachChild (p : Provider) (s : Segment) {kind : NodeKind} (hk : kind ≠ .value)
    (d : Diagram) : (d.attachChild p id s kind).2.pins =
      d.pins ++ [(childNode p id s kind d).pin] := by
  have hkind : ((childNode p id s kind d).kind != .value) = true := bne_iff_ne.2 hk
  rw [attachChild_eq]
  simp only [pins, attach, List.filter_append, List.map_append]
  rw [List.filter_singleton, hkind]
  rfl

theorem Linked.pins_collapseValues (h : d.Linked) (hn : d.node? id = some n)
    (he : n.expanded = true) : (d.collapseValues id).2.pins = Pin.hide n.pin d.pins := by
  have hhidden (e : Diagram) :
      (e.modify id fun n => { n with expanded := false, fixed := n.isRoot && n.fixed }).pins =
        Pin.update id Pin.hidden e.pins := pins_modify (fun _ => rfl) fun _ => rfl
  rw [collapseValues_eq hn he, pins_setPinned, hhidden, h.pins_withoutValues, Pin.hide,
    show n.pin.id = id from id_of_node? hn]
  rfl

theorem WellFormed.pins_expandValues (h : d.WellFormed) {rows : List Row}
    (hn : d.node? id = some n) (hr : n.data = some rows) :
    (d.expandValues id).2.pins = Pin.display n.pin d.pins := by
  obtain ⟨m, hm, hk⟩ := h.isQueryNode_iff.1 (h.isQueryNode_of_data hn hr)
  obtain rfl : m = n := Option.some.inj (hm.symm.trans hn)
  have hshown (e : Diagram) :
      (e.modify id fun n => { n with fixed := true, expanded := true }).pins =
        Pin.update id Pin.shown e.pins := pins_modify (fun _ => rfl) fun _ => rfl
  have hdisplay : (d.expandValues id).2.pins = Pin.display m.pin (d.collapseValues id).2.pins := by
    rw [expandValues_eq hn hr, pins_setPinned, hshown, pins_addValueNodes, Pin.display,
      show m.pin.id = id from id_of_node? hn]
    rfl
  rw [hdisplay]
  cases he : m.expanded with
  | true =>
    rw [h.pins_collapseValues hn he, Pin.display_hide h.apart (pin_mem_pins (mem_of_node? hn) hk)]
  | false => rw [collapseValues_of_collapsed (by simp [hn, he])]

/-! ## What an edit makes of pins -/

/-- The root stays pinned, what shows candidates has some, and where the pins fitted, they still do
unless some were misplaced. -/
def Repins (d d' : Diagram) (misplaced : Bool) : Prop :=
  Pin.Upheld d.pins →
    Pin.Upheld d'.pins ∧ (Pin.AllFit d.pins → (Pin.AllFit d'.pins ↔ misplaced = false))

theorem Repins.of_pins_eq (h : d'.pins = d.pins) : d.Repins d' false := by
  intro hu
  rw [h]
  exact ⟨hu, fun hfits => iff_of_true hfits rfl⟩

/-- An edit that changes no pin may come first. -/
theorem Repins.after {misplaced : Bool} (h : e.Repins d' misplaced) (he : e.pins = d.pins) :
    d.Repins d' misplaced := by
  unfold Repins at h ⊢
  rwa [he] at h

theorem Repins.of_fitting (h : Pin.Upheld d'.pins ∧ Pin.AllFit d'.pins) : d.Repins d' false :=
  fun _ => ⟨h.1, fun _ => iff_of_true h.2 rfl⟩

theorem atPin_congr (h : d'.pins = d.pins) (id : NodeId) (f : List Pin → Pin → Bool) :
    d'.atPin id f = d.atPin id f := by
  rw [atPin, h, atPin]

theorem Numbered.atPin_eq (h : d.Numbered) (hn : d.node? id = some n) (hk : n.kind ≠ .value)
    (f : List Pin → Pin → Bool) : d.atPin id f = f d.pins n.pin := by
  have hmem := pin_mem_pins (mem_of_node? hn) hk
  have hid : n.pin.id = id := id_of_node? hn
  rw [Bool.eq_iff_iff, atPin, List.any_eq_true]
  simp only [Bool.and_eq_true, beq_iff_eq]
  constructor
  · rintro ⟨q, hq, hqid, hf⟩
    rwa [h.apart.eq_of_id q hq n.pin hmem (hqid.trans hid.symm)] at hf
  · exact fun hf => ⟨n.pin, hmem, hid, hf⟩

theorem Numbered.atPin_eq_false (h : d.Numbered) (hn : ∀ n, d.node? id = some n → n.kind = .value)
    (f : List Pin → Pin → Bool) : d.atPin id f = false := by
  rw [atPin, List.any_eq_false]
  intro q hq hf
  obtain ⟨n, hmem, hk, rfl⟩ := mem_pins.1 hq
  simp only [Bool.and_eq_true, beq_iff_eq] at hf
  exact hk (hn n (h.node?_eq_some.2 ⟨hmem, hf.1⟩))

/-! ## Candidates -/

theorem WellFormed.kind_of_expanded (h : d.WellFormed) (hn : d.node? id = some n)
    (he : n.expanded = true) : n.kind ≠ .value := fun hk => by
  rw [(h.sound n (mem_of_node? hn)).collapsed hk] at he
  cases he

theorem WellFormed.repins_collapseValues (h : d.WellFormed) (id : NodeId) :
    d.Repins (d.collapseValues id).2 (d.atPin id Pin.hidingMisplaces) := by
  have hkept (hno : ∀ n, d.node? id = some n → n.expanded = false)
      (hat : d.atPin id Pin.hidingMisplaces = false) :
      d.Repins (d.collapseValues id).2 (d.atPin id Pin.hidingMisplaces) := by
    rw [hat]
    exact .of_pins_eq (by rw [collapseValues_of_collapsed hno])
  cases hn : d.node? id with
  | none => exact hkept (by simp [hn]) (h.atPin_eq_false (by simp [hn]) _)
  | some n =>
    cases he : n.expanded with
    | false =>
      refine hkept (by simp [hn, he]) ?_
      by_cases hk : n.kind = .value
      · exact h.atPin_eq_false (by simp [hn, hk]) _
      · rw [h.atPin_eq hn hk, Pin.hidingMisplaces, show n.pin.expanded = false from he,
          Bool.false_and]
    | true =>
      have hk := h.kind_of_expanded hn he
      intro hu
      rw [h.pins_collapseValues hn he, h.atPin_eq hn hk]
      refine ⟨hu.hide n.pin, fun hfits => ?_⟩
      exact Pin.allFit_hide h.apart hu (pin_mem_pins (mem_of_node? hn) hk) he
        fun q hq _ => hfits q hq

theorem WellFormed.repins_expandValues (h : d.WellFormed) (id : NodeId) :
    d.Repins (d.expandValues id).2 false := by
  intro hu
  by_cases hr : ∀ n, d.node? id = some n → n.data = none
  · -- What has no candidates shows none, so nothing is hidden.
    have hcollapsed : ∀ n, d.node? id = some n → n.expanded = false := by
      intro n hn
      rw [← Bool.not_eq_true]
      intro he
      have hk := h.kind_of_expanded hn he
      have hfilled := hu.filled n.pin (pin_mem_pins (mem_of_node? hn) hk) he
      simp [Node.pin, hr n hn] at hfilled
    rw [expandValues_of_none hr, collapseValues_of_collapsed hcollapsed]
    exact ⟨hu, fun hfits => iff_of_true hfits rfl⟩
  · push Not at hr
    obtain ⟨n, hn, hdata⟩ := hr
    obtain ⟨rows, hrows⟩ := Option.ne_none_iff_exists'.1 hdata
    obtain ⟨m, hm, hk⟩ := h.isQueryNode_iff.1 (h.isQueryNode_of_data hn hrows)
    obtain rfl : m = n := Option.some.inj (hm.symm.trans hn)
    have hmem := pin_mem_pins (mem_of_node? hn) hk
    rw [h.pins_expandValues hn hrows]
    refine ⟨hu.display h.apart hmem (by simp [Node.pin, hrows]), fun hfits => ?_⟩
    exact iff_of_true (Pin.allFit_display h.apart hu hmem hfits) rfl

theorem WellFormed.repins_turnPage (h : d.WellFormed) (id : NodeId) (turn : Nat → Nat) :
    d.Repins (d.turnPage id turn).2 false := by
  have hturned : (d.modify id fun n => { n with page := turn n.page }).WellFormed :=
    h.restyle fun _ => rfl
  rw [turnPage_snd]
  exact (hturned.repins_expandValues id).after (pins_modify_of_pin_eq (fun _ => rfl) fun _ => rfl)

theorem WellFormed.repins_nextPage (h : d.WellFormed) (id : NodeId) :
    d.Repins (d.nextPage id).2 false := by
  unfold Diagram.nextPage
  split
  · exact h.repins_turnPage id _
  · exact .of_pins_eq rfl

theorem WellFormed.repins_previousPage (h : d.WellFormed) (id : NodeId) :
    d.Repins (d.previousPage id).2 false := by
  unfold Diagram.previousPage
  split
  · exact h.repins_turnPage id _
  · exact .of_pins_eq rfl

theorem repins_setData (id : NodeId) (rows : List Row) (d : Diagram) :
    d.Repins (d.setData id rows).2 false := by
  unfold Diagram.setData
  split
  · exact .of_pins_eq rfl
  · intro hu
    have hpins : (d.modify id fun n => { n with data := some rows, page := 1 }).pins =
        Pin.update id Pin.fill d.pins := pins_modify (fun _ => rfl) fun _ => rfl
    rw [hpins]
    exact ⟨hu.fill id, fun hfits => iff_of_true (Pin.allFit_fill hfits) rfl⟩

theorem WellFormed.repins_selectValue (h : d.WellFormed) (id : NodeId) :
    d.Repins (d.selectValue id).2 ((Operation.selectValue id).misplacesPins d) := by
  unfold Diagram.selectValue Operation.misplacesPins
  cases hn : d.node? id with
  | none =>
    rw [show (Operation.selectValue id).hides? d = none by simp [Operation.hides?, hn]]
    exact .of_pins_eq rfl
  | some n =>
    rw [hides?_selectValue hn]
    dsimp only
    split
    · rename_i parent hk hp
      rw [if_pos hk, hp, Option.any_some]
      obtain ⟨m, hm, hid, hquery⟩ := h.parentLive n (mem_of_node? hn) parent hp
      rw [h.node?_eq_some.2 ⟨hm, hid⟩]
      have hselected (v : SelectedValue) :=
        h.reselect ⟨m, hm, hid, hquery⟩ fun n => n.selected ++ [v]
      have hpins (v : SelectedValue) :
          (d.modify parent fun n => { n with selected := n.selected ++ [v] }).pins = d.pins :=
        pins_modify_of_pin_eq (fun _ => rfl) fun _ => rfl
      rw [← atPin_congr (hpins _)]
      exact ((hselected _).repins_collapseValues parent).after (hpins _)
    · rename_i hno
      have hnone : (if n.kind = .value then n.parent else none) = none := by
        split
        · exact Option.eq_none_iff_forall_ne_some.2 fun x hx => hno x ‹_› hx
        · rfl
      rw [hnone]
      exact .of_pins_eq rfl

end Diagram

end PatternQuery
