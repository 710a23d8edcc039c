import Mathlib.Algebra.Ring.Int.Defs
import PatternQuery.Proofs.Diagram.Reading
import PatternQuery.Proofs.Diagram.Reshowing
import PatternQuery.Proofs.Session.Selection

/-!
# Where selected values come from

Every selected value stands for a row (`SelectedValue.StandsFor`): one that was shown and chosen, or
one of a schema. The identifier is read off the row when the value is made, as a whole number of 64
bits, everything else when it is asked for. So a selected value holds for an attribute what its row
holds, except where an identifier is asked for and the row holds something else
(`Diagram.provenance_of_reachable`).
-/

namespace PatternQuery

variable {a : Attribute} {row : Row} {v : SelectedValue} {n n' : Node}

/-! ## Values and rows -/

/-- An identifier as nodes have it: a whole number of 64 bits, or none at all. -/
def Value.IsIdentifier (x : Value) : Prop :=
  x = .null ∨ ∃ n : Int, -2 ^ 63 ≤ n ∧ n < 2 ^ 63 ∧ x = .int n

/-- What a row holds for an attribute can be told from it once it is selected. -/
def Row.IsReadable (row : Row) (a : Attribute) : Prop :=
  a = .internalId → (Row.constraintValue row a).IsIdentifier

/-- The value has the attributes of a row, and its constraints wherever these are readable. -/
structure SelectedValue.StandsFor (v : SelectedValue) (row : Row) : Prop where
  attributes : v.attributes = row
  constraintValue_iff : ∀ a, v.constraintValue a = Row.constraintValue row a ↔ Row.IsReadable row a

/-- The identifier is the one that is read off the attributes. -/
def SelectedValue.Genuine (v : SelectedValue) : Prop := v.internalId = Row.internalId v.attributes

theorem Value.toInt64?_isSome_iff (x : Value) :
    x.toInt64?.isSome = true ↔ ∃ n : Int, -2 ^ 63 ≤ n ∧ n < 2 ^ 63 ∧ x = .int n := by
  cases x with
  | int k =>
    have hread : (Value.int k).toInt64?.isSome = true ↔ -2 ^ 63 ≤ k ∧ k < 2 ^ 63 := by
      show (if -Int.pow 2 63 ≤ k ∧ k < Int.pow 2 63 then some (Int64.ofInt k) else none).isSome =
        true ↔ _
      split
      · exact ⟨fun _ => ‹_›, fun _ => rfl⟩
      · exact ⟨nofun, fun hk => absurd hk ‹_›⟩
    rw [hread]
    constructor
    · exact fun hk => ⟨k, hk.1, hk.2, rfl⟩
    · rintro ⟨n, hlo, hhi, hn⟩
      rw [Value.int.inj hn]
      exact ⟨hlo, hhi⟩
  | _ => simp [Value.toInt64?]

/-- A value that is read as an identifier and written again stays what it is if it is one. -/
theorem Value.ofOption_toInt64?_eq_iff (x : Value) :
    Value.ofOption Value.ofInt64 x.toInt64? = x ↔ x.IsIdentifier := by
  unfold Value.IsIdentifier
  rw [← x.toInt64?_isSome_iff]
  cases hx : x.toInt64? with
  | none => simp [Value.ofOption, eq_comm]
  | some i => simp [Value.ofOption, Value.ofInt64_of_toInt64? hx]

theorem SelectedValue.Genuine.standsFor (h : v.Genuine) : v.StandsFor v.attributes := by
  refine ⟨rfl, fun a => ?_⟩
  cases a with
  | property name => simp [SelectedValue.constraintValue, Row.constraintValue, Attribute.column,
      Row.IsReadable]
  | internalId =>
    have hvalue : v.constraintValue .internalId = Value.ofOption Value.ofInt64
        (Row.constraintValue v.attributes .internalId).toInt64? := by
      rw [SelectedValue.constraintValue, h, Row.internalId, Row.constraintValue, Attribute.column]
      cases v.attributes.get? internalIdColumn <;> rfl
    rw [hvalue, Value.ofOption_toInt64?_eq_iff]
    simp [Row.IsReadable]

theorem SelectedValue.genuine_ofRow (id : NodeId) (label : String) (row : Row) :
    (SelectedValue.ofRow id label row).Genuine :=
  rfl

/-! ## Nodes -/

/-- A candidate value offers some row, and what is selected is genuine. -/
structure Node.Genuine (n : Node) : Prop where
  candidate : n.kind = .value → ∃ row, n.Offers row
  selected : ∀ v ∈ n.selected, v.Genuine

theorem Node.Genuine.of_origin (h : n.Genuine) (ho : n'.origin = n.origin)
    (hs : ∀ v ∈ n'.selected, v.Genuine) : n'.Genuine where
  candidate hk := by
    obtain ⟨row, hrow⟩ := h.candidate (Node.kind_of_origin ho ▸ hk)
    exact ⟨row, hrow.of_origin ho⟩
  selected := hs

theorem Node.Genuine.keeps (h : n.Genuine) (hk : n.Keeps n') : n'.Genuine :=
  h.of_origin hk.origin fun v hv => h.selected v (hk.selected hv)

theorem Node.Offers.genuine_pickedValue (h : n.Offers row) : (Diagram.pickedValue n).Genuine := by
  simp [SelectedValue.Genuine, Diagram.pickedValue, h.attributes, h.internalId]

namespace Diagram

/-- Whatever is shown or selected comes from a row. -/
def Genuine (d : Diagram) : Prop := ∀ n ∈ d.nodes, n.Genuine

variable {p : Provider} {d d' : Diagram} {id x : NodeId} {m : Node}

/-! ## Edits -/

theorem genuine_of_nil (h : d.nodes = []) : d.Genuine := by simp [Genuine, h]

theorem Genuine.append (h : d.Genuine) (hnodes : d'.nodes = d.nodes ++ [n]) (hn : n.Genuine) :
    d'.Genuine := by
  intro m hm
  rw [hnodes] at hm
  rcases List.mem_append.1 hm with hm | hm
  · exact h m hm
  · rwa [List.mem_singleton.1 hm]

theorem Genuine.modify (h : d.Genuine) {f : Node → Node} (ho : ∀ n, (f n).origin = n.origin)
    (hs : ∀ n : Node, n.Genuine → ∀ v ∈ (f n).selected, v.Genuine) : (d.modify id f).Genuine := by
  intro n' hn'
  obtain ⟨n, hn, rfl⟩ := mem_modify.1 hn'
  split
  · exact (h n hn).of_origin (ho n) (hs n (h n hn))
  · exact h n hn

theorem Genuine.of_traces (h : d.Genuine) (hd : d.Numbered) (ht : d.Traces d')
    (hw : d'.Within d) : d'.Genuine := by
  intro n' hn'
  rcases ht.nodes n' hn' with ⟨n, hn, hkeeps⟩ | hfresh
  · exact (h n hn).keeps hkeeps
  · -- A new number would go beyond all those that there are.
    obtain ⟨n, hn, horigin⟩ := hw n' hn'
    have hbound := hd.bounded n hn
    have hnumber := hfresh.number
    rw [← Node.id_of_origin horigin] at hbound
    omega

theorem Genuine.collapseValues (h : d.Genuine) (hd : d.Numbered) (id : NodeId) :
    (d.collapseValues id).2.Genuine :=
  h.of_traces hd ((Traces.refl d).collapseValues id) ((Within.refl d).collapseValues id)

theorem Genuine.setPinned (h : d.Genuine) (parent : Option NodeId) (fixed : Bool) :
    (d.setPinned parent fixed).Genuine := by
  cases parent with
  | none => exact h
  | some y =>
    refine h.modify (fun n => ?_) fun n hn v hv => hn.selected v ?_
    · split <;> rfl
    · split at hv <;> exact hv

theorem Genuine.expandValues (h : d.Genuine) (hd : d.Numbered) (id : NodeId) :
    (d.expandValues id).2.Genuine := by
  have hhidden := h.collapseValues hd id
  cases hn : d.node? id with
  | none => rwa [expandValues_of_none (by simp [hn])]
  | some n =>
    cases hr : n.data with
    | none => rwa [expandValues_of_none (by simp [hn, hr])]
    | some rows =>
      rw [expandValues_eq hn hr]
      have hshown : ((pageRows (d.collapseValues id).2.pageSize n rows).foldl
          (addValueNode id n.label) (d.collapseValues id).2).Genuine := by
        intro m hm
        rcases mem_addValueNodes hm with hm | ⟨-, -, -, hnone, row, -, hoffers⟩
        · exact hhidden m hm
        · exact ⟨fun _ => ⟨row, hoffers⟩, by simp [hnone]⟩
      refine Genuine.setPinned ?_ _ _
      exact hshown.modify (fun _ => rfl) fun n hn => hn.selected

theorem Genuine.turnPage (h : d.Genuine) (hd : d.Linked) (id : NodeId) (turn : Nat → Nat) :
    (d.turnPage id turn).2.Genuine := by
  have hturned : (d.modify id fun n => { n with page := turn n.page }).Genuine :=
    h.modify (fun _ => rfl) fun n hn => hn.selected
  have hlinked : (d.modify id fun n => { n with page := turn n.page }).Linked :=
    hd.modify fun _ => rfl
  rw [turnPage_snd]
  exact hturned.expandValues hlinked.toNumbered id

theorem Genuine.selectValue (h : d.Genuine) (hd : d.Linked) (id : NodeId) :
    (d.selectValue id).2.Genuine := by
  unfold Diagram.selectValue
  split
  · exact h
  · rename_i m hm
    split
    · rename_i parent hk hp
      split
      · exact h
      · obtain ⟨row, hoffers⟩ := (h m (mem_of_node? hm)).candidate hk
        have hpicked : (d.pick parent (pickedValue m)).Genuine := by
          refine h.modify (fun _ => rfl) fun n hn v hv => ?_
          rcases List.mem_append.1 hv with hv | hv
          · exact hn.selected v hv
          · rw [List.mem_singleton.1 hv]
            exact hoffers.genuine_pickedValue
        have hlinked : (d.pick parent (pickedValue m)).Linked := hd.modify fun _ => rfl
        exact hpicked.collapseValues hlinked.toNumbered parent
    · exact h

/-! ## Building -/

theorem genuine_childNode (p : Provider) (id : NodeId) (s : Segment) {kind : NodeKind}
    (hk : kind = .choose ∨ kind = .group) (d : Diagram) : (childNode p id s kind d).Genuine where
  candidate := by rcases hk with rfl | rfl <;> simp [childNode]
  selected := by simp [childNode]

theorem Genuine.attachChild (h : d.Genuine) (p : Provider) (id : NodeId) (s : Segment)
    {kind : NodeKind} (hk : kind = .choose ∨ kind = .group) :
    (d.attachChild p id s kind).2.Genuine := by
  rw [attachChild_eq]
  exact h.append rfl (genuine_childNode p id s hk d)

theorem genuine_addRoot (p : Provider) (label : String) (anchor : Option Position) (d : Diagram) :
    (d.addRoot p label anchor).2.Genuine := by
  unfold Diagram.addRoot
  split
  · rename_i hd
    refine (genuine_of_nil (List.isEmpty_iff.1 hd)).append rfl ⟨?_, ?_⟩ <;> simp
  · refine (genuine_of_nil (d := d.clear) rfl).append rfl ⟨?_, ?_⟩ <;> simp

theorem Genuine.selectRows (h : d.Genuine) (id : NodeId) (label : String) (rows : List Row) :
    (d.selectRows id label rows).Genuine := by
  have haside : ({ d with nextNode := d.nextNode + rows.length } : Diagram).Genuine := h
  refine haside.modify (fun _ => rfl) fun n _ v hv => ?_
  obtain ⟨i, hi, rfl⟩ := List.mem_mapIdx.1 hv
  exact SelectedValue.genuine_ofRow _ _ _

theorem genuine_addSchema (p : Provider) (s : Schema) (anchor : Option Position) (d : Diagram) :
    (d.addSchema p s anchor).2.Genuine :=
  (applySchema_induction p (fun _ id label rows h _ => h.selectRows id label rows)
    (fun _ _ _ h _ => h.modify (fun _ => rfl) fun _ hn => hn.selected)
    (fun _ id s _ hk h _ => h.attachChild p id s hk) _ s _ (genuine_addRoot p s.label anchor d)
    (isQueryNode_addRoot p s.label anchor d)).1

/-! ## Pruning -/

theorem Genuine.pruneNegated (h : d.Genuine) (hd : d.Numbered) (id : NodeId) :
    (d.pruneNegated id).Genuine :=
  h.of_traces hd ((Traces.refl d).pruneNegated id) ((Within.refl d).pruneNegated id)

theorem Genuine.removeValue (h : d.Genuine) (hd : d.Linked) (id value : NodeId) :
    (d.removeValue id value).2.Genuine := by
  unfold Diagram.removeValue
  split
  · exact h
  · rename_i n hn
    have hunselected : (d.modify id fun m =>
        { m with selected := n.selected.filter fun v => v.id != value }).Genuine := by
      refine h.modify (fun _ => rfl) fun _ _ v hv => ?_
      exact (h n (mem_of_node? hn)).selected v (List.mem_of_mem_filter hv)
    have hlinked : (d.modify id fun m =>
        { m with selected := n.selected.filter fun v => v.id != value }).Linked :=
      hd.modify fun _ => rfl
    dsimp only
    split
    · exact h
    · split
      · exact hunselected.pruneNegated hlinked.toNumbered id
      · exact hunselected

theorem Genuine.negate (h : d.Genuine) (hd : d.Numbered) (id : NodeId) :
    (d.negate id).2.Genuine := by
  have hset {e : Diagram} (he : e.Genuine) (negative : Bool) :
      (e.modify id fun n => { n with negative }).Genuine :=
    he.modify (fun _ => rfl) fun _ hn => hn.selected
  unfold Diagram.negate
  split
  · exact h
  · split
    · exact h
    · split
      · exact hset h false
      · dsimp only
        split
        · exact hset h true
        · exact hset (h.pruneNegated hd id) true

/-! ## Operations -/

theorem Genuine.run (h : d.Genuine) (hd : d.Linked) (p : Provider) (o : Operation) :
    (o.run p d).2.Genuine := by
  cases o with
  | addRoot label anchor => exact genuine_addRoot p label anchor d
  | addSchema s anchor => exact genuine_addSchema p s anchor d
  | clear => exact genuine_of_nil rfl
  | expandRelationship id index =>
    simp only [Operation.run, Operation.outcome, Diagram.expandRelationship]
    split
    · exact h
    · split
      · exact h
      · exact h.attachChild p id _ (.inl rfl)
  | setRelationships id segments =>
    simp only [Operation.run, Operation.outcome, Diagram.setRelationships]
    split
    · exact h
    · exact h.modify (fun _ => rfl) fun _ hn => hn.selected
  | setData id rows =>
    simp only [Operation.run, Operation.outcome, Diagram.setData]
    split
    · exact h
    · exact h.modify (fun _ => rfl) fun _ hn => hn.selected
  | expandValues id => exact h.expandValues hd.toNumbered id
  | collapseValues id => exact h.collapseValues hd.toNumbered id
  | selectValue id => exact h.selectValue hd id
  | removeValue id value => exact h.removeValue hd id value
  | negate id => exact h.negate hd.toNumbered id
  | removeNode id =>
    simp only [Operation.run, Operation.outcome, Diagram.removeNode]
    split
    · exact h
    · split
      · exact genuine_of_nil rfl
      · rw [removeSubtree_snd]
        exact fun n hn => h n (List.mem_filter.1 hn).1
  | nextPage id =>
    simp only [Operation.run, Operation.outcome, Diagram.nextPage]
    split
    · exact h.turnPage hd id _
    · exact h
  | previousPage id =>
    simp only [Operation.run, Operation.outcome, Diagram.previousPage]
    split
    · exact h.turnPage hd id _
    · exact h

theorem ReachableBy.genuine {admits : Operation → Diagram → Prop} (h : d.ReachableBy p admits) :
    d.Genuine := by
  induction h with
  | new pageSize => exact genuine_of_nil rfl
  | step h o _ ih => exact ih.run h.linked p o

/-! ## Selecting what is shown, and rows of schemas -/

/-- Each candidate that is shown can be selected, and is selected for the row that it offers. -/
theorem Linked.selectValue_of_shown (h : d.Linked) (hd : d.Displays) (hg : d.Genuine)
    (hn : d.node? id = some n) (hm : m ∈ d.valueNodes id) :
    ∃ row v n', m.attributes = some row ∧ v.StandsFor row ∧
      (d.selectValue m.id).2.node? id = some n' ∧ n'.selected = n.selected ++ [v] := by
  rw [h.valueNodes_eq, List.mem_filter, isCandidateOf, Bool.and_eq_true, beq_iff_eq,
    beq_iff_eq] at hm
  obtain ⟨hm, hk, hp⟩ := hm
  obtain ⟨row, hoffers⟩ := (hg m hm).candidate hk
  have hv : (pickedValue m).attributes = row := by simp [pickedValue, hoffers.attributes]
  let picked : Node := { n with selected := n.selected ++ [pickedValue m] }
  have hpicked : (d.pick id (pickedValue m)).node? id = some picked :=
    node?_modify_self (f := fun n => { n with selected := n.selected ++ [pickedValue m] })
      (fun _ => rfl) hn
  have hlinked : (d.pick id (pickedValue m)).Linked := h.modify fun _ => rfl
  have hdisplays : (d.pick id (pickedValue m)).Displays := hd.modify (fun _ => rfl) fun _ => rfl
  refine ⟨row, pickedValue m, picked.afterHiding picked, hoffers.attributes,
    hv ▸ hoffers.genuine_pickedValue.standsFor, ?_, rfl⟩
  rw [h.selectValue_eq hm hk hp hn]
  exact hlinked.node?_collapseValues hdisplays hpicked

theorem rows_of_readSchema {s : Schema} (h : d.readSchema n.id = some s)
    (hn : d.node? n.id = some n) : n.selected.map SelectedValue.attributes = s.rows := by
  unfold readSchema at h
  cases hdepth : d.nextNode with
  | zero =>
    rw [hdepth] at h
    cases h
  | succ k =>
    rw [hdepth, readWithin, hn] at h
    obtain ⟨n, hself, h⟩ := Option.bind_eq_some_iff.1 h
    obtain ⟨relations, -, hs⟩ := Option.bind_eq_some_iff.1 h
    rw [Option.some.inj hself, ← Option.some.inj hs]
    rfl

theorem forall₂_standsFor {values : List SelectedValue} (h : ∀ v ∈ values, v.Genuine) :
    List.Forall₂ SelectedValue.StandsFor values (values.map SelectedValue.attributes) := by
  rw [List.forall₂_map_right_iff, List.forall₂_same]
  exact fun v hv => (h v hv).standsFor

/-- The nodes for a schema hold its rows, node by node in pre-order. -/
theorem ReachableBy.standsFor_addSchema {admits : Operation → Diagram → Prop}
    (h : d.ReachableBy p admits) (s : Schema) (anchor : Option Position) :
    List.Forall₂ (fun n t => List.Forall₂ SelectedValue.StandsFor n.selected t.rows)
      (d.addSchema p s anchor).2.nodes s.preorder := by
  have hread := (h.readSchema_addSchema p s anchor).2
  have hlinked : (d.addSchema p s anchor).2.Linked := h.linked.run (.addSchema s anchor)
  have hgenuine := genuine_addSchema p s anchor d
  generalize (d.addSchema p s anchor).2 = e at hread hlinked hgenuine
  have hrows {n : Node} (hn : n ∈ e.nodes) {t : Schema} (ht : e.readSchema n.id = some t) :
      List.Forall₂ SelectedValue.StandsFor n.selected t.rows := by
    rw [← rows_of_readSchema ht (hlinked.node?_of_mem hn)]
    exact forall₂_standsFor (hgenuine n hn).selected
  cases hnodes : e.nodes with
  | nil => simp [hnodes] at hread
  | cons r rest =>
    rw [hnodes, List.map_cons, List.cons.injEq] at hread
    obtain ⟨hroot, hrest⟩ := hread
    rw [← List.forall₂_eq_eq_eq, List.forall₂_map_left_iff, List.forall₂_map_right_iff] at hrest
    rw [Schema.preorder_eq]
    refine .cons ?_ ?_
    · have hrows := hrows (hnodes ▸ List.mem_cons_self) (Prod.ext_iff.1 hroot).2
      rwa [show (s.withGroup false).rows = s.rows by cases s; rfl] at hrows
    · have hmem : ∀ n ∈ rest, n ∈ e.nodes := fun n hn => hnodes ▸ List.mem_cons_of_mem r hn
      exact ((List.forall₂_and_left _ _).2 ⟨hmem, hrest⟩).imp fun n t ⟨hn, ht⟩ =>
        hrows hn (Prod.ext_iff.1 ht).2

/-- At any time, a selected value holds for an attribute what its row holds if and only if that is
readable, and candidates that come later leave the row out then. Candidates are shown in the order
of their rows and selected for the rows that they are shown for, and a schema selects its rows in
their order. -/
theorem provenance_of_reachable (h : d.ReachableBy p fun _ _ => True) :
    (∀ n ∈ d.nodes, ∀ v ∈ n.selected,
      (∀ a, v.constraintValue a = Row.constraintValue v.attributes a ↔
        Row.IsReadable v.attributes a) ∧
      ∀ (s : Session) (rows : List Row),
        Row.IsReadable v.attributes (s.properties n.label).constraintAttribute →
          v.attributes ∉ s.unselectedRows n rows) ∧
    (∀ id n rows, d.node? id = some n → n.data = some rows →
      (d.expandValues id).2.shownRows id = (pageRows d.pageSize n rows).map some ∧
      ∀ m ∈ (d.expandValues id).2.valueNodes id, ∃ row v n', m.attributes = some row ∧
        v.StandsFor row ∧ ((d.expandValues id).2.selectValue m.id).2.node? id = some n' ∧
        n'.selected = n.selected ++ [v]) ∧
    ∀ s anchor, List.Forall₂ (fun n t => List.Forall₂ SelectedValue.StandsFor n.selected t.rows)
      (d.addSchema p s anchor).2.nodes s.preorder := by
  refine ⟨fun n hn v hv => ?_, fun id n rows hn hr => ?_, h.standsFor_addSchema⟩
  · have hstands := ((h.genuine n hn).selected v hv).standsFor
    refine ⟨hstands.constraintValue_iff, fun s rows hreadable hmem => ?_⟩
    have hkept := (List.mem_filter.1 hmem).2
    rw [Bool.not_eq_true', List.any_eq_false] at hkept
    refine hkept v hv ?_
    rw [(hstands.constraintValue_iff _).2 hreadable]
    exact Value.equals_self _
  · refine ⟨(h.linked.shownRows_expandValues h.displays hn hr).1, fun m hm => ?_⟩
    have hlinked : (d.expandValues id).2.Linked := h.linked.run (p := .plain) (.expandValues id)
    exact hlinked.selectValue_of_shown (n := n.afterShowing n)
      (h.linked.displays_expandValues h.displays id)
      (h.genuine.expandValues h.linked.toNumbered id)
      (h.linked.node?_expandValues h.displays hn hr) hm

/-- A person is offered and selected. -/
def choosingPerson (row : Row) : List Operation :=
  [.addRoot "Person" none, .setData ⟨0⟩ [row], .expandValues ⟨0⟩, .selectValue ⟨1⟩]

/-- A row with a number for its identifier is selected with it, and not offered again. -/
theorem provenance_of_numbered_row :
    let row : Row := Table.ofList [("NEO4JID", .int 7), ("name", .str "Ann")]
    let d := Operation.runAll .plain (choosingPerson row) (.new 10)
    ∃ n ∈ d.nodes, ∃ v ∈ n.selected, v.attributes = row ∧ v.constraintValue .internalId = .int 7 ∧
      row ∉ (Session.new .plain {}).unselectedRows n [row] := by
  intro row d
  have hd : d.ReachableBy .plain fun _ _ => True := ReachableBy.runAll (.new 10) _
  obtain ⟨n, hn, v, hv, hrow⟩ : ∃ n ∈ d.nodes, ∃ v ∈ n.selected, v.attributes = row := by
    decide +kernel
  have hreadable (a : Attribute) : Row.IsReadable v.attributes a := by
    rw [hrow]
    rintro rfl
    exact .inr ⟨7, by decide, by decide, by decide +kernel⟩
  obtain ⟨hvalue, hout⟩ := (provenance_of_reachable hd).1 n hn v hv
  refine ⟨n, hn, v, hv, hrow, ?_, ?_⟩
  · rw [(hvalue .internalId).2 (hreadable _), hrow]
    decide +kernel
  · have hout := hout (Session.new .plain {}) [row] (hreadable _)
    rwa [hrow] at hout

/-- A row with a text for its identifier is selected without it: the parameter for the identifier
is null, and the row is offered again. -/
theorem not_constraintValue_of_textual_row :
    let row : Row := Table.ofList [("NEO4JID", .str "a1"), ("name", .str "Ann")]
    let d := Operation.runAll .plain (choosingPerson row) (.new 10)
    d.Reachable .plain ∧ ∃ n ∈ d.nodes, ∃ v ∈ n.selected, v.attributes = row ∧
      v.constraintValue .internalId = .null ∧ Row.constraintValue row .internalId = .str "a1" ∧
      row ∈ (Session.new .plain {}).unselectedRows n [row] := by
  intro row d
  have hd : d.Reachable .plain := Reachable.runAll (.new 10) _ (by decide +kernel)
  exact ⟨hd, by decide +kernel⟩

end Diagram

end PatternQuery
