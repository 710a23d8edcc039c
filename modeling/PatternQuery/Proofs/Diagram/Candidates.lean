import PatternQuery.Proofs.Diagram.Traces

/-!
# Stored and shown candidates

The candidates shown under a node are rows on its page of what is stored on it, and no candidate has
the number of a value that is selected (`Diagram.Curated`). Operations that store, show or select
candidates keep this, since they hide what is shown first.
-/

namespace PatternQuery

variable {d d' : Diagram} {id : NodeId} {m m' n n' : Node}

/-- A candidate value for a row. -/
structure Node.Offers (m : Node) (row : Row) : Prop where
  attributes : m.attributes = some row
  internalId : m.internalId = Row.internalId row

theorem Node.Offers.of_origin {row : Row} (h : m.Offers row) (ho : m'.origin = m.origin) :
    m'.Offers row where
  attributes := (Node.congr_origin ho Node.attributes fun _ => rfl).trans h.attributes
  internalId := (Node.congr_origin ho Node.internalId fun _ => rfl).trans h.internalId

namespace Diagram

/-! ## Pages of candidates -/

/-- The candidate values that hang from a node are for rows on the page of it that is shown. -/
def Paged (d : Diagram) (n : Node) : Prop :=
  ∀ m ∈ d.nodes, m.kind = .value → m.parent = some n.id →
    ∃ rows, n.data = some rows ∧ ∃ row ∈ pageRows d.pageSize n rows, m.Offers row

/-- No candidate value has the number of a value that is selected, or will have it. -/
def Remembers (d : Diagram) : Prop := ∀ n ∈ d.nodes, ∀ v ∈ n.selected, d.Knows v.id

/-- Candidates are shown as they are stored, and selected values stay apart from them. -/
structure Curated (d : Diagram) : Prop where
  remembers : d.Remembers
  paged : ∀ n ∈ d.nodes, d.Paged n

theorem curated_new (pageSize : Nat) : (Diagram.new pageSize).Curated := by
  constructor <;> simp [Diagram.new, Remembers]

/-- A page is still the same where no candidate values came. -/
theorem Paged.of_origin (h : d.Paged n)
    (hnodes : ∀ m' ∈ d'.nodes, m'.kind = .value → ∃ m ∈ d.nodes, m'.origin = m.origin)
    (hsize : d'.pageSize = d.pageSize) (hid : n'.id = n.id) (hdata : n'.data = n.data)
    (hpage : n'.page = n.page) : d'.Paged n' := by
  intro m' hm' hk hp
  obtain ⟨m, hm, ho⟩ := hnodes m' hm' hk
  rw [Node.kind_of_origin ho] at hk
  rw [Node.parent_of_origin ho, hid] at hp
  obtain ⟨rows, hrows, row, hrow, hoffers⟩ := h m hm hk hp
  refine ⟨rows, hdata.trans hrows, row, ?_, hoffers.of_origin ho⟩
  rw [pageRows, hsize, hpage]
  exact hrow

theorem Traces.paged (h : d.Traces d') (hd : d.Numbered) (hn' : n' ∈ d'.nodes)
    (hp : ∀ n ∈ d.nodes, n.Keeps n' → d.Paged n) : d'.Paged n' := by
  have hnodes : ∀ m' ∈ d'.nodes, m'.kind = .value → ∃ m ∈ d.nodes, m'.origin = m.origin := by
    intro m' hm' hk
    rcases h.nodes m' hm' with ⟨m, hm, hkeeps⟩ | hfresh
    · exact ⟨m, hm, hkeeps.origin⟩
    · exact absurd hk hfresh.kind
  rcases h.nodes n' hn' with ⟨n, hn, hkeeps⟩ | hfresh
  · exact (hp n hn hkeeps).of_origin hnodes h.pageSize (Node.id_of_origin hkeeps.origin)
      hkeeps.data hkeeps.page
  · -- What hangs from a number hangs from a node that was there before.
    intro m' hm' hk hp'
    obtain ⟨m, hm, ho⟩ := hnodes m' hm' hk
    rw [Node.parent_of_origin ho] at hp'
    have hbefore := hd.parentBefore m hm _ hp'
    have hbound := hd.bounded m hm
    have hnumber := hfresh.number
    omega

theorem Traces.remembers (h : d.Traces d') (hd : d.Remembers) : d'.Remembers := by
  intro n' hn' v hv
  rcases h.nodes n' hn' with ⟨n, hn, hkeeps⟩ | hfresh
  · exact h.continues.knows (hd n hn v (hkeeps.selected hv))
  · exact hfresh.known v hv

theorem Curated.of_traces (hc : d.Curated) (hd : d.Numbered) (h : d.Traces d') : d'.Curated :=
  ⟨h.remembers hc.remembers, fun _ hn' => h.paged hd hn' fun n hn _ => hc.paged n hn⟩

/-- A node that shows no candidates has none that hang from it. -/
theorem WellFormed.paged_of_collapsed (h : d.WellFormed) (hn : n ∈ d.nodes)
    (he : n.expanded = false) : d.Paged n := by
  intro m hm hk hp
  rw [h.shown m hm hk n hn hp] at he
  simp at he

/-- Nothing hangs from a candidate value. -/
theorem Shape.paged_of_value (h : d.Shape) (hn : n ∈ d.nodes) (hk : n.kind = .value) :
    d.Paged n := by
  intro m hm _ hp
  obtain ⟨x, hx, hid, hxk⟩ := h.parentLive m hm n.id hp
  rw [h.eq_of_id_eq hx hn hid] at hxk
  exact absurd hk hxk

/-! ### Showing -/

/-- Once they are hidden, no candidate values hang from a node. -/
theorem WellFormed.parent_ne_of_collapseValues (h : d.WellFormed) (id : NodeId)
    (hm : m ∈ (d.collapseValues id).2.nodes) (hk : m.kind = .value) : m.parent ≠ some id := by
  cases hn : d.node? id with
  | none =>
    rw [collapseValues_of_collapsed (by simp [hn])] at hm
    intro hp
    obtain ⟨x, hx, hid, -⟩ := h.parentLive m hm id hp
    have := node?_isSome_iff.2 ⟨x, hx, hid⟩
    simp [hn] at this
  | some n =>
    cases he : n.expanded with
    | false =>
      rw [collapseValues_of_collapsed (by simp [hn, he])] at hm
      intro hp
      rw [← id_of_node? hn] at hp
      rw [h.shown m hm hk n (mem_of_node? hn) hp] at he
      simp at he
    | true =>
      rw [collapseValues_eq hn he] at hm
      have hmarked : ((d.withoutValues id).modify id fun n =>
          { n with expanded := false, fixed := n.isRoot && n.fixed }).Within (d.withoutValues id) :=
        (Within.refl _).modify fun _ => rfl
      have hwithin := hmarked.setPinned n.parent false
      obtain ⟨k, hk', horigin⟩ := hwithin m hm
      obtain ⟨hkd, hgone⟩ := List.mem_filter.1 hk'
      rw [Bool.not_eq_true', ← Bool.not_eq_true, List.contains_iff_mem, h.mem_shown_iff id hkd,
        ← Node.kind_of_origin horigin, ← Node.parent_of_origin horigin] at hgone
      exact fun hp => hgone ⟨hk, hp⟩

/-- Exactly one value node is added for each row. -/
theorem addValueNodes_nodes (id : NodeId) (label : String) (rows : List Row) (d : Diagram) :
    (rows.foldl (addValueNode id label) d).nodes = d.nodes ++ rows.mapIdx fun i row =>
      shownNode id label row { d with nextNode := d.nextNode + i } := by
  induction rows generalizing d with
  | nil => simp
  | cons row rows ih =>
    rw [List.foldl_cons, addValueNode_eq, ih]
    simp [Diagram.attach, shownNode, Nat.add_assoc, Nat.add_comm 1]

theorem addValueNodes_pageSize (id : NodeId) (label : String) (rows : List Row) (d : Diagram) :
    (rows.foldl (addValueNode id label) d).pageSize = d.pageSize := by
  induction rows generalizing d with
  | nil => rfl
  | cons row rows ih =>
    rw [List.foldl_cons, ih]
    rfl

theorem mem_addValueNodes {label : String} {rows : List Row}
    (hm : m ∈ (rows.foldl (addValueNode id label) d).nodes) : m ∈ d.nodes ∨
      m.kind = .value ∧ m.parent = some id ∧ m.data = none ∧ m.selected = [] ∧
        ∃ row ∈ rows, m.Offers row := by
  rw [addValueNodes_nodes] at hm
  rcases List.mem_append.1 hm with hm | hm
  · exact .inl hm
  · obtain ⟨i, hi, rfl⟩ := List.mem_mapIdx.1 hm
    exact .inr ⟨rfl, rfl, rfl, rfl, rows[i], List.getElem_mem hi, rfl, rfl⟩

theorem exists_addValueNodes {rows : List Row} {row : Row} (hrow : row ∈ rows) (id : NodeId)
    (label : String) (d : Diagram) : ∃ m ∈ (rows.foldl (addValueNode id label) d).nodes,
      m.kind = .value ∧ m.parent = some id ∧ m.Offers row := by
  obtain ⟨i, hi, rfl⟩ := List.getElem_of_mem hrow
  refine ⟨shownNode id label rows[i] { d with nextNode := d.nextNode + i }, ?_, rfl, rfl, rfl, rfl⟩
  rw [addValueNodes_nodes]
  exact List.mem_append_right _ (List.mem_mapIdx.2 ⟨i, hi, rfl⟩)

/-- After the value nodes have come, nodes are only marked. -/
theorem traces_markExpanded (id : NodeId) (parent : Option NodeId) (d : Diagram) :
    d.Traces ((d.modify id fun n => { n with fixed := true, expanded := true }).setPinned
      parent true) := by
  refine Traces.setPinned ?_ parent true
  exact (Traces.refl d).modify fun _ => ⟨rfl, rfl, rfl, List.Subset.refl _⟩

theorem Remembers.addValueNodes (hr : d.Remembers) (id : NodeId) (label : String)
    (rows : List Row) : (rows.foldl (addValueNode id label) d).Remembers := by
  intro n hn v hv
  rcases mem_addValueNodes hn with hn | ⟨-, -, -, hs, -⟩
  · exact (continues_addValueNodes id label rows d).knows (hr n hn v hv)
  · rw [hs] at hv
    simp at hv

theorem Remembers.expandValues (hr : d.Remembers) (id : NodeId) :
    (d.expandValues id).2.Remembers := by
  have hcollapsed := ((Traces.refl d).collapseValues id).remembers hr
  cases hn : d.node? id with
  | none => rwa [expandValues_of_none (by simp [hn])]
  | some n =>
    cases hdata : n.data with
    | none => rwa [expandValues_of_none (by simp [hn, hdata])]
    | some rows =>
      rw [expandValues_eq hn hdata]
      exact (traces_markExpanded id n.parent _).remembers (hcollapsed.addValueNodes id n.label _)

/-- Rows on the page of a node may be shown under it. -/
theorem Curated.addValueNodes (hc : d.Curated) (hd : d.Shape) (hid : d.IsQueryNode id)
    (label : String) (rows shown : List Row) (hdata : ∀ n ∈ d.nodes, n.id = id →
      n.data = some rows ∧ shown ⊆ pageRows d.pageSize n rows) :
    (shown.foldl (addValueNode id label) d).Curated where
  remembers := hc.remembers.addValueNodes id label shown
  paged n hn := by
    rcases mem_addValueNodes hn with hnd | ⟨hk, -⟩
    · intro m hm hk hp
      rw [addValueNodes_pageSize]
      rcases mem_addValueNodes hm with hmd | ⟨-, hp', -, -, row, hrow, hoffers⟩
      · exact hc.paged n hnd m hmd hk hp
      · obtain ⟨hn, hsub⟩ := hdata n hnd (Option.some.inj (hp.symm.trans hp'))
        exact ⟨rows, hn, row, hsub hrow, hoffers⟩
    · exact (hd.addValueNodes hid label shown).paged_of_value hn hk

/-- Whatever was shown before, the candidates that are shown next are those of the page. -/
theorem WellFormed.curated_expandValues (h : d.WellFormed) (hr : d.Remembers)
    (hp : ∀ n ∈ d.nodes, n.id ≠ id → d.Paged n) : (d.expandValues id).2.Curated := by
  have htraces := (Traces.refl d).collapseValues id
  have hcollapsed : (d.collapseValues id).2.Curated := by
    refine ⟨htraces.remembers hr, fun n hn => ?_⟩
    by_cases hid : n.id = id
    · intro m hm hk hmp
      rw [hid] at hmp
      exact absurd hmp (h.parent_ne_of_collapseValues id hm hk)
    · refine htraces.paged h.toNumbered hn fun k hk hkeeps => hp k hk ?_
      rwa [← Node.id_of_origin hkeeps.origin]
  cases hn : d.node? id with
  | none => rwa [expandValues_of_none (by simp [hn])]
  | some n =>
    cases hdata : n.data with
    | none => rwa [expandValues_of_none (by simp [hn, hdata])]
    | some rows =>
      rw [expandValues_eq hn hdata]
      have hshape := (h.collapseValues id).toShape
      have hquery := (h.isQueryNode_of_data hn hdata).collapseValues h.toShape id
      refine Curated.of_traces (hcollapsed.addValueNodes hshape hquery n.label rows _ ?_)
        (hshape.addValueNodes hquery n.label _).toNumbered (traces_markExpanded id n.parent _)
      intro x hx hid
      have hkeeps := htraces.keeps_of_node? h.toNumbered hn hx hid
      rw [hkeeps.pageRows_eq]
      exact ⟨hkeeps.data.trans hdata, List.Subset.refl _⟩

/-! ### Storing and selecting -/

theorem Remembers.modify (hr : d.Remembers) (id : NodeId) {f : Node → Node}
    (ho : ∀ n, (f n).origin = n.origin) (hs : ∀ n, (f n).selected = n.selected) :
    (d.modify id f).Remembers := by
  have hcont : d.Continues (d.modify id f) := .modify (.refl d) ho
  intro n' hn' v hv
  obtain ⟨n, hn, rfl⟩ := mem_modify.1 hn'
  refine hcont.knows (hr n hn v ?_)
  split at hv
  · rwa [hs] at hv
  · exact hv

/-- A change of what is stored on a node and of its page matters to that node only. -/
theorem Curated.modify (hc : d.Curated) (id : NodeId) {f : Node → Node}
    (ho : ∀ n, (f n).origin = n.origin) (hs : ∀ n, (f n).selected = n.selected) :
    (d.modify id f).Remembers ∧
      ∀ n ∈ (d.modify id f).nodes, n.id ≠ id → (d.modify id f).Paged n := by
  refine ⟨hc.remembers.modify id ho hs, fun n' hn' hne => ?_⟩
  obtain ⟨n, hn, rfl⟩ := mem_modify.1 hn'
  have hid : n.id ≠ id := by
    split at hne
    · rwa [Node.id_of_origin (ho n)] at hne
    · exact hne
  rw [if_neg hid]
  have hwithin : (d.modify id f).Within d := (Within.refl d).modify ho
  exact (hc.paged n hn).of_origin (fun m' hm' _ => hwithin m' hm') rfl rfl rfl rfl

/-- Nothing is shown under a node that is not expanded, so candidates may be stored there. -/
theorem WellFormed.curated_setData (h : d.WellFormed) (hc : d.Curated)
    (hn : d.node? id = some n) (he : n.expanded = false) (rows : List Row)
    (hid : n.kind ≠ .value) : (d.setData id rows).2.Curated := by
  have hw : (d.setData id rows).2.WellFormed := h.setData rows fun m hm => by
    rwa [← Option.some.inj (hn.symm.trans hm)]
  unfold Diagram.setData at hw ⊢
  rw [hn] at hw ⊢
  obtain ⟨hr, hp⟩ := hc.modify id (f := fun m => { m with data := some rows, page := 1 })
    (fun _ => rfl) fun _ => rfl
  refine ⟨hr, fun n' hn' => ?_⟩
  by_cases hne : n'.id = id
  · refine hw.paged_of_collapsed hn' ?_
    obtain ⟨m, hm, rfl⟩ := mem_modify.1 hn'
    split at hne
    · rename_i hmid
      rw [if_pos hmid, h.eq_of_node? hn hm hmid]
      exact he
    · exact absurd hne ‹_›
  · exact hp n' hn' hne

/-- Candidates are stored and shown at once. -/
theorem WellFormed.curated_refill (h : d.WellFormed) (hc : d.Curated) (rows : List Row)
    (hid : ∀ n, d.node? id = some n → n.kind ≠ .value) :
    ((d.setData id rows).2.expandValues id).2.Curated := by
  have hw := h.setData rows hid
  cases hn : d.node? id with
  | none =>
    have hsame : (d.setData id rows).2 = d := by
      unfold Diagram.setData
      rw [hn]
    rw [hsame]
    exact h.curated_expandValues hc.remembers fun n hn _ => hc.paged n hn
  | some n =>
    unfold Diagram.setData at hw ⊢
    rw [hn] at hw ⊢
    obtain ⟨hr, hp⟩ := hc.modify id (f := fun m => { m with data := some rows, page := 1 })
      (fun _ => rfl) fun _ => rfl
    exact hw.curated_expandValues hr hp

theorem WellFormed.curated_turnPage (h : d.WellFormed) (hc : d.Curated) (id : NodeId)
    (turn : Nat → Nat) : (d.turnPage id turn).2.Curated := by
  rw [turnPage_snd]
  obtain ⟨hr, hp⟩ := hc.modify id (f := fun m => { m with page := turn m.page })
    (fun _ => rfl) fun _ => rfl
  have hw : (d.modify id fun n => { n with page := turn n.page }).WellFormed :=
    h.restyle fun _ => rfl
  exact hw.curated_expandValues hr hp

/-- The value that a candidate is selected as. -/
def pickedValue (m : Node) : SelectedValue :=
  { id := m.id, label := m.label, attributes := m.attributes.getD Table.empty
    internalId := m.internalId, count := m.count }

/-- Selects one more value on a node. -/
def pick (p : NodeId) (v : SelectedValue) (d : Diagram) : Diagram :=
  d.modify p fun n => { n with selected := n.selected ++ [v] }

theorem continues_pick (p : NodeId) (v : SelectedValue) (d : Diagram) : d.Continues (d.pick p v) :=
  .modify (.refl d) fun _ => rfl

theorem mem_pick {p : NodeId} {v : SelectedValue} (hn' : n' ∈ (d.pick p v).nodes) :
    ∃ n ∈ d.nodes, n'.origin = n.origin ∧ n'.data = n.data ∧ n'.page = n.page ∧
      ∀ x ∈ n'.selected, x ∈ n.selected ∨ x = v := by
  obtain ⟨n, hn, rfl⟩ := mem_modify.1 hn'
  refine ⟨n, hn, ?_⟩
  split
  · exact ⟨rfl, rfl, rfl, fun x hx => by simpa using hx⟩
  · exact ⟨rfl, rfl, rfl, fun x hx => .inl hx⟩

/-- A candidate value is selected on the node that it hangs from. -/
theorem Numbered.selectValue_eq (h : d.Numbered) {p : NodeId} (hm : m ∈ d.nodes)
    (hk : m.kind = .value) (hp : m.parent = some p) (hn : d.node? p = some n) :
    d.selectValue m.id = (.ok p, ((d.pick p (pickedValue m)).collapseValues p).2) := by
  unfold Diagram.selectValue
  rw [h.node?_of_mem hm]
  simp only [hk, hp, hn]
  rfl

theorem WellFormed.selectValue_eq (h : d.WellFormed) {p : NodeId} (hm : m ∈ d.nodes)
    (hk : m.kind = .value) (hp : m.parent = some p) : d.selectValue m.id =
      (.ok p, ((d.pick p (pickedValue m)).collapseValues p).2) := by
  obtain ⟨n, hn, -⟩ := h.isQueryNode_iff.1 (h.parentLive m hm p hp)
  exact h.toNumbered.selectValue_eq hm hk hp hn

/-- Nothing else can be selected, and where it is tried nothing changes. -/
theorem WellFormed.selectValue_cases (h : d.WellFormed) (id : NodeId) :
    (∃ e, d.selectValue id = (.error e, d)) ∨
      ∃ m ∈ d.nodes, ∃ p, m.id = id ∧ m.kind = .value ∧ m.parent = some p := by
  cases hm : d.node? id with
  | none =>
    unfold Diagram.selectValue
    rw [hm]
    exact .inl ⟨_, rfl⟩
  | some m =>
    by_cases hk : m.kind = .value
    · cases hp : m.parent with
      | none =>
        have hroot := (h.parent_eq_none_iff m (mem_of_node? hm)).1 hp
        rw [hk] at hroot
        simp at hroot
      | some p => exact .inr ⟨m, mem_of_node? hm, p, id_of_node? hm, hk, hp⟩
    · unfold Diagram.selectValue
      rw [hm]
      dsimp only
      split
      · exact absurd ‹_› hk
      · exact .inl ⟨_, rfl⟩

/-- With the candidates of a node their numbers go. -/
theorem WellFormed.knows_of_collapseValues (h : d.WellFormed) {p : NodeId} (hm : m ∈ d.nodes)
    (hp : m.parent = some p) : (d.collapseValues p).2.Knows m.id where
  number := Nat.lt_of_lt_of_le (h.bounded m hm) (continues_collapseValues p d).nextNode
  kind x hx hid hk := by
    obtain ⟨y, hy, horigin⟩ := (continues_collapseValues p d).origin x hx (by
      rw [hid]
      exact h.bounded m hm)
    obtain rfl := h.eq_of_id_eq hy hm ((Node.id_of_origin horigin).symm.trans hid)
    exact h.parent_ne_of_collapseValues p hx hk ((Node.parent_of_origin horigin).trans hp)

/-- A value may be selected under a number that goes with the candidates. -/
theorem Remembers.pick (hr : d.Remembers) {p : NodeId} {v : SelectedValue}
    (hv : ((d.pick p v).collapseValues p).2.Knows v.id) :
    ((d.pick p v).collapseValues p).2.Remembers := by
  have htraces := (Traces.refl (d.pick p v)).collapseValues p
  intro n' hn' x hx
  rcases htraces.nodes n' hn' with ⟨n, hn, hkeeps⟩ | hfresh
  · obtain ⟨k, hk, -, -, -, hselected⟩ := mem_pick hn
    rcases hselected x (hkeeps.selected hx) with hx | rfl
    · exact ((continues_pick p v d).trans htraces.continues).knows (hr k hk x hx)
    · exact hv
  · exact hfresh.known x hx

theorem Curated.pick (hc : d.Curated) {p : NodeId} {v : SelectedValue}
    (hw : (d.pick p v).WellFormed) (hv : ((d.pick p v).collapseValues p).2.Knows v.id) :
    ((d.pick p v).collapseValues p).2.Curated := by
  have htraces := (Traces.refl (d.pick p v)).collapseValues p
  refine ⟨hc.remembers.pick hv, fun n' hn' => htraces.paged hw.toNumbered hn' fun n hn _ => ?_⟩
  obtain ⟨k, hk, horigin, hdata, hpage, -⟩ := mem_pick hn
  refine (hc.paged k hk).of_origin (fun x hx _ => ?_) rfl (Node.id_of_origin horigin) hdata hpage
  obtain ⟨y, hy, hxy, -⟩ := mem_pick hx
  exact ⟨y, hy, hxy⟩

theorem WellFormed.pick (h : d.WellFormed) {p : NodeId} (hm : m ∈ d.nodes) (hp : m.parent = some p)
    (v : SelectedValue) : (d.pick p v).WellFormed :=
  h.reselect (h.parentLive m hm p hp) fun n => n.selected ++ [v]

/-- A candidate that is selected goes. -/
theorem WellFormed.knows_of_pick (h : d.WellFormed) {p : NodeId} (hm : m ∈ d.nodes)
    (hk : m.kind = .value) (hp : m.parent = some p) (v : SelectedValue) :
    ((d.pick p v).collapseValues p).2.Knows m.id := by
  -- The candidate itself is none of the nodes that something is selected on.
  have hm' : m ∈ (d.pick p v).nodes := by
    refine mem_modify.2 ⟨m, hm, if_neg fun hid => ?_⟩
    obtain ⟨n, hn, hnid, hnk⟩ := h.parentLive m hm p hp
    rw [h.eq_of_id_eq hn hm (hnid.trans hid.symm)] at hnk
    exact hnk hk
  exact (h.pick hm hp v).knows_of_collapseValues hm' hp

theorem WellFormed.remembers_selectValue (h : d.WellFormed) (hr : d.Remembers) (id : NodeId) :
    (d.selectValue id).2.Remembers := by
  rcases h.selectValue_cases id with ⟨e, he⟩ | ⟨m, hm, p, rfl, hk, hp⟩
  · rw [he]
    exact hr
  · rw [h.selectValue_eq hm hk hp]
    exact hr.pick (h.knows_of_pick hm hk hp _)

theorem WellFormed.curated_selectValue (h : d.WellFormed) (hc : d.Curated) (id : NodeId) :
    (d.selectValue id).2.Curated := by
  rcases h.selectValue_cases id with ⟨e, he⟩ | ⟨m, hm, p, rfl, hk, hp⟩
  · rw [he]
    exact hc
  · rw [h.selectValue_eq hm hk hp]
    exact hc.pick (h.pick hm hp _) (h.knows_of_pick hm hk hp _)

/-! ### Operations -/

theorem Remembers.turnPage (hr : d.Remembers) (id : NodeId) (turn : Nat → Nat) :
    (d.turnPage id turn).2.Remembers := by
  rw [turnPage_snd]
  refine Remembers.expandValues ?_ id
  exact hr.modify id (fun _ => rfl) fun _ => rfl

/-- Whatever is stored and shown, selected values stay apart from candidates. -/
theorem WellFormed.remembers_run (h : d.WellFormed) (hr : d.Remembers) (q : Provider)
    (o : Operation) : (o.run q d).2.Remembers := by
  cases o with
  | addRoot label anchor => exact (traces_addRoot q label anchor d).remembers hr
  | addSchema s anchor => exact (traces_addSchema q s anchor d).remembers hr
  | clear => exact (traces_clear d).remembers hr
  | expandRelationship id index => exact (traces_expandRelationship q id index d).remembers hr
  | setRelationships id segments => exact (traces_setRelationships id segments d).remembers hr
  | setData id rows =>
    simp only [Operation.run, Operation.outcome, Diagram.setData]
    split
    · exact hr
    · exact hr.modify id (fun _ => rfl) fun _ => rfl
  | expandValues id => exact hr.expandValues id
  | collapseValues id => exact ((Traces.refl d).collapseValues id).remembers hr
  | selectValue id => exact h.remembers_selectValue hr id
  | removeValue id value => exact (h.toNumbered.traces_removeValue id value).remembers hr
  | negate id => exact (traces_negate id d).remembers hr
  | removeNode id => exact (traces_removeNode id d).remembers hr
  | nextPage id =>
    simp only [Operation.run, Operation.outcome, Diagram.nextPage]
    split
    · exact hr.turnPage id _
    · exact hr
  | previousPage id =>
    simp only [Operation.run, Operation.outcome, Diagram.previousPage]
    split
    · exact hr.turnPage id _
    · exact hr

theorem Reachable.remembers {q : Provider} (h : d.Reachable q) : d.Remembers := by
  induction h with
  | new pageSize => exact (curated_new pageSize).remembers
  | step h o _ ih => exact (Reachable.wellFormed h).remembers_run ih q o

/-! ## What is shown -/

theorem Shape.mem_valueNodes (h : d.Shape) :
    m ∈ d.valueNodes id ↔ m ∈ d.nodes ∧ m.kind = .value ∧ m.parent = some id := by
  constructor
  · intro hm
    obtain ⟨l, hl, hlm⟩ := List.mem_filterMap.1 hm
    have hmd := mem_of_node? hlm
    refine ⟨hmd, (h.mem_shown_iff id hmd).1 ?_⟩
    rw [id_of_node? hlm]
    exact List.mem_map_of_mem hl
  · rintro ⟨hm, hvalue⟩
    obtain ⟨l, hl, hlm⟩ := List.mem_map.1 ((h.mem_shown_iff id hm).2 hvalue)
    exact List.mem_filterMap.2 ⟨l, hl, by rw [hlm, h.node?_of_mem hm]⟩

theorem mem_of_mem_pageRows {pageSize : Nat} {rows : List Row} {row : Row}
    (h : row ∈ pageRows pageSize n rows) : row ∈ rows :=
  List.mem_of_mem_drop (List.mem_of_mem_take h)

/-- The node is there with everything that is selected on it. -/
def Retains (d : Diagram) (n : Node) : Prop :=
  ∃ n' ∈ d.nodes, n.Keeps n' ∧ n.selected ⊆ n'.selected

theorem retains_of_mem (hn : n ∈ d.nodes) : d.Retains n :=
  ⟨n, hn, .refl n, List.Subset.refl _⟩

theorem Retains.modify (h : d.Retains n) {f : Node → Node} (hf : ∀ n : Node, n.Keeps (f n))
    (hs : ∀ n : Node, n.selected ⊆ (f n).selected) : (d.modify id f).Retains n := by
  obtain ⟨n', hn', hkeeps, hselected⟩ := h
  refine ⟨_, mem_modify.2 ⟨n', hn', rfl⟩, ?_⟩
  split
  · exact ⟨hkeeps.trans (hf n'), List.Subset.trans hselected (hs n')⟩
  · exact ⟨hkeeps, hselected⟩

theorem Retains.setPinned (h : d.Retains n) (parent : Option NodeId) (fixed : Bool) :
    (d.setPinned parent fixed).Retains n := by
  cases parent with
  | none => exact h
  | some p =>
    refine h.modify (fun n => ?_) fun n => ?_
    · split
      · exact .refl n
      · exact ⟨rfl, rfl, rfl, List.Subset.refl _⟩
    · split <;> exact List.Subset.refl _

/-- Only candidates are hidden. -/
theorem Retains.collapseValues (h : d.Retains n) (hd : d.Shape) (hk : n.kind ≠ .value)
    (id : NodeId) : (d.collapseValues id).2.Retains n := by
  cases hm : d.node? id with
  | none => rwa [collapseValues_of_collapsed (by simp [hm])]
  | some m =>
    cases he : m.expanded with
    | false => rwa [collapseValues_of_collapsed (by simp [hm, he])]
    | true =>
      rw [collapseValues_eq hm he]
      have hkept : (d.withoutValues id).Retains n := by
        obtain ⟨n', hn', hkeeps, hselected⟩ := h
        refine ⟨n', List.mem_filter.2 ⟨hn', ?_⟩, hkeeps, hselected⟩
        rw [Bool.not_eq_true', ← Bool.not_eq_true, List.contains_iff_mem, hd.mem_shown_iff id hn',
          Node.kind_of_origin hkeeps.origin]
        exact fun hvalue => hk hvalue.1
      refine Retains.setPinned ?_ _ _
      exact hkept.modify (fun _ => ⟨rfl, rfl, rfl, List.Subset.refl _⟩) fun _ => List.Subset.refl _

theorem Retains.addValueNodes (h : d.Retains n) (id : NodeId) (label : String) (rows : List Row) :
    (rows.foldl (addValueNode id label) d).Retains n := by
  obtain ⟨n', hn', hkeeps⟩ := h
  refine ⟨n', ?_, hkeeps⟩
  rw [addValueNodes_nodes]
  exact List.mem_append_left _ hn'

theorem Retains.markExpanded (h : d.Retains n) (id : NodeId) (parent : Option NodeId) :
    ((d.modify id fun n => { n with fixed := true, expanded := true }).setPinned
      parent true).Retains n := by
  refine Retains.setPinned ?_ parent true
  exact h.modify (fun _ => ⟨rfl, rfl, rfl, List.Subset.refl _⟩) fun _ => List.Subset.refl _

theorem Retains.expandValues (h : d.Retains n) (hd : d.Shape) (hk : n.kind ≠ .value)
    (id : NodeId) : (d.expandValues id).2.Retains n := by
  have hhide := h.collapseValues hd hk id
  cases hm : d.node? id with
  | none => rwa [expandValues_of_none (by simp [hm])]
  | some m =>
    cases hrows : m.data with
    | none => rwa [expandValues_of_none (by simp [hm, hrows])]
    | some rows =>
      rw [expandValues_eq hm hrows]
      exact (hhide.addValueNodes id m.label _).markExpanded id m.parent

/-- All rows of the page are shown. -/
theorem WellFormed.exists_shown (h : d.WellFormed) (hn : d.node? id = some n) {rows : List Row}
    (hrows : n.data = some rows) {row : Row} (hrow : row ∈ pageRows d.pageSize n rows) :
    ∃ m ∈ (d.expandValues id).2.valueNodes id, m.Offers row := by
  have hshape := (h.expandValues id).toShape
  have hsize := ((Traces.refl d).collapseValues id).pageSize
  rw [← hsize] at hrow
  rw [expandValues_eq hn hrows] at hshape ⊢
  obtain ⟨m, hm, hk, hp, hoffers⟩ :=
    exists_addValueNodes hrow id n.label (d.collapseValues id).2
  obtain ⟨m', hm', hkeeps, -⟩ := (retains_of_mem hm).markExpanded id n.parent
  refine ⟨m', hshape.mem_valueNodes.2 ⟨hm', ?_, ?_⟩, hoffers.of_origin hkeeps.origin⟩
  · rw [Node.kind_of_origin hkeeps.origin, hk]
  · rw [Node.parent_of_origin hkeeps.origin, hp]

end Diagram

end PatternQuery
