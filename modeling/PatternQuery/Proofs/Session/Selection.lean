import PatternQuery.Proofs.Diagram.Candidates
import PatternQuery.Proofs.Session.Handling

/-!
# Selected values among candidates

Candidates are stored without the values that are selected at that time (`Diagram.Refreshes`), and
these stay out as long as they are selected (`Diagram.Handlings.leavesOut`). A value that is
selected from candidates which were stored before is still among them, so it is offered again as
soon as its page is shown (`Diagram.WellFormed.repeats_of_selectValue`).
-/

namespace PatternQuery

/-- No row that is stored on the node stands for the value. -/
def Provider.LeavesOut (q : Provider) (n : Node) (v : SelectedValue) : Prop :=
  ∀ rows, n.data = some rows → v.AbsentFrom (q.attribute n) rows

/-- What is stored on the node leaves out all that is selected on it. -/
def Provider.Clean (q : Provider) (n : Node) : Prop := ∀ v ∈ n.selected, q.LeavesOut n v

/-- The row of a candidate holds the value. -/
def Node.Repeats (m : Node) (a : Attribute) (v : SelectedValue) : Prop :=
  ∃ row, m.attributes = some row ∧ (v.constraintValue a).equals (Row.constraintValue row a)

instance (m : Node) (a : Attribute) (v : SelectedValue) : Decidable (m.Repeats a v) :=
  decidable_of_iff
    (∃ row ∈ m.attributes, (v.constraintValue a).equals (Row.constraintValue row a)) (by
    simp [Node.Repeats])

/-- A candidate holds what the attribute asks for. Only internal ids may be missing. -/
def Node.Answers (m : Node) (a : Attribute) : Prop := a = .internalId → m.internalId ≠ none

variable {q : Provider} {n n' m : Node} {v : SelectedValue} {a : Attribute}

theorem Provider.LeavesOut.congr (h : q.LeavesOut n v) (hlabel : n'.label = n.label)
    (hdata : n'.data = n.data) : q.LeavesOut n' v := by
  intro rows hrows
  rw [hdata] at hrows
  rw [Provider.attribute, hlabel]
  exact h rows hrows

theorem Provider.leavesOut_of_none (h : n.data = none) (v : SelectedValue) : q.LeavesOut n v := by
  intro rows hrows
  rw [h] at hrows
  simp at hrows

/-! ## What is selected -/

theorem Value.ofInt64_of_toInt64? {x : Value} {i : Int64} (h : x.toInt64? = some i) :
    Value.ofInt64 i = x := by
  cases x with
  | int n =>
    obtain ⟨hn, hi⟩ := Option.ite_none_right_eq_some.1 h
    rw [← Option.some.inj hi, Value.ofInt64, Int64.toInt_ofInt_of_le hn.1 hn.2]
  | _ => simp [Value.toInt64?] at h

/-- A candidate is selected with the value of its row. -/
theorem Node.Offers.constraintValue {row : Row} (h : m.Offers row) (ha : m.Answers a) :
    (Diagram.pickedValue m).constraintValue a = Row.constraintValue row a := by
  cases a with
  | property name => simp [SelectedValue.constraintValue, Diagram.pickedValue, h.attributes,
      Row.constraintValue, Attribute.column]
  | internalId =>
    obtain ⟨i, hi⟩ := Option.ne_none_iff_exists'.1 (ha rfl)
    have hrow : Row.internalId row = some i := h.internalId.symm.trans hi
    obtain ⟨x, hx, hxi⟩ := Option.bind_eq_some_iff.1 hrow
    simp [SelectedValue.constraintValue, Diagram.pickedValue, hi, Row.constraintValue,
      Attribute.column, hx, Value.ofOption, Value.ofInt64_of_toInt64? hxi]

theorem Node.Offers.repeats_iff {row : Row} (h : m.Offers row) :
    m.Repeats a v ↔ (v.constraintValue a).equals (Row.constraintValue row a) := by
  simp [Node.Repeats, h.attributes]

namespace Diagram

variable {d d' e : Diagram} {id : NodeId}

/-! ## Candidates that are stored -/

theorem id_ne_of_node? (hid : d.node? id = none) (hn : n ∈ d.nodes) : n.id ≠ id := by
  intro he
  have hsome := node?_isSome_iff.2 ⟨n, hn, he⟩
  simp [hid] at hsome

/-- Whatever was changed on a node, all that is selected on it is left out then. -/
def Refreshes (q : Provider) (d d' : Diagram) : Prop := ∀ n' ∈ d'.nodes, q.Clean n' ∨
  ∃ n ∈ d.nodes, n'.id = n.id ∧ n'.label = n.label ∧ n'.data = n.data ∧ n'.selected ⊆ n.selected

theorem refreshes_of_keeps
    (h : ∀ n' ∈ d'.nodes, n'.data = none ∨ ∃ n ∈ d.nodes, n.Keeps n') (q : Provider) :
    Refreshes q d d' := by
  intro n' hn'
  rcases h n' hn' with hdata | ⟨n, hn, hkeeps⟩
  · exact .inl fun v _ => Provider.leavesOut_of_none hdata v
  · exact .inr ⟨n, hn, Node.id_of_origin hkeeps.origin, Node.label_of_origin hkeeps.origin,
      hkeeps.data, hkeeps.selected⟩

theorem Refreshes.refl (q : Provider) (d : Diagram) : Refreshes q d d :=
  fun n hn => .inr ⟨n, hn, rfl, rfl, rfl, List.Subset.refl _⟩

theorem Refreshes.trans (h : Refreshes q d d') (h' : Refreshes q d' e) : Refreshes q d e := by
  intro n'' hn''
  rcases h' n'' hn'' with hclean | ⟨n', hn', hid', hlabel', hdata', hselected'⟩
  · exact .inl hclean
  · rcases h n' hn' with hclean | ⟨n, hn, hid, hlabel, hdata, hselected⟩
    · exact .inl fun v hv => (hclean v (hselected' hv)).congr hlabel' hdata'
    · exact .inr ⟨n, hn, hid'.trans hid, hlabel'.trans hlabel, hdata'.trans hdata,
        List.Subset.trans hselected' hselected⟩

/-- What was left out stays so. -/
theorem Refreshes.clean (h : Refreshes q d d') (P : NodeId → Prop)
    (hclean : ∀ n ∈ d.nodes, P n.id → q.Clean n) : ∀ n' ∈ d'.nodes, P n'.id → q.Clean n' := by
  intro n' hn' hP
  rcases h n' hn' with hclean' | ⟨n, hn, hid, hlabel, hdata, hselected⟩
  · exact hclean'
  · rw [hid] at hP
    exact fun v hv => (hclean n hn hP v (hselected hv)).congr hlabel hdata

theorem Traces.refreshes (h : d.Traces d') (q : Provider) : Refreshes q d d' :=
  refreshes_of_keeps (fun n' hn' => (h.nodes n' hn').symm.imp_left Node.Fresh.data) q

theorem refreshes_expandValues (q : Provider) (id : NodeId) (d : Diagram) :
    Refreshes q d (d.expandValues id).2 := by
  have hhide := ((Traces.refl d).collapseValues id).refreshes q
  cases hn : d.node? id with
  | none => rwa [expandValues_of_none (by simp [hn])]
  | some n =>
    cases hdata : n.data with
    | none => rwa [expandValues_of_none (by simp [hn, hdata])]
    | some rows =>
      rw [expandValues_eq hn hdata]
      refine (hhide.trans (refreshes_of_keeps (fun n' hn' => ?_) q)).trans
        ((traces_markExpanded id n.parent _).refreshes q)
      rcases mem_addValueNodes hn' with hn' | ⟨-, -, hdata', -⟩
      · exact .inr ⟨n', hn', .refl n'⟩
      · exact .inl hdata'

theorem refreshes_turnPage (q : Provider) (id : NodeId) (turn : Nat → Nat) (d : Diagram) :
    Refreshes q d (d.turnPage id turn).2 := by
  have hturn : Refreshes q d (d.modify id fun n => { n with page := turn n.page }) := by
    intro n' hn'
    obtain ⟨n, hn, rfl⟩ := mem_modify.1 hn'
    refine .inr ⟨n, hn, ?_⟩
    split
    · exact ⟨rfl, rfl, rfl, List.Subset.refl _⟩
    · exact ⟨rfl, rfl, rfl, List.Subset.refl _⟩
  rw [turnPage_snd]
  exact hturn.trans (refreshes_expandValues q id _)

/-- Rows may be stored that leave out what is selected. -/
theorem Numbered.refreshes_setData (hd : d.Numbered) {rows : List Row} (hn : d.node? id = some n)
    (hrows : q.Omits n rows) : Refreshes q d (d.setData id rows).2 ∧
      ∀ n' ∈ (d.setData id rows).2.nodes, n'.id = id → q.Clean n' := by
  have hclean : q.Clean { n with data := some rows, page := 1 } := by
    intro v hv rows' hrows'
    rw [← Option.some.inj hrows']
    exact hrows v hv
  unfold Diagram.setData
  rw [hn]
  refine ⟨fun n' hn' => ?_, fun n' hn' hid => ?_⟩
  all_goals
    obtain ⟨k, hk, rfl⟩ := mem_modify.1 hn'
    by_cases hkid : k.id = id
  · obtain rfl := hd.eq_of_node? hn hk hkid
    rw [if_pos hkid]
    exact .inl hclean
  · rw [if_neg hkid]
    exact .inr ⟨k, hk, rfl, rfl, rfl, List.Subset.refl _⟩
  · obtain rfl := hd.eq_of_node? hn hk hkid
    rw [if_pos hkid]
    exact hclean
  · rw [if_neg hkid] at hid
    exact absurd hid hkid

/-! ## Values that are selected -/

/-- Whatever is selected on a node of `d'` is left out there, or it was selected in `d` already,
with the same candidates, or it is new. -/
def Settles (q : Provider) (d d' : Diagram) : Prop :=
  ∀ n' ∈ d'.nodes, ∀ v ∈ n'.selected, q.LeavesOut n' v ∨ ¬ d.Knows v.id ∨
    ∃ n ∈ d.nodes, n'.id = n.id ∧ n'.label = n.label ∧ n'.data = n.data ∧ v ∈ n.selected

theorem Settles.refl (q : Provider) (d : Diagram) : Settles q d d :=
  fun n hn _ hv => .inr (.inr ⟨n, hn, rfl, rfl, rfl, hv⟩)

theorem Settles.trans (h : Settles q d d') (hc : d.Continues d') (h' : Settles q d' e) :
    Settles q d e := by
  intro n'' hn'' v hv
  rcases h' n'' hn'' v hv with hout | hnew | ⟨n', hn', hid', hlabel', hdata', hv'⟩
  · exact .inl hout
  · exact .inr (.inl fun hknown => hnew (hc.knows hknown))
  · rcases h n' hn' v hv' with hout | hnew | ⟨n, hn, hid, hlabel, hdata, hvn⟩
    · exact .inl (hout.congr hlabel' hdata')
    · exact .inr (.inl hnew)
    · exact .inr (.inr ⟨n, hn, hid'.trans hid, hlabel'.trans hlabel, hdata'.trans hdata, hvn⟩)

theorem Refreshes.settles (h : Refreshes q d d') : Settles q d d' := by
  intro n' hn' v hv
  rcases h n' hn' with hclean | ⟨n, hn, hid, hlabel, hdata, hselected⟩
  · exact .inl (hclean v hv)
  · exact .inr (.inr ⟨n, hn, hid, hlabel, hdata, hselected hv⟩)

/-- What is selected anew has the number of a candidate. -/
theorem WellFormed.settles_selectValue (h : d.WellFormed) (q : Provider) (id : NodeId) :
    Settles q d (d.selectValue id).2 := by
  rcases h.selectValue_cases id with ⟨e, he⟩ | ⟨m, hm, p, rfl, hk, hp⟩
  · rw [he]
    exact .refl q d
  · rw [h.selectValue_eq hm hk hp]
    have hpick : Settles q d (d.pick p (pickedValue m)) := by
      intro n' hn' v hv
      obtain ⟨n, hn, horigin, hdata, -, hselected⟩ := mem_pick hn'
      rcases hselected v hv with hv | rfl
      · exact .inr (.inr ⟨n, hn, Node.id_of_origin horigin, Node.label_of_origin horigin, hdata,
          hv⟩)
      · exact .inr (.inl fun hknown => hknown.kind m hm rfl hk)
    exact hpick.trans (continues_pick p _ d)
      (((Traces.refl (d.pick p (pickedValue m))).collapseValues p).refreshes q).settles

theorem traces_storeCounts (nodes : List NodeId) (counts : List Nat) (d : Diagram) :
    d.Traces (Session.storeCounts nodes counts d) := by
  refine Session.storeCounts_induction (P := d.Traces) (fun e id count h => ?_) (.refl d) nodes
    counts
  exact h.modify fun _ => ⟨rfl, rfl, rfl, List.Subset.refl _⟩

/-- What one change does to candidates. -/
inductive CandidateStep (q : Provider) (d : Diagram) : Diagram → Prop where
  | trace {d' : Diagram} (h : d.Traces d') : CandidateStep q d d'
  | expand (id : NodeId) : CandidateStep q d (d.expandValues id).2
  | select (id : NodeId) : CandidateStep q d (d.selectValue id).2
  | turn (id : NodeId) (turn : Nat → Nat) : CandidateStep q d (d.turnPage id turn).2
  | store {id : NodeId} {n : Node} {rows : List Row} (hn : d.node? id = some n)
    (hk : n.kind ≠ .value) (he : n.expanded = false) (hrows : q.Omits n rows) :
    CandidateStep q d (d.setData id rows).2
  | refill {id : NodeId} {n : Node} {rows : List Row} (hn : d.node? id = some n)
    (hk : n.kind ≠ .value) (hrows : q.Omits n rows) :
    CandidateStep q d ((d.setData id rows).2.expandValues id).2

theorem candidateStep_nextPage (q : Provider) (id : NodeId) (d : Diagram) :
    CandidateStep q d (d.nextPage id).2 := by
  unfold Diagram.nextPage
  split
  · exact .turn id _
  · exact .trace (.refl d)

theorem candidateStep_previousPage (q : Provider) (id : NodeId) (d : Diagram) :
    CandidateStep q d (d.previousPage id).2 := by
  unfold Diagram.previousPage
  split
  · exact .turn id _
  · exact .trace (.refl d)

/-- Every change of a session is one of these. -/
theorem Handling.candidateStep (h : Handling q d d') (hd : d.Numbered) : CandidateStep q d d' := by
  cases h with
  | run o ho hstore =>
    cases o with
    | addRoot label anchor => exact .trace (traces_addRoot q label anchor d)
    | addSchema s anchor => exact .trace (traces_addSchema q s anchor d)
    | clear => exact .trace (traces_clear d)
    | expandRelationship id index => exact .trace (traces_expandRelationship q id index d)
    | setRelationships id segments => exact .trace (traces_setRelationships id segments d)
    | setData id rows => exact absurd rfl (hstore id rows)
    | expandValues id => exact .expand id
    | collapseValues id => exact .trace ((Traces.refl d).collapseValues id)
    | selectValue id => exact .select id
    | removeValue id value => exact .trace (hd.traces_removeValue id value)
    | negate id => exact .trace (traces_negate id d)
    | removeNode id => exact .trace (traces_removeNode id d)
    | nextPage id => exact candidateStep_nextPage q id d
    | previousPage id => exact candidateStep_previousPage q id d
  | count nodes counts => exact .trace (traces_storeCounts nodes counts d)
  | store hn hk he hrows => exact .store hn hk he hrows
  | refill hn hk hrows => exact .refill hn hk hrows

theorem Handling.settles (h : Handling q d d') (hd : d.WellFormed) : Settles q d d' := by
  cases h.candidateStep hd.toNumbered with
  | trace h => exact (h.refreshes q).settles
  | expand id => exact (refreshes_expandValues q id d).settles
  | select id => exact hd.settles_selectValue q id
  | turn id turn => exact (refreshes_turnPage q id turn d).settles
  | store hn _ _ hrows => exact (hd.refreshes_setData hn hrows).1.settles
  | refill hn _ hrows =>
    exact ((hd.refreshes_setData hn hrows).1.trans (refreshes_expandValues q _ _)).settles

theorem Handling.curated (h : Handling q d d') (hd : d.WellFormed) (hc : d.Curated) :
    d'.Curated := by
  cases h.candidateStep hd.toNumbered with
  | trace h => exact hc.of_traces hd.toNumbered h
  | expand id => exact hd.curated_expandValues hc.remembers fun n hn _ => hc.paged n hn
  | select id => exact hd.curated_selectValue hc id
  | turn id turn => exact hd.curated_turnPage hc id turn
  | store hn hk he _ => exact hd.curated_setData hc hn he _ hk
  | refill hn hk _ => exact hd.curated_refill hc _ (spares_of_node? hn hk)

theorem Handlings.curated (h : Handlings q d d') (hd : d.WellFormed) (hc : d.Curated) :
    d'.Curated := by
  induction h with
  | refl => exact hc
  | tail hsteps hstep ih => exact hstep.curated (Handlings.wellFormed hsteps hd) ih

theorem Handlings.settles (h : Handlings q d d') (hd : d.WellFormed) : Settles q d d' := by
  induction h with
  | refl => exact .refl q d
  | tail hsteps hstep ih =>
    exact ih.trans (Handlings.continues hsteps) (hstep.settles (Handlings.wellFormed hsteps hd))

/-- A value that is selected all the time is left out for good once it is left out, or once other
candidates are stored than those it was selected with. -/
theorem Handlings.leavesOut (h : Handlings q d d') (hd : d.WellFormed) (hc : d.Curated)
    (hn : n ∈ d.nodes) (hn' : n' ∈ d'.nodes) (hid : n'.id = n.id) (hv : v ∈ n.selected)
    (hv' : v ∈ n'.selected) (hout : q.LeavesOut n v ∨ n'.data ≠ n.data) : q.LeavesOut n' v := by
  rcases h.settles hd n' hn' v hv' with hout' | hnew | ⟨k, hk, hkid, hlabel, hdata, -⟩
  · exact hout'
  · exact absurd (hc.remembers n hn v hv) hnew
  · obtain rfl := hd.eq_of_id_eq hk hn (hkid.symm.trans hid)
    rcases hout with hout | hne
    · exact hout.congr hlabel hdata
    · exact absurd hdata hne

/-- What is left out is not offered, and nothing that is offered would be selected like it. -/
theorem Curated.not_repeats (hc : d.Curated) (hd : d.Shape) (hn : n ∈ d.nodes)
    (hout : q.LeavesOut n v) (hm : m ∈ d.valueNodes n.id) : ¬ m.Repeats (q.attribute n) v ∧
      (m.Answers (q.attribute n) → ¬ (v.constraintValue (q.attribute n)).equals
        ((pickedValue m).constraintValue (q.attribute n))) := by
  obtain ⟨hm, hk, hp⟩ := hd.mem_valueNodes.1 hm
  obtain ⟨rows, hrows, row, hrow, hoffers⟩ := hc.paged n hn m hm hk hp
  have hne := hout rows hrows row (mem_of_mem_pageRows hrow)
  refine ⟨mt hoffers.repeats_iff.1 hne, fun ha => ?_⟩
  rwa [hoffers.constraintValue ha]

/-- A candidate that is selected is offered again with the next page that is shown. -/
theorem WellFormed.repeats_of_selectValue (h : d.WellFormed) (hc : d.Curated) {p : NodeId}
    (hm : m ∈ d.valueNodes p) :
    ∃ n' ∈ ((d.selectValue m.id).2.expandValues p).2.nodes, n'.id = p ∧
      pickedValue m ∈ n'.selected ∧ ∃ m' ∈ ((d.selectValue m.id).2.expandValues p).2.valueNodes p,
        m'.attributes = m.attributes ∧ ∀ a, m.Answers a → m'.Repeats a (pickedValue m) := by
  obtain ⟨hmd, hk, hp⟩ := h.mem_valueNodes.1 hm
  obtain ⟨n, hn, rfl, hnk⟩ := h.parentLive m hmd p hp
  obtain ⟨rows, hrows, row, hrow, hoffers⟩ := hc.paged n hn m hmd hk hp
  have hw := h.selectValue m.id
  rw [h.selectValue_eq hmd hk hp] at hw ⊢
  -- Hiding the candidates changes nothing of the node that the value was selected on.
  have hpick : { n with selected := n.selected ++ [pickedValue m] } ∈
      (d.pick n.id (pickedValue m)).nodes := mem_modify.2 ⟨n, hn, if_pos rfl⟩
  have hshape := (h.reselect ⟨n, hn, rfl, hnk⟩ fun n => n.selected ++ [pickedValue m]).toShape
  have hsize := ((Traces.refl (d.pick n.id (pickedValue m))).collapseValues n.id).pageSize
  obtain ⟨n₁, hn₁, hkeeps₁, hselected₁⟩ :=
    (retains_of_mem hpick).collapseValues hshape hnk n.id
  have hid₁ : n₁.id = n.id := Node.id_of_origin hkeeps₁.origin
  have hk₁ : n₁.kind ≠ .value := by
    rw [Node.kind_of_origin hkeeps₁.origin]
    exact hnk
  obtain ⟨n', hn', hkeeps', hselected'⟩ :=
    (retains_of_mem hn₁).expandValues hw.toShape hk₁ n.id
  have hrow₁ : row ∈ pageRows ((d.pick n.id (pickedValue m)).collapseValues n.id).2.pageSize
      n₁ rows := by
    rw [hsize, hkeeps₁.pageRows_eq]
    exact hrow
  obtain ⟨m', hm', hoffers'⟩ :=
    hw.exists_shown (hw.node?_eq_some.2 ⟨hn₁, hid₁⟩) (hkeeps₁.data.trans hrows) hrow₁
  refine ⟨n', hn', (Node.id_of_origin hkeeps'.origin).trans hid₁,
    hselected' (hselected₁ (by simp)), m', hm',
    hoffers'.attributes.trans hoffers.attributes.symm, fun a ha => ?_⟩
  rw [hoffers'.repeats_iff, hoffers.constraintValue ha]
  exact Value.equals_self _

end Diagram

end PatternQuery
