import PatternQuery.Proofs.Session.Merging
import PatternQuery.Proofs.Statement.Statements
import PatternQuery.Session.Run

/-!
# Relations, candidates and pages

Loading relations, fetching candidates of a node and showing them only extend the diagram of a
session, wherever they come between an update and its answers. A new query takes the place of the
old one after all requests are cancelled.
-/

namespace PatternQuery.Session

variable {s : Session} {id : NodeId}

/-- If the relations of a node come from a schema, it spares candidate values. -/
def SparesSchema (s : Session) (id : NodeId) : Prop :=
  ∀ n, s.diagram.node? id = some n → (s.properties n.label).schema.isSome → n.kind ≠ .value

theorem Spares.schema (h : s.Spares id) : s.SparesSchema id := fun n hn _ => h n hn

/-! ## Relations -/

theorem Valid.evolves_expandSegments (h : s.Valid) (id : NodeId) (index count : Nat) :
    s.Evolves (expandSegments id index count s).2 := by
  induction count generalizing s index with
  | zero => exact .refl h
  | succ count ih =>
    have hd := h.diagram.refines_expandRelationship s.compiler.provider id index
    rw [expandSegments, Call.get_bind]
    refine Call.evolves_bind (Call.evolves_onDiagram h hd) fun _ s₁ _ h₁ => ?_
    exact Call.evolves_bind (ih h₁ (index + 1)) fun _ _ _ h₂ => .refl h₂

theorem Valid.evolves_autoExpand (h : s.Valid) (id : NodeId) : s.Evolves (autoExpand id s).2 := by
  refine Call.evolves_bind (Call.evolves_requireNode h id) fun node s₁ _ h₁ => ?_
  rw [Call.get_bind]
  split
  · exact .refl h₁
  · refine Call.evolves_bind (h₁.evolves_expandSegments id 0 _) fun children s₂ _ h₂ => ?_
    dsimp only
    split
    · exact Call.evolves_tell h₂ _ _
    · exact .refl h₂

theorem Valid.evolves_storeRelations (h : s.Valid) (hid : s.Spares id) (segments : List Segment) :
    s.Evolves (storeRelations id segments s).2 := by
  refine Call.evolves_bind
    (Call.evolves_onDiagram h (h.diagram.refines_setRelationships segments hid)) fun _ s₁ _ h₁ => ?_
  exact Call.evolves_bind (Call.evolves_emit h₁ _) fun _ _ _ h₂ => h₂.evolves_autoExpand id

theorem SparesSchema.spares (h : s.SparesSchema id) {n : Node} (hn : s.diagram.node? id = some n)
    (hs : (s.properties n.label).schema.isSome) : s.Spares id := by
  intro m hm
  obtain rfl : n = m := Option.some.inj (hn.symm.trans hm)
  exact h n hn hs

theorem Valid.evolves_beginDiscovery (h : s.Valid) (hid : s.SparesSchema id) :
    s.Evolves (beginDiscovery id s).2 := by
  refine Call.evolves_bind (Call.evolves_requireNode h id) fun node s₁ hn h₁ => ?_
  obtain ⟨hn, rfl⟩ := Call.of_requireNode_ok hn
  rw [Call.get_bind]
  cases hs : (s₁.properties node.label).schema with
  | some schema =>
    have hspares := hid.spares hn (by rw [hs]; rfl)
    exact Call.evolves_bind (h₁.evolves_storeRelations hspares _) fun _ _ _ h₂ => .refl h₂
  | none =>
    refine Call.evolves_bind (.refl h₁) fun statement s₂ _ h₂ => ?_
    refine Call.evolves_bind (Call.evolves_onRequests h₂ (h₂.requests.later_issueDiscovery id _) ?_)
      fun _ _ _ h₃ => .refl h₃
    exact fun hq => hq.of_slots fun c => .inl (by rw [Lifecycle.issueDiscovery_slots])

/-- Relations come from a schema at once, or they are asked for. -/
theorem of_beginDiscovery_ok {d : Discovery} {s' : Session}
    (h : beginDiscovery id s = (.ok d, s')) :
    ∃ n, s.diagram.node? id = some n ∧
      ((∃ schema children, (s.properties n.label).schema = some schema ∧ d = .loaded children ∧
        storeRelations id schema.segments s = (.ok children, s')) ∨
      ∃ batch, d = .pending (s.requests.issueDiscovery id batch).1) := by
  obtain ⟨n, s₁, hnode, hbody⟩ := Call.of_bind_ok h
  obtain ⟨hn, rfl⟩ := Call.of_requireNode_ok hnode
  rw [Call.get_bind] at hbody
  refine ⟨n, hn, ?_⟩
  cases hs : (s₁.properties n.label).schema with
  | some schema =>
    rw [hs] at hbody
    obtain ⟨children, s₃, hchildren, hlast⟩ := Call.of_bind_ok hbody
    obtain ⟨rfl, rfl⟩ := Call.of_pure_ok hlast
    exact .inl ⟨schema, children, rfl, rfl, hchildren⟩
  | none =>
    rw [hs] at hbody
    obtain ⟨statement, s₃, hlift, hissue⟩ := Call.of_bind_ok hbody
    obtain ⟨-, rfl⟩ := Prod.mk.inj hlift
    obtain ⟨f, s₄, hf, hlast⟩ := Call.of_bind_ok hissue
    obtain ⟨rfl, -⟩ := Call.of_pure_ok hlast
    obtain ⟨rfl, -⟩ := Call.of_onRequests_ok hf
    exact .inr ⟨[statement], rfl⟩

/-- Relations are asked for about the node that was given. -/
theorem context_of_beginDiscovery {f : Fetch NodeId} {s' : Session}
    (h : beginDiscovery id s = (.ok (.pending f), s')) : f.context = id := by
  obtain ⟨n, -, ⟨schema, children, -, hd, -⟩ | ⟨batch, hd⟩⟩ := of_beginDiscovery_ok h
  · cases hd
  · rw [Discovery.pending.inj hd]
    rfl

/-! ### Discovering relations touches no slot and removes no node -/

theorem retains_expandSegments (id : NodeId) (index count : Nat) :
    (expandSegments id index count).Retains := by
  induction count generalizing index with
  | zero => exact Call.retains_pure []
  | succ count ih =>
    refine Call.retains_get.bind fun s => ?_
    refine (Call.retains_onDiagram fun _ _ h => h.expandRelationship _ id index).bind fun _ => ?_
    exact (ih (index + 1)).bind fun _ => Call.retains_pure _

theorem retains_autoExpand (id : NodeId) : (autoExpand id).Retains := by
  refine (Call.retains_requireNode id).bind fun node => ?_
  refine Call.retains_get.bind fun s => ?_
  split
  · exact Call.retains_pure []
  · refine (retains_expandSegments id 0 _).bind fun children => ?_
    dsimp only
    split
    · exact (Call.retains_emit _).bind fun _ => Call.retains_pure children
    · exact Call.retains_pure children

theorem retains_storeRelations (id : NodeId) (segments : List Segment) :
    (storeRelations id segments).Retains := by
  refine (Call.retains_onDiagram fun _ _ h => h.setRelationships id segments).bind fun _ => ?_
  exact (Call.retains_emit _).bind fun _ => retains_autoExpand id

theorem retains_beginDiscovery (id : NodeId) : (beginDiscovery id).Retains := by
  refine (Call.retains_requireNode id).bind fun node => ?_
  refine Call.retains_get.bind fun s => ?_
  split
  · exact (retains_storeRelations id _).bind fun _ => Call.retains_pure _
  · refine (Call.retains_lift _).bind fun statement => ?_
    exact (Call.retains_onRequests (Lifecycle.issueDiscovery_slots id _)).bind fun _ =>
      Call.retains_pure _

theorem retains_applyDiscovery (r : Fetched NodeId) : (applyDiscovery r).Retains := by
  refine (Call.retains_onRequests (Lifecycle.acceptDiscovery_slots r)).bind fun accepted => ?_
  refine Call.retains_get.bind fun s => ?_
  split
  · exact retains_storeRelations _ _
  · exact Call.retains_pure []

/-! ### Discovering relations of a node that is there is not refused -/

/-- The relations that a node has can be expanded, one after the other. -/
theorem succeeds_expandSegments {n : Node} (hn : s.diagram.node? id = some n) {index count : Nat}
    (hc : index + count ≤ n.relationships.length) : (expandSegments id index count).Succeeds s := by
  induction count generalizing s index with
  | zero => exact Call.succeeds_pure [] s
  | succ count ih =>
    have hi : index < n.relationships.length := by omega
    refine Call.Succeeds.get_bind ?_
    obtain ⟨child, d, hd, hn'⟩ := Diagram.expandRelationship_ok s.compiler.provider hn hi
    refine Call.Succeeds.after (Call.onDiagram_eq hd) ?_
    exact (ih (s := { s with diagram := d }) hn' (by omega)).bind fun _ _ _ =>
      Call.succeeds_pure _ _

theorem succeeds_autoExpand {n : Node} (hn : s.diagram.node? id = some n) :
    (autoExpand id).Succeeds s := by
  refine Call.Succeeds.after (Call.requireNode_eq hn) (Call.Succeeds.get_bind ?_)
  split
  · exact Call.succeeds_pure [] s
  · refine (succeeds_expandSegments hn (by omega)).bind fun children s₁ _ => ?_
    dsimp only
    split
    · exact ⟨children, _, rfl⟩
    · exact Call.succeeds_pure children s₁

theorem succeeds_storeRelations {n : Node} (hn : s.diagram.node? id = some n)
    (segments : List Segment) : (storeRelations id segments).Succeeds s := by
  obtain ⟨hok, n', hn'⟩ := Diagram.setRelationships_ok hn segments
  exact Call.Succeeds.after (Call.onDiagram_eq (Prod.ext hok rfl))
    (Call.Succeeds.after (c := Call.emit _) rfl (succeeds_autoExpand hn'))

theorem Valid.succeeds_beginDiscovery (h : s.Valid) {n : Node} (hn : s.diagram.node? id = some n) :
    (beginDiscovery id).Succeeds s := by
  refine Call.Succeeds.after (Call.requireNode_eq hn) (Call.Succeeds.get_bind ?_)
  split
  · exact (succeeds_storeRelations hn _).bind fun _ _ _ => Call.succeeds_pure _ _
  · obtain ⟨q, hq⟩ := s.compiler.exists_relationQuery h.diagram.toShape hn
    rw [hq]
    exact ⟨_, _, rfl⟩

/-- Whatever is answered, and whether the node is there still or not. -/
theorem succeeds_applyDiscovery (r : Fetched NodeId) (s : Session) :
    (applyDiscovery r).Succeeds s := by
  refine Call.Succeeds.after (a := (s.requests.acceptDiscovery r).1) rfl
    (Call.Succeeds.get_bind ?_)
  split
  · rename_i hcond
    obtain ⟨n, hn⟩ := Option.isSome_iff_exists.1 (Bool.and_eq_true .. ▸ hcond).2
    exact succeeds_storeRelations hn _
  · exact Call.succeeds_pure [] _

/-! ### Answers to a discovery -/

theorem Valid.evolves_acceptDiscovery (h : s.Valid) (r : Fetched NodeId) :
    s.Evolves (Call.onRequests (Lifecycle.acceptDiscovery r) s).2 := by
  refine Call.evolves_onRequests h (h.requests.later_acceptDiscovery r) fun hq => ?_
  exact hq.of_slots fun c => .inl (by rw [Lifecycle.acceptDiscovery_slots])

theorem Valid.evolves_applyDiscovery (h : s.Valid) (r : Fetched NodeId)
    (hid : (s.requests.acceptDiscovery r).1 = true → s.Spares r.context) :
    s.Evolves (applyDiscovery r s).2 := by
  refine Call.evolves_bind (h.evolves_acceptDiscovery r) fun accepted s₁ ha h₁ => ?_
  obtain ⟨haccept, hs₁⟩ := Call.of_onRequests_ok ha
  have hd : s₁.diagram = s.diagram := by rw [hs₁]
  show s₁.Evolves
    ((if (accepted && (s₁.diagram.node? r.context).isSome) = true then _ else _ : Call _) s₁).2
  split
  · rename_i hcond
    rw [Bool.and_eq_true] at hcond
    refine h₁.evolves_storeRelations ?_ _
    have := hid (haccept.trans hcond.1)
    rwa [Spares, ← hd] at this
  · exact .refl h₁

/-! ### The children that are expanded -/

/-- All of some numbers stand for nodes of the query, or for none. -/
def KnowsAll (s : Session) (ids : List NodeId) : Prop := ∀ id ∈ ids, s.diagram.Knows id

theorem knowsAll_nil (s : Session) : s.KnowsAll [] := by
  simp [KnowsAll]

/-- All of some numbers stand for nodes of the query. -/
def HasAll (s : Session) (ids : List NodeId) : Prop := ∀ id ∈ ids, s.diagram.IsQueryNode id

theorem hasAll_nil (s : Session) : s.HasAll [] := by
  simp [HasAll]

theorem HasAll.knowsAll {ids : List NodeId} (h : s.HasAll ids) (hs : s.Valid) : s.KnowsAll ids :=
  fun id hid => (h id hid).knows hs.diagram.toNumbered

variable {children : List NodeId} {s' : Session}

theorem hasAll_expandSegments {index count : Nat}
    (hc : expandSegments id index count s = (.ok children, s')) : s'.HasAll children := by
  induction count generalizing s index children with
  | zero =>
    obtain ⟨rfl, -⟩ := Call.of_pure_ok hc
    exact hasAll_nil _
  | succ count ih =>
    rw [expandSegments, Call.get_bind] at hc
    obtain ⟨child, s₁, hchild, hc⟩ := Call.of_bind_ok hc
    obtain ⟨hok, rfl⟩ := Call.of_onDiagram_ok hchild
    obtain ⟨rest, s₂, hrest, hc⟩ := Call.of_bind_ok hc
    obtain ⟨rfl, rfl⟩ := Call.of_pure_ok hc
    have hquery := Diagram.isQueryNode_expandRelationship (Prod.ext hok rfl)
    obtain ⟨-, hkept⟩ := retains_expandSegments id (index + 1) count _
    rw [hrest] at hkept
    intro c hcm
    rcases List.mem_cons.1 hcm with rfl | hcm
    · exact hkept c hquery
    · exact ih hrest c hcm

theorem hasAll_autoExpand (hc : autoExpand id s = (.ok children, s')) : s'.HasAll children := by
  obtain ⟨node, s₁, hnode, hbody⟩ := Call.of_bind_ok hc
  obtain ⟨-, rfl⟩ := Call.of_requireNode_ok hnode
  rw [Call.get_bind] at hbody
  split at hbody
  · obtain ⟨rfl, -⟩ := Call.of_pure_ok hbody
    exact hasAll_nil _
  · obtain ⟨children', s₃, hchildren, hlast⟩ := Call.of_bind_ok hbody
    have hall := hasAll_expandSegments hchildren
    dsimp only at hlast
    split at hlast
    · obtain ⟨_, s₄, hemit, hpure⟩ := Call.of_bind_ok hlast
      obtain ⟨rfl, rfl⟩ := Call.of_pure_ok hpure
      obtain ⟨-, rfl⟩ := Prod.mk.inj hemit
      exact hall
    · obtain ⟨rfl, rfl⟩ := Call.of_pure_ok hlast
      exact hall

theorem hasAll_storeRelations {segments : List Segment}
    (hc : storeRelations id segments s = (.ok children, s')) : s'.HasAll children := by
  obtain ⟨_, s₁, -, hc⟩ := Call.of_bind_ok hc
  obtain ⟨_, s₂, -, hc⟩ := Call.of_bind_ok hc
  exact hasAll_autoExpand hc

theorem hasAll_beginDiscovery (hc : beginDiscovery id s = (.ok (.loaded children), s')) :
    s'.HasAll children := by
  obtain ⟨n, -, ⟨schema, children', -, hd, hstore⟩ | ⟨batch, hd⟩⟩ := of_beginDiscovery_ok hc
  · rw [Discovery.loaded.inj hd]
    exact hasAll_storeRelations hstore
  · cases hd

theorem hasAll_applyDiscovery {r : Fetched NodeId} (hc : applyDiscovery r s = (.ok children, s')) :
    s'.HasAll children := by
  obtain ⟨accepted, s₁, -, hbody⟩ := Call.of_bind_ok hc
  rw [Call.get_bind] at hbody
  split at hbody
  · exact hasAll_storeRelations hbody
  · obtain ⟨rfl, -⟩ := Call.of_pure_ok hbody
    exact hasAll_nil _

/-! ## Candidates of a node -/

theorem Valid.evolves_beginValueFetch (h : s.Valid) (id : NodeId) :
    s.Evolves (beginValueFetch id s).2 := by
  refine Call.evolves_bind (Call.evolves_requireNode h id) fun _ s₁ _ h₁ => ?_
  show s₁.Evolves ((if s₁.requests.isValueBusy = true then _ else _ : Call _) s₁).2
  split
  · exact .refl h₁
  · refine Call.evolves_bind (.refl h₁) fun statement s₂ _ h₂ => ?_
    refine h₂.evolves_requests (h₂.requests.later_issueValue [statement] id) fun hd => ?_
    obtain ⟨hcount, hautoLoad, hresults⟩ := h₂.quiet hd
    have hslots (c : Concern) (hc : c ≠ .value) :=
      Lifecycle.issueValue_slots [statement] id s₂.requests hc
    exact ⟨(hslots .count (by decide)).trans hcount, (hslots .autoLoad (by decide)).trans hautoLoad,
      (hslots .results (by decide)).trans hresults⟩

/-- Candidates are asked for about the node that was given. -/
theorem context_of_beginValueFetch {f : Fetch NodeId} {s' : Session}
    (h : beginValueFetch id s = (.ok f, s')) : f.context = id := by
  obtain ⟨node, s₁, -, hbody⟩ := Call.of_bind_ok h
  rw [Call.get_bind] at hbody
  split at hbody
  · cases hbody
  · rename_i hbusy
    obtain ⟨statement, s₃, hlift, hissue⟩ := Call.of_bind_ok hbody
    obtain ⟨-, rfl⟩ := Prod.mk.inj hlift
    have hf : (s₁.requests.issueValue [statement] id).1 = .ok f := congrArg Prod.fst hissue
    rw [Lifecycle.issueValue, if_neg hbusy] at hf
    rw [← Except.ok.inj hf]
    exact congrArg Fetch.context (Lifecycle.issue_fst .value [statement] id s₁.requests)

theorem Valid.evolves_applyValueFetch (h : s.Valid) (r : Fetched NodeId)
    (hid : (s.requests.accept r).1 = true → s.Spares r.context) :
    s.Evolves (applyValueFetch r s).2 := by
  refine Call.evolves_bind (Call.evolves_accept h r) fun accepted s₁ ha h₁ => ?_
  obtain ⟨haccept, hs₁⟩ := Call.of_onRequests_ok ha
  have hd : s₁.diagram = s.diagram := by rw [hs₁]
  rw [Call.get_bind]
  cases accepted with
  | false => exact .refl h₁
  | true =>
    cases hn : s₁.diagram.node? r.context with
    | none => exact .refl h₁
    | some node =>
      cases r.outcome with
      | failed reason => exact .refl h₁
      | aborted => exact .refl h₁
      | completed results =>
        have hspares : s₁.Spares r.context := by
          have := hid haccept
          rwa [Spares, ← hd] at this
        refine Call.evolves_bind (h₁.evolves_storeCandidates _ hspares) fun _ s₃ _ h₃ => ?_
        exact Call.evolves_bind (Call.evolves_onDiagram h₃ (h₃.diagram.refines_expandValues _))
          fun _ _ _ h₄ => Call.evolves_tell h₄ _ _

theorem Valid.evolves_showCandidates (h : s.Valid) (id : NodeId) :
    s.Evolves (showCandidates id s).2 := by
  exact Call.evolves_bind (Call.evolves_onDiagram h (h.diagram.refines_expandValues id))
    fun _ _ _ h₁ => Call.evolves_tell h₁ _ _

theorem Valid.evolves_hideCandidates (h : s.Valid) (id : NodeId) :
    s.Evolves (hideCandidates id s).2 := by
  exact Call.evolves_bind (Call.evolves_onDiagram h (h.diagram.refines_collapseValues id))
    fun _ _ _ h₁ => Call.evolves_tell h₁ _ _

/-! ## Pages -/

theorem Valid.evolves_moved (h : s.Valid) {f : Diagram → Except GraphError Bool × Diagram}
    (hf : s.diagram.Refines (f s.diagram).2) : s.Evolves ((do
      let moved ← Call.onDiagram f
      if moved then Call.emit .graphChanged
      return moved : Call Bool) s).2 := by
  refine Call.evolves_bind (Call.evolves_onDiagram h hf) fun _ s₁ _ h₁ => ?_
  dsimp only
  split
  · exact Call.evolves_tell h₁ _ _
  · exact .refl h₁

theorem Valid.evolves_nextPage (h : s.Valid) (id : NodeId) :
    s.Evolves (Session.nextPage id s).2 :=
  h.evolves_moved (h.diagram.refines_nextPage id)

theorem Valid.evolves_previousPage (h : s.Valid) (id : NodeId) :
    s.Evolves (Session.previousPage id s).2 :=
  h.evolves_moved (h.diagram.refines_previousPage id)

/-! ## New queries -/

theorem cancelAll_quiet (l : Lifecycle) : l.cancelAll.Quiet := ⟨rfl, rfl, rfl⟩

theorem reset_slots (s : Session) : (reset s).2.requests.slots = {} := rfl

/-- A reset cancels all requests, so no answer comes to the empty diagram. -/
theorem Valid.evolves_reset (h : s.Valid) : s.Evolves (reset s).2 := by
  have hcancel := h.evolves_requests h.requests.later_cancelAll fun _ => cancelAll_quiet _
  have hclear := hcancel.valid.evolves_diagram_of_quiet (cancelAll_quiet _)
    (.clear s.diagram) (Diagram.continues_clear s.diagram)
  refine Call.evolves_bind (s := s) ?_ fun _ _ _ h₁ => Call.evolves_emit h₁ _
  exact Evolves.modify (f := fun s' => { s' with results := [], graphResults := [] })
    (hcancel.trans hclear) rfl rfl rfl

/-- A new query is made in a session without nodes. If there are any, the session is reset first. -/
theorem replaceDiagram_eq (f : Diagram → NodeId × Diagram) (s : Session) :
    ∃ s₁, (s₁ = (reset s).2 ∨ s₁ = s ∧ s.diagram.isEmpty = true) ∧ replaceDiagram f s =
      (.ok (f s₁.diagram).1, { s₁ with
        diagram := (f s₁.diagram).2
        events := s₁.events ++ [.graphChanged] }) := by
  rw [replaceDiagram, Call.get_bind]
  cases s.diagram.isEmpty with
  | true => exact ⟨s, .inr ⟨rfl, rfl⟩, rfl⟩
  | false => exact ⟨(reset s).2, .inl rfl, rfl⟩

theorem succeeds_replaceDiagram (f : Diagram → NodeId × Diagram) (s : Session) :
    (replaceDiagram f).Succeeds s := by
  obtain ⟨s₁, -, he⟩ := replaceDiagram_eq f s
  exact ⟨_, _, he⟩

/-- The new diagram comes from the operation that was given. -/
theorem of_replaceDiagram_ok {f : Diagram → NodeId × Diagram} {root : NodeId} {s' : Session}
    (h : replaceDiagram f s = (.ok root, s')) : ∃ d, root = (f d).1 ∧ s'.diagram = (f d).2 := by
  obtain ⟨s₁, -, he⟩ := replaceDiagram_eq f s
  obtain ⟨hroot, rfl⟩ := Prod.mk.inj (he.symm.trans h)
  exact ⟨s₁.diagram, (Except.ok.inj hroot).symm, rfl⟩

theorem Valid.evolves_replaceDiagram (h : s.Valid) {f : Diagram → NodeId × Diagram}
    (hw : ∀ d : Diagram, d.WellFormed → (f d).2.WellFormed)
    (hc : ∀ d : Diagram, d.Continues (f d).2) : s.Evolves (replaceDiagram f s).2 := by
  obtain ⟨s₁, hs₁, he⟩ := replaceDiagram_eq f s
  obtain ⟨h₁, hq⟩ : s.Evolves s₁ ∧ s₁.requests.Quiet := by
    rcases hs₁ with rfl | ⟨rfl, hd⟩
    · exact ⟨h.evolves_reset, cancelAll_quiet s.requests⟩
    · exact ⟨.refl h, h.quiet hd⟩
  have hplace := h₁.valid.evolves_diagram_of_quiet hq (hw _ h₁.valid.diagram) (hc s₁.diagram)
  rw [he]
  exact Evolves.modify (f := fun s' => { s' with events := s₁.events ++ [.graphChanged] })
    (h₁.trans hplace) rfl rfl rfl

end PatternQuery.Session
