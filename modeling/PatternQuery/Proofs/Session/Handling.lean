import PatternQuery.Proofs.Session.Runs
import PatternQuery.Proofs.Statement.Contributions

/-!
# What a session does to its diagram

Whatever comes of its requests, a session changes its diagram by operations, and it stores
candidates in two ways only: where none are shown, or showing them at once, and each time without
those that are selected (`Diagram.Handling`). All steps of a session are sequences of such changes
(`World.Leads.handles`), so what they keep holds of every session.
-/

namespace PatternQuery

/-- No row of a list holds the value. -/
def SelectedValue.AbsentFrom (v : SelectedValue) (a : Attribute) (rows : List Row) : Prop :=
  ∀ row ∈ rows, ¬ (v.constraintValue a).equals (Row.constraintValue row a)

/-- None of the rows holds a value that is selected on the node. -/
def Provider.Omits (q : Provider) (n : Node) (rows : List Row) : Prop :=
  ∀ v ∈ n.selected, v.AbsentFrom (q.attribute n) rows

theorem Session.continues_storeCounts (nodes : List NodeId) (counts : List Nat) (d : Diagram) :
    d.Continues (storeCounts nodes counts d) := by
  refine storeCounts_induction (P := d.Continues) (fun e id count h => ?_) (.refl d) nodes counts
  exact h.modify fun _ => rfl

namespace Diagram

/-- One change that a session makes. -/
inductive Handling (q : Provider) : Diagram → Diagram → Prop where
  | run {d : Diagram} (o : Operation) (ho : o.sparesValues d)
    (hstore : ∀ id rows, o ≠ .setData id rows) : Handling q d (o.run q d).2
  | count {d : Diagram} (nodes : List NodeId) (counts : List Nat) :
    Handling q d (Session.storeCounts nodes counts d)
  | store {d : Diagram} {id : NodeId} {n : Node} {rows : List Row} (hn : d.node? id = some n)
    (hk : n.kind ≠ .value) (he : n.expanded = false) (hrows : q.Omits n rows) :
    Handling q d (d.setData id rows).2
  | refill {d : Diagram} {id : NodeId} {n : Node} {rows : List Row} (hn : d.node? id = some n)
    (hk : n.kind ≠ .value) (hrows : q.Omits n rows) :
    Handling q d ((d.setData id rows).2.expandValues id).2

/-- One change after another. -/
def Handlings (q : Provider) : Diagram → Diagram → Prop := Relation.ReflTransGen (Handling q)

variable {q : Provider} {d d' : Diagram}

theorem Handlings.refl (q : Provider) (d : Diagram) : Handlings q d d := Relation.ReflTransGen.refl

theorem Handlings.trans {d'' : Diagram} (h : Handlings q d d') (h' : Handlings q d' d'') :
    Handlings q d d'' :=
  Relation.ReflTransGen.trans h h'

theorem handlings_run (o : Operation) (ho : o.sparesValues d)
    (hstore : ∀ id rows, o ≠ .setData id rows) : Handlings q d (o.run q d).2 :=
  .single (.run o ho hstore)

theorem spares_of_node? {id : NodeId} {n : Node} (hn : d.node? id = some n) (hk : n.kind ≠ .value) :
    ∀ m, d.node? id = some m → m.kind ≠ .value := fun m hm => by
  rwa [← Option.some.inj (hn.symm.trans hm)]

theorem Handling.wellFormed (h : Handling q d d') (hd : d.WellFormed) : d'.WellFormed := by
  cases h with
  | run o ho _ => exact hd.run q o ho
  | count nodes counts => exact (Session.refines_storeCounts hd nodes counts).wellFormed
  | store hn hk _ _ => exact hd.setData _ (spares_of_node? hn hk)
  | refill hn hk _ => exact (hd.setData _ (spares_of_node? hn hk)).expandValues _

theorem Handling.continues (h : Handling q d d') : d.Continues d' := by
  cases h with
  | run o _ _ => exact continues_run q o d
  | count nodes counts => exact Session.continues_storeCounts nodes counts d
  | store => exact continues_setData _ _ d
  | refill => exact (continues_setData _ _ d).trans (continues_expandValues _ _)

theorem Handlings.continues (h : Handlings q d d') : d.Continues d' := by
  induction h with
  | refl => exact .refl d
  | tail _ hstep ih => exact ih.trans hstep.continues

theorem Handlings.wellFormed (h : Handlings q d d') (hd : d.WellFormed) : d'.WellFormed := by
  induction h with
  | refl => exact hd
  | tail _ hstep ih => exact hstep.wellFormed ih

end Diagram

namespace Session

/-- The diagram of `s'` comes from that of `s` by changes that a session makes. -/
structure Handles (s s' : Session) : Prop where
  compiler : s'.compiler = s.compiler
  diagram : Diagram.Handlings s.compiler.provider s.diagram s'.diagram

/-- Nothing was changed in the diagram. -/
structure SameDiagram (s s' : Session) : Prop where
  compiler : s'.compiler = s.compiler
  diagram : s'.diagram = s.diagram

variable {s s' s'' : Session} {id : NodeId}

theorem Handles.refl (s : Session) : s.Handles s := ⟨rfl, .refl _ _⟩

theorem Handles.trans (h : s.Handles s') (h' : s'.Handles s'') : s.Handles s'' where
  compiler := h'.compiler.trans h.compiler
  diagram := by
    have hd' := h'.diagram
    rw [h.compiler] at hd'
    exact h.diagram.trans hd'

theorem SameDiagram.handles (h : s.SameDiagram s') : s.Handles s' := by
  refine ⟨h.compiler, ?_⟩
  rw [h.diagram]
  exact .refl _ _

theorem handles_requests (s : Session) (l : Lifecycle) : s.Handles { s with requests := l } :=
  SameDiagram.handles ⟨rfl, rfl⟩

end Session

/-! ## Calls that leave the diagram alone -/

namespace Call

open Session

variable {α β : Type} {s : Session}

/-- A call that changes nothing in the diagram. -/
def KeepsDiagram (c : Call α) : Prop := ∀ s : Session, s.SameDiagram (c s).2

theorem keepsDiagram_pure (a : α) : (Pure.pure a : Call α).KeepsDiagram := fun _ => ⟨rfl, rfl⟩

theorem keepsDiagram_refuse (e : GraphError) : (refuse e : Call α).KeepsDiagram :=
  fun _ => ⟨rfl, rfl⟩

theorem keepsDiagram_get : get.KeepsDiagram := fun _ => ⟨rfl, rfl⟩

theorem keepsDiagram_emit (k : EventKind) : (emit k).KeepsDiagram := fun _ => ⟨rfl, rfl⟩

theorem keepsDiagram_lift (r : Except GraphError α) : (lift r).KeepsDiagram :=
  fun _ => ⟨rfl, rfl⟩

theorem keepsDiagram_onRequests (f : Lifecycle → α × Lifecycle) : (onRequests f).KeepsDiagram :=
  fun _ => ⟨rfl, rfl⟩

theorem keepsDiagram_requireNode (id : NodeId) : (requireNode id).KeepsDiagram := by
  intro s
  unfold requireNode
  split <;> exact ⟨rfl, rfl⟩

theorem KeepsDiagram.handles {c : Call α} (h : c.KeepsDiagram) (s : Session) :
    s.Handles (c s).2 :=
  (h s).handles

theorem KeepsDiagram.bind {c : Call α} {f : α → Call β} (hc : c.KeepsDiagram)
    (hf : ∀ a, (f a).KeepsDiagram) : (c >>= f).KeepsDiagram := by
  intro s
  have hs := hc s
  rcases hr : c s with ⟨r, s'⟩
  rw [hr] at hs
  cases r with
  | error e => rwa [bind_error hr]
  | ok a =>
    rw [bind_ok hr]
    have hs' := hf a s'
    exact ⟨hs'.compiler.trans hs.compiler, hs'.diagram.trans hs.diagram⟩

/-! ## Calls that change the diagram -/

theorem handles_bind {c : Call α} {f : α → Call β} (hc : s.Handles (c s).2)
    (hf : ∀ a s', c s = (.ok a, s') → s.Handles s' → s'.Handles (f a s').2) :
    s.Handles ((c >>= f) s).2 := by
  rcases hr : c s with ⟨r, s'⟩
  rw [hr] at hc
  cases r with
  | error e => rwa [bind_error hr]
  | ok a =>
    rw [bind_ok hr]
    exact hc.trans (hf a s' hr hc)

/-- What comes after a first call leaves the diagram as the first call left it. -/
theorem sameDiagram_bind {c : Call α} {f : α → Call β} (hf : ∀ a, (f a).KeepsDiagram)
    (s : Session) : (c s).2.SameDiagram ((c >>= f) s).2 := by
  rcases hr : c s with ⟨r, s'⟩
  cases r with
  | error e =>
    rw [bind_error hr]
    exact ⟨rfl, rfl⟩
  | ok a =>
    rw [bind_ok hr]
    exact hf a s'

/-- A change of the diagram that is followed by calls which leave it alone. -/
theorem handles_bind_keeps {c : Call α} {f : α → Call β} (hc : s.Handles (c s).2)
    (hf : ∀ a, (f a).KeepsDiagram) : s.Handles ((c >>= f) s).2 :=
  handles_bind hc fun a s' _ _ => (hf a s').handles

theorem handles_onDiagram {f : Diagram → Except GraphError α × Diagram}
    (h : Diagram.Handlings s.compiler.provider s.diagram (f s.diagram).2) :
    s.Handles (onDiagram f s).2 :=
  ⟨rfl, h⟩

end Call

namespace Session

variable {s : Session} {id : NodeId}

/-! ## Asking -/

theorem keepsDiagram_issueForNodes (c : Concern) (nodes : List NodeId)
    (statement : NodeId → Except GraphError Statement) :
    (issueForNodes c nodes statement).KeepsDiagram := by
  unfold issueForNodes
  split
  · exact Call.keepsDiagram_pure none
  · refine (Call.keepsDiagram_lift _).bind fun _ => ?_
    exact (Call.keepsDiagram_onRequests _).bind fun _ => Call.keepsDiagram_pure _

theorem keepsDiagram_beginCounts : beginCounts.KeepsDiagram :=
  Call.keepsDiagram_get.bind fun _ => keepsDiagram_issueForNodes _ _ _

theorem keepsDiagram_beginAutoLoad : beginAutoLoad.KeepsDiagram :=
  Call.keepsDiagram_get.bind fun _ => keepsDiagram_issueForNodes _ _ _

theorem keepsDiagram_beginResults : beginResults.KeepsDiagram := by
  refine Call.keepsDiagram_get.bind fun s => ?_
  split
  · exact Call.keepsDiagram_pure none
  · refine (Call.keepsDiagram_lift _).bind fun _ => ?_
    exact (Call.keepsDiagram_onRequests _).bind fun _ => Call.keepsDiagram_pure _

theorem keepsDiagram_beginUpdate : beginUpdate.KeepsDiagram :=
  keepsDiagram_beginCounts.bind fun _ => keepsDiagram_beginAutoLoad.bind fun _ =>
    keepsDiagram_beginResults.bind fun _ => Call.keepsDiagram_pure _

theorem keepsDiagram_changed : changed.KeepsDiagram :=
  (Call.keepsDiagram_emit _).bind fun _ => keepsDiagram_beginUpdate

theorem keepsDiagram_beginValueFetch (id : NodeId) : (beginValueFetch id).KeepsDiagram := by
  refine (Call.keepsDiagram_requireNode id).bind fun _ => Call.keepsDiagram_get.bind fun s => ?_
  split
  · exact Call.keepsDiagram_refuse _
  · exact (Call.keepsDiagram_lift _).bind fun _ => fun _ => ⟨rfl, rfl⟩

/-- What is merged into a diagram, is merged once the answer is accepted. -/
theorem handles_ifAccepted {κ : Type} (r : Fetched κ) {merge : Call Bool}
    (hm : ∀ s' : Session, s.SameDiagram s' → s'.Handles (merge s').2) :
    s.Handles ((do
      if ← Call.onRequests (Lifecycle.accept r) then merge else return false : Call Bool) s).2 := by
  have hs := Call.keepsDiagram_onRequests (Lifecycle.accept r) s
  refine Call.handles_bind (SameDiagram.handles hs) fun a s' ha _ => ?_
  rw [ha] at hs
  cases a with
  | false => exact .refl s'
  | true => exact hm s' hs

theorem keepsDiagram_applyResults (r : Fetched Bool) : (applyResults r).KeepsDiagram := by
  have hstore : ∀ rows : List Row, (storeGraphResults rows).KeepsDiagram := fun rows =>
    Call.KeepsDiagram.bind (fun _ => ⟨rfl, rfl⟩) fun _ => Call.keepsDiagram_emit _
  refine (Call.keepsDiagram_onRequests _).bind fun accepted => ?_
  split
  · refine Call.KeepsDiagram.bind (fun _ => ⟨rfl, rfl⟩) fun _ => ?_
    refine (Call.keepsDiagram_emit _).bind fun _ => ?_
    dsimp only
    split
    · exact (hstore _).bind fun _ => Call.keepsDiagram_pure true
    · exact Call.keepsDiagram_pure true
  · exact Call.keepsDiagram_pure false

theorem keepsDiagram_applyIfAny {α : Type} {f : α → Call Bool} (hf : ∀ a, (f a).KeepsDiagram)
    (r : Option α) : (applyIfAny f r).KeepsDiagram := by
  cases r with
  | none => exact Call.keepsDiagram_pure false
  | some a => exact hf a

/-! ## Relations -/

theorem handlings_expandRelationship (q : Provider) (id : NodeId) (index : Nat) (d : Diagram) :
    Diagram.Handlings q d (d.expandRelationship q id index).2 :=
  Diagram.handlings_run (.expandRelationship id index) rfl nofun

theorem handles_expandSegments (id : NodeId) (index count : Nat) (s : Session) :
    s.Handles (expandSegments id index count s).2 := by
  induction count generalizing s index with
  | zero => exact .refl s
  | succ count ih =>
    rw [expandSegments, Call.get_bind]
    refine Call.handles_bind
      (Call.handles_onDiagram (handlings_expandRelationship _ id index _)) fun _ s₁ _ _ => ?_
    exact Call.handles_bind_keeps (ih (index + 1) s₁) fun _ => Call.keepsDiagram_pure _

theorem handles_autoExpand (id : NodeId) (s : Session) : s.Handles (autoExpand id s).2 := by
  refine Call.handles_bind ((Call.keepsDiagram_requireNode id).handles s) fun node s₁ _ _ => ?_
  rw [Call.get_bind]
  split
  · exact .refl s₁
  · refine Call.handles_bind_keeps (handles_expandSegments id 0 _ s₁) fun children => ?_
    dsimp only
    split
    · exact (Call.keepsDiagram_emit _).bind fun _ => Call.keepsDiagram_pure _
    · exact Call.keepsDiagram_pure _

/-- Segments may be stored there. -/
theorem Spares.sparesValues (h : s.Spares id) {segments : List Segment} :
    (Operation.setRelationships id segments).sparesValues s.diagram := by
  cases hn : s.diagram.node? id with
  | none => simp [Operation.sparesValues, hn]
  | some n => simp [Operation.sparesValues, hn, h n hn]

theorem handles_storeRelations (hid : s.Spares id) (segments : List Segment) :
    s.Handles (storeRelations id segments s).2 := by
  have hstore : Diagram.Handlings s.compiler.provider s.diagram
      (s.diagram.setRelationships id segments).2 :=
    Diagram.handlings_run (.setRelationships id segments) hid.sparesValues nofun
  refine Call.handles_bind (Call.handles_onDiagram hstore) fun _ s₁ _ _ => ?_
  exact Call.handles_bind ((Call.keepsDiagram_emit _).handles s₁) fun _ s₂ _ _ =>
    handles_autoExpand id s₂

theorem handles_beginDiscovery (hid : s.SparesSchema id) : s.Handles (beginDiscovery id s).2 := by
  refine Call.handles_bind ((Call.keepsDiagram_requireNode id).handles s) fun node s₁ hn _ => ?_
  obtain ⟨hn, rfl⟩ := Call.of_requireNode_ok hn
  rw [Call.get_bind]
  cases hs : (s₁.properties node.label).schema with
  | some schema =>
    exact Call.handles_bind_keeps (handles_storeRelations (hid.spares hn (by rw [hs]; rfl)) _)
      fun _ => Call.keepsDiagram_pure _
  | none =>
    exact ((Call.keepsDiagram_lift _).bind fun _ => (Call.keepsDiagram_onRequests _).bind
      fun _ => Call.keepsDiagram_pure _).handles s₁

theorem handles_applyDiscovery (r : Fetched NodeId)
    (hid : (s.requests.acceptDiscovery r).1 = true → s.Spares r.context) :
    s.Handles (applyDiscovery r s).2 := by
  have hs := Call.keepsDiagram_onRequests (Lifecycle.acceptDiscovery r) s
  refine Call.handles_bind hs.handles fun accepted s₁ ha _ => ?_
  rw [ha] at hs
  rw [Call.get_bind]
  split
  · rename_i hcond
    rw [Bool.and_eq_true] at hcond
    refine handles_storeRelations ?_ _
    have hspares := hid ((Call.of_onRequests_ok ha).1.trans hcond.1)
    rwa [Spares, ← hs.diagram] at hspares
  · exact .refl s₁

/-! ## Candidates -/

/-- Rows that are merged leave out what is selected. -/
theorem omits_unselectedRows (s : Session) (n : Node) (rows : List Row) :
    s.compiler.provider.Omits n (s.unselectedRows n rows) := by
  intro v hv row hrow heq
  obtain ⟨-, hout⟩ := List.mem_filter.1 hrow
  rw [Bool.not_eq_true', List.any_eq_false] at hout
  exact hout v hv heq

/-- Rows that leave out what is selected may be stored and shown at once. -/
theorem handles_refill {n : Node} (hn : s.diagram.node? id = some n) (hk : n.kind ≠ .value)
    (rows : List Row) : s.Handles (Call.onDiagram (Diagram.expandValues id)
      { s with diagram := (s.diagram.setData id (s.unselectedRows n rows)).2 }).2 :=
  ⟨rfl, .single (.refill hn hk (s.omits_unselectedRows n rows))⟩

theorem handles_storeLoaded (hid : s.Spares id) (rows : List Row) :
    s.Handles (storeLoaded id rows s).2 := by
  unfold storeLoaded
  rw [Call.get_bind]
  cases hn : s.diagram.node? id with
  | none => exact .refl s
  | some n =>
    dsimp only
    rw [Call.bind_ok (storeCandidates_eq hn rows)]
    split
    · exact (handles_refill hn (hid n hn) rows).trans
        (Call.sameDiagram_bind (fun _ => Call.keepsDiagram_emit _) _).handles
    · rename_i he
      have hstore := Diagram.Handling.store hn (hid n hn) (Bool.eq_false_iff.2 he)
        (s.omits_unselectedRows n rows)
      exact ⟨rfl, .single hstore⟩

theorem handles_storeAllLoaded {nodes : List NodeId} (hnodes : ∀ id ∈ nodes, s.diagram.Knows id)
    (results : List (List Row)) : s.Handles (storeAllLoaded nodes results s).2 := by
  induction nodes generalizing s results with
  | nil => exact .refl s
  | cons id nodes ih =>
    have hid := spares_of_knows (hnodes id (by simp))
    refine Call.handles_bind (handles_storeLoaded hid _) fun _ s' _ hs' => ?_
    exact ih (fun x hx => hs'.diagram.continues.knows (hnodes x (by simp [hx]))) results.tail

theorem handles_applyAutoLoad (r : Fetched (List NodeId))
    (hnodes : ∀ id ∈ r.context, s.diagram.Knows id) : s.Handles (applyAutoLoad r s).2 := by
  refine handles_ifAccepted r fun s' hs' => ?_
  refine Call.handles_bind_keeps (handles_storeAllLoaded ?_ _) fun _ => Call.keepsDiagram_pure _
  rwa [hs'.diagram]

theorem handles_applyValueFetch (r : Fetched NodeId)
    (hid : (s.requests.accept r).1 = true → s.Spares r.context) :
    s.Handles (applyValueFetch r s).2 := by
  have hs := Call.keepsDiagram_onRequests (Lifecycle.accept r) s
  refine Call.handles_bind hs.handles fun accepted s₁ ha _ => ?_
  rw [ha] at hs
  have haccept := (Call.of_onRequests_ok ha).1
  rw [Call.get_bind]
  cases accepted with
  | false => exact .refl s₁
  | true =>
    cases hn : s₁.diagram.node? r.context with
    | none => exact .refl s₁
    | some n =>
      cases r.outcome with
      | failed reason => exact .refl s₁
      | aborted => exact .refl s₁
      | completed results =>
        have hk : n.kind ≠ .value := by
          rw [hs.diagram] at hn
          exact hid haccept n hn
        dsimp only
        rw [Call.bind_ok (storeCandidates_eq hn _)]
        exact (handles_refill hn hk _).trans (Call.sameDiagram_bind
          (fun _ => (Call.keepsDiagram_emit _).bind fun _ => Call.keepsDiagram_pure _) _).handles

theorem handles_showCandidates (id : NodeId) (s : Session) :
    s.Handles (showCandidates id s).2 :=
  Call.handles_bind_keeps
    (Call.handles_onDiagram (Diagram.handlings_run (.expandValues id) rfl nofun))
    fun _ => (Call.keepsDiagram_emit _).bind fun _ => Call.keepsDiagram_pure _

theorem handles_hideCandidates (id : NodeId) (s : Session) :
    s.Handles (hideCandidates id s).2 :=
  Call.handles_bind_keeps
    (Call.handles_onDiagram (Diagram.handlings_run (.collapseValues id) rfl nofun))
    fun _ => (Call.keepsDiagram_emit _).bind fun _ => Call.keepsDiagram_pure _

theorem handles_moved {f : Diagram → Except GraphError Bool × Diagram}
    (hf : Diagram.Handlings s.compiler.provider s.diagram (f s.diagram).2) : s.Handles ((do
      let moved ← Call.onDiagram f
      if moved then Call.emit .graphChanged
      return moved : Call Bool) s).2 := by
  refine Call.handles_bind_keeps (Call.handles_onDiagram hf) fun _ => ?_
  dsimp only
  split
  · exact (Call.keepsDiagram_emit _).bind fun _ => Call.keepsDiagram_pure _
  · exact Call.keepsDiagram_pure _

/-! ## Counts and updates -/

theorem handles_applyCounts (r : Fetched (List NodeId)) (s : Session) :
    s.Handles (applyCounts r s).2 := by
  refine handles_ifAccepted r fun s' _ => ?_
  refine Call.handles_bind ⟨rfl, .single (.count _ _)⟩ fun _ s₁ _ _ => ?_
  exact ((Call.keepsDiagram_emit _).bind fun _ => Call.keepsDiagram_pure _).handles s₁

theorem handles_applyIfAny {α : Type} {f : α → Call Bool} {r : Option α}
    (hf : ∀ a, r = some a → s.Handles (f a s).2) : s.Handles (applyIfAny f r s).2 := by
  cases r with
  | none => exact .refl s
  | some a => exact hf a rfl

theorem handles_applyUpdate (r : UpdateFetched)
    (hnodes : ∀ f, r.autoLoad = some f → ∀ id ∈ f.context, s.diagram.Knows id) :
    s.Handles (applyUpdate r s).2 := by
  have hcounts : s.Handles (applyIfAny applyCounts r.counts s).2 :=
    handles_applyIfAny fun f _ => handles_applyCounts f s
  refine Call.handles_bind hcounts fun _ s₁ _ h₁ => ?_
  have hautoLoad : s₁.Handles (applyIfAny applyAutoLoad r.autoLoad s₁).2 :=
    handles_applyIfAny fun f hf => handles_applyAutoLoad f fun id hid =>
      h₁.diagram.continues.knows (hnodes f hf id hid)
  refine Call.handles_bind hautoLoad fun _ s₂ _ _ => ?_
  refine Call.handles_bind_keeps ?_ fun _ => Call.keepsDiagram_pure _
  exact (keepsDiagram_applyIfAny keepsDiagram_applyResults r.results).handles s₂

/-! ## Changes -/

theorem handles_reset (s : Session) : s.Handles (reset s).2 :=
  ⟨rfl, Diagram.handlings_run .clear rfl nofun⟩

theorem handles_replaceDiagram {f : Diagram → NodeId × Diagram}
    (hf : ∀ d, Diagram.Handlings s.compiler.provider d (f d).2) :
    s.Handles (replaceDiagram f s).2 := by
  obtain ⟨s₁, hs₁, he⟩ := replaceDiagram_eq f s
  have h₁ : s.Handles s₁ := by
    rcases hs₁ with rfl | ⟨rfl, -⟩
    · exact handles_reset s
    · exact .refl s₁
  rw [he]
  refine h₁.trans ⟨rfl, ?_⟩
  rw [h₁.compiler]
  exact hf s₁.diagram

theorem handles_addChild (id : NodeId) (index : Nat) (s : Session) :
    s.Handles (addChild id index s).2 := by
  rw [addChild, Call.get_bind]
  exact Call.handles_bind_keeps
    (Call.handles_onDiagram (handlings_expandRelationship _ id index _))
    fun _ => (Call.keepsDiagram_emit _).bind fun _ => Call.keepsDiagram_pure _

theorem handles_beginExpand (id : NodeId) (index : Nat) (h : s.Valid) :
    s.Handles (Session.beginExpand id index s).2 := by
  unfold Session.beginExpand
  rw [Call.get_bind]
  refine Call.handles_bind
    (Call.handles_onDiagram (handlings_expandRelationship _ id index _)) fun child s₁ hc h₁ => ?_
  have hquery : s₁.diagram.IsQueryNode child := by
    obtain ⟨hok, rfl⟩ := Call.of_onDiagram_ok hc
    exact Diagram.isQueryNode_expandRelationship (Prod.ext hok rfl)
  have hknows := hquery.knows (h₁.diagram.wellFormed h.diagram).toNumbered
  refine Call.handles_bind ((Call.keepsDiagram_emit _).handles s₁) fun _ s₂ he h₂ => ?_
  refine Call.handles_bind_keeps (handles_beginDiscovery ?_) fun _ =>
    keepsDiagram_beginUpdate.bind fun _ => Call.keepsDiagram_pure _
  exact (spares_of_knows (h₂.diagram.continues.knows hknows)).schema

theorem handles_beginSelectValue (id : NodeId) (s : Session) :
    s.Handles (Session.beginSelectValue id s).2 :=
  Call.handles_bind_keeps
    (Call.handles_onDiagram (Diagram.handlings_run (.selectValue id) rfl nofun))
    fun _ => keepsDiagram_changed.bind fun _ => Call.keepsDiagram_pure _

/-- A change that may come to nothing. -/
theorem handles_changedIf {f : Diagram → Except GraphError Bool × Diagram}
    (hf : Diagram.Handlings s.compiler.provider s.diagram (f s.diagram).2) : s.Handles ((do
      if ← Call.onDiagram f then return (true, ← changed)
      else return (false, {}) : Call (Bool × Update)) s).2 := by
  refine Call.handles_bind_keeps (Call.handles_onDiagram hf) fun _ => ?_
  split
  · exact keepsDiagram_changed.bind fun _ => Call.keepsDiagram_pure _
  · exact Call.keepsDiagram_pure _

theorem handles_beginRemoveNode (id : NodeId) (s : Session) :
    s.Handles (Session.beginRemoveNode id s).2 := by
  refine Call.handles_bind (Call.handles_onDiagram
    (Diagram.handlings_run (.removeNode id) rfl nofun)) fun held s₁ _ _ => ?_
  rw [Call.get_bind]
  split
  · exact Call.handles_bind_keeps (handles_reset s₁) fun _ => Call.keepsDiagram_pure _
  · exact (keepsDiagram_changed.bind fun _ => Call.keepsDiagram_pure _).handles s₁

/-- Whatever a call hands out. -/
theorem handing_snd {α : Type} (c : Call α) (hand : α → Handed) (s : Session) :
    (Move.handing c hand s).2 = (c s).2 :=
  of_handing (P := fun _ t => t = (c s).2) (fun _ _ hc => (congrArg Prod.snd hc).symm)
    fun _ _ hc => (congrArg Prod.snd hc).symm

theorem handles_handing {α : Type} {c : Call α} (hc : s.Handles (c s).2) (hand : α → Handed) :
    s.Handles (Move.handing c hand s).2 := by
  rwa [handing_snd]

theorem handles_silent {α : Type} {c : Call α} (hc : s.Handles (c s).2) :
    s.Handles (Move.silent c s).2 :=
  handles_handing hc _

end Session

namespace World

open Session

variable {w w' : World}

/-- Every move changes the diagram as sessions do. -/
theorem Sound.handles (h : w.Sound) (m : Move) (hm : m.Admissible w) :
    w.session.Handles (w.act m).session := by
  have hv := h.valid
  cases m with
  | reset => exact handles_silent (handles_reset _)
  | listen => exact SameDiagram.handles ⟨rfl, rfl⟩
  | unlisten => exact SameDiagram.handles ⟨rfl, rfl⟩
  | placeRoot label anchor =>
    exact handles_silent (handles_replaceDiagram fun _ =>
      Diagram.handlings_run (.addRoot label anchor) rfl nofun)
  | placeSchema schema anchor =>
    exact handles_silent (handles_replaceDiagram fun _ =>
      Diagram.handlings_run (.addSchema schema anchor) rfl nofun)
  | addChild id index => exact handles_silent (handles_addChild id index _)
  | showCandidates id => exact handles_silent (handles_showCandidates id _)
  | hideCandidates id => exact handles_silent (handles_hideCandidates id _)
  | nextPage id =>
    exact handles_silent (handles_moved (Diagram.handlings_run (.nextPage id) rfl nofun))
  | previousPage id =>
    exact handles_silent (handles_moved (Diagram.handlings_run (.previousPage id) rfl nofun))
  | beginCounts => exact handles_handing (keepsDiagram_beginCounts.handles _) _
  | beginAutoLoad => exact handles_handing (keepsDiagram_beginAutoLoad.handles _) _
  | beginResults => exact handles_handing (keepsDiagram_beginResults.handles _) _
  | beginUpdate => exact handles_handing (keepsDiagram_beginUpdate.handles _) _
  | beginDiscovery id => exact handles_handing (handles_beginDiscovery hm) _
  | beginValueFetch id => exact handles_handing ((keepsDiagram_beginValueFetch id).handles _) _
  | beginExpand id index => exact handles_handing (handles_beginExpand id index hv) _
  | beginSelectValue id => exact handles_handing (handles_beginSelectValue id _) _
  | beginRemoveValue id value =>
    exact handles_handing (handles_changedIf
      (Diagram.handlings_run (.removeValue id value) rfl nofun)) _
  | beginNegate id =>
    exact handles_handing (handles_changedIf (Diagram.handlings_run (.negate id) rfl nofun)) _
  | beginRemoveNode id => exact handles_handing (handles_beginRemoveNode id _) _
  | applyCounts r => exact handles_silent (handles_applyCounts r _)
  | applyAutoLoad r => exact handles_silent (handles_applyAutoLoad r (h.knows hm))
  | applyResults r => exact handles_silent ((keepsDiagram_applyResults r).handles _)
  | applyUpdate r =>
    exact handles_silent (handles_applyUpdate r fun f hf => h.knows (hm.2.1 f hf))
  | applyDiscovery r => exact handles_silent (handles_applyDiscovery r hm.2)
  | applyValueFetch r => exact handles_silent (handles_applyValueFetch r hm.2)
  | settle generation o => exact handles_requests _ _
  | wait f => exact handles_requests _ _
  | drop f => exact handles_requests _ _

theorem MovesTo.handles (h : w.MovesTo w') (hw : w.Sound) : w.session.Handles w'.session := by
  induction h with
  | refl => exact .refl _
  | tail hmoves hstep ih =>
    obtain ⟨m, hm, rfl⟩ := hstep
    exact ih.trans ((MovesTo.sound hmoves hw).1.handles m hm)

theorem Step.handles (h : w.Step w') (hw : w.Sound) : w.session.Handles w'.session := by
  cases h with
  | move m hm => exact hw.handles m hm
  | run c hc =>
    obtain ⟨w₁, hmoves, hs⟩ := hw.exists_moves c hc
    rw [← hs]
    exact hmoves.handles hw

/-- Whatever happens to a session, its diagram is changed as sessions do. -/
theorem Leads.handles (h : w.Leads w') (hw : w.Sound) : w.session.Handles w'.session := by
  induction h with
  | refl => exact .refl _
  | tail hsteps hstep ih => exact ih.trans (hstep.handles (Leads.sound hsteps hw).1)

end World

end PatternQuery
