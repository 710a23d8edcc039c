import PatternQuery.Proofs.Diagram.Refusals
import PatternQuery.Proofs.Session.Moving

/-!
# What a session does

Whatever happens to a session, it does a number of things one after the other (`Session.Deed`): it
carries out operations on its diagram and tells so, it stores counts or rows and tells so, it starts
anew, or it deals with its requests. So what every deed keeps is kept by all actions
(`Session.deeds_perform`), whatever their arguments are. Most moves are made of `Session.Chore`s
alone, which have nothing to do with the result (`Session.chores_move`).
-/

namespace PatternQuery

open Diagram

/-! ## Deeds -/

/-- An operation on requests. Candidates of a node that was chosen are fetched under the guard. -/
inductive Lifecycle.Deals (l : Lifecycle) : Lifecycle → Prop where
  | issue {κ : Type} {c : Concern} (hc : c ≠ .value) (batch : Batch) (context : κ) :
    Deals l (l.issue c batch context).2
  | issueValue {κ : Type} (batch : Batch) (context : κ) : Deals l (l.issueValue batch context).2
  | issueDiscovery (node : NodeId) (batch : Batch) : Deals l (l.issueDiscovery node batch).2
  | accept {κ : Type} (r : Fetched κ) : Deals l (l.accept r).2
  | acceptDiscovery (r : Fetched NodeId) : Deals l (l.acceptDiscovery r).2
  | settle (generation : Nat) (o : Outcome) : Deals l (l.settle generation o)
  | wait {κ : Type} (f : Fetch κ) : Deals l (l.wait f).2
  | drop {κ : Type} (f : Fetch κ) : Deals l (l.drop f)

theorem Lifecycle.Deals.later {l l' : Lifecycle} (h : l.Deals l') (hl : l.Bounded) :
    l.Later l' := by
  cases h with
  | issue _ batch context => exact hl.later_issue _ batch context
  | issueValue batch context => exact hl.later_issueValue batch context
  | issueDiscovery node batch => exact hl.later_issueDiscovery node batch
  | accept r => exact hl.later_accept r
  | acceptDiscovery r => exact hl.later_acceptDiscovery r
  | settle generation o => exact hl.later_settle generation o
  | wait f => exact hl.later_wait f
  | drop f => exact hl.later_drop f

/-- The move has nothing to do with the result, whatever comes of it. -/
def Move.isChore : Move → Bool
  | reset | listen | unlisten | placeRoot _ _ | placeSchema _ _ | beginRemoveNode _ | applyResults _
  | applyUpdate _ => false
  | _ => true

namespace Session

/-- One thing that a session does. -/
inductive Deed (s : Session) : Session → Prop where
  | change (ops : List Operation) (k : EventKind) : Deed s { s with
      diagram := Operation.runAll s.compiler.provider ops s.diagram
      events := s.events ++ [k] }
  | count (nodes : List NodeId) (counts : List Nat) : Deed s { s with
      diagram := storeCounts nodes counts s.diagram
      events := s.events ++ [.countsUpdated] }
  | results (rows : List Row) : Deed s { s with
      results := rows
      events := s.events ++ [.resultsUpdated rows.length] }
  | graphResults (rows : List Row) : Deed s (storeGraphResults rows s).2
  | reset (ops : List Operation) : Deed s (Session.reset { s with
      diagram := Operation.runAll s.compiler.provider ops s.diagram }).2
  | deal {l : Lifecycle} (hl : s.requests.Deals l) : Deed s { s with requests := l }
  | hear (listening : Bool) : Deed s { s with listening }

/-- One thing after another. -/
def Deeds : Session → Session → Prop := Relation.ReflTransGen Deed

variable {s s' s'' : Session} {id : NodeId}

theorem Deeds.refl (s : Session) : s.Deeds s := Relation.ReflTransGen.refl

theorem Deed.deeds (h : s.Deed s') : s.Deeds s' := Relation.ReflTransGen.single h

theorem Deeds.trans (h : s.Deeds s') (h' : s'.Deeds s'') : s.Deeds s'' :=
  Relation.ReflTransGen.trans h h'

/-- What every deed keeps is kept all along. -/
theorem Deeds.keeps {P : Session → Prop} (h : s.Deeds s')
    (hstep : ∀ t t' : Session, t.Deed t' → P t → P t') (hs : P s) : P s' := by
  induction h with
  | refl => exact hs
  | tail _ hlast ih => exact hstep _ _ hlast ih

theorem Deed.compiler (h : s.Deed s') : s'.compiler = s.compiler := by
  cases h <;> rfl

theorem Deeds.compiler (h : s.Deeds s') : s'.compiler = s.compiler :=
  Deeds.keeps (P := fun t => t.compiler = s.compiler) h
    (fun _ _ hstep hs => hstep.compiler.trans hs) rfl

/-- Numbers of nodes are never given out again. -/
theorem Deed.continues (h : s.Deed s') : s.diagram.Continues s'.diagram := by
  cases h with
  | change ops k => exact continues_runAll _ ops _
  | count nodes counts => exact continues_storeCounts nodes counts s.diagram
  | reset ops => exact (continues_runAll _ ops _).trans (continues_clear _)
  | results | graphResults | deal | hear => exact .refl s.diagram

theorem Deeds.continues (h : s.Deeds s') : s.diagram.Continues s'.diagram :=
  Deeds.keeps (P := fun t => s.diagram.Continues t.diagram) h
    (fun _ _ hstep hs => hs.trans hstep.continues) (.refl s.diagram)

theorem Deed.orderly (h : s.Deed s') (hs : s.diagram.Orderly) : s'.diagram.Orderly := by
  have hops (ops : List Operation) :
      (Operation.runAll s.compiler.provider ops s.diagram).Orderly := by
    generalize s.diagram = d at hs
    induction ops generalizing d with
    | nil => exact hs
    | cons o rest ih => exact ih _ (hs.run _ o)
  cases h with
  | change ops k => exact hops ops
  | count nodes counts => exact (sameGrowth_storeCounts nodes counts s.diagram hs).1
  | reset ops => exact (hops ops).run s.compiler.provider .clear
  | results | graphResults | deal | hear => exact hs

theorem Deeds.orderly (h : s.Deeds s') (hs : s.diagram.Orderly) : s'.diagram.Orderly :=
  Deeds.keeps (P := fun t => t.diagram.Orderly) h (fun _ _ hstep => hstep.orderly) hs

theorem Deed.later (h : s.Deed s') (hs : s.requests.Bounded) : s.requests.Later s'.requests := by
  cases h with
  | deal hl => exact hl.later hs
  | reset ops => exact hs.later_cancelAll
  | change | count | results | graphResults | hear => exact .refl hs

theorem Deeds.later (h : s.Deeds s') (hs : s.requests.Bounded) : s.requests.Later s'.requests :=
  Deeds.keeps (P := fun t => s.requests.Later t.requests) h
    (fun _ _ hstep ht => ht.trans (hstep.later ht.bounded)) (.refl hs)

/-! ## Chores -/

/-- One thing that a session does apart from its result. -/
inductive Chore (s : Session) : Session → Prop where
  | change (ops : List Operation) (k : EventKind) : Chore s { s with
      diagram := Operation.runAll s.compiler.provider ops s.diagram
      events := s.events ++ [k] }
  | count (nodes : List NodeId) (counts : List Nat) : Chore s { s with
      diagram := storeCounts nodes counts s.diagram
      events := s.events ++ [.countsUpdated] }
  | deal {l : Lifecycle} (hl : s.requests.Deals l) : Chore s { s with requests := l }

def Chores : Session → Session → Prop := Relation.ReflTransGen Chore

theorem Chore.chores (h : s.Chore s') : s.Chores s' := Relation.ReflTransGen.single h

theorem Chores.trans (h : s.Chores s') (h' : s'.Chores s'') : s.Chores s'' :=
  Relation.ReflTransGen.trans h h'

theorem Chore.deed (h : s.Chore s') : s.Deed s' := by
  cases h with
  | change ops k => exact .change ops k
  | count nodes counts => exact .count nodes counts
  | deal hl => exact .deal hl

theorem Chores.deeds (h : s.Chores s') : s.Deeds s' := by
  induction h with
  | refl => exact .refl s
  | tail _ hlast ih => exact ih.trans hlast.deed.deeds

theorem chores_deal {l : Lifecycle} (hl : s.requests.Deals l) :
    s.Chores { s with requests := l } :=
  (Chore.deal hl).chores

/-- The operation is carried out, and told. -/
theorem chores_change (o : Operation) (k : EventKind) : s.Chores { s with
    diagram := (o.run s.compiler.provider s.diagram).2, events := s.events ++ [k] } :=
  (Chore.change [o] k).chores

end Session

namespace Call

open Session Relation

variable {α β : Type} {s : Session} {step : Session → Session → Prop}

theorem reflTransGen_bind {c : Call α} {f : α → Call β} (hc : ReflTransGen step s (c s).2)
    (hf : ∀ a s', c s = (.ok a, s') → ReflTransGen step s' (f a s').2) :
    ReflTransGen step s ((c >>= f) s).2 := by
  rcases hr : c s with ⟨r, s'⟩
  rw [hr] at hc
  cases r with
  | error e => rwa [bind_error hr]
  | ok a =>
    rw [bind_ok hr]
    exact hc.trans (hf a s' hr)

/-- What a call gives back does not matter. -/
theorem reflTransGen_bind_pure {c : Call α} {g : α → β} (hc : ReflTransGen step s (c s).2) :
    ReflTransGen step s ((c >>= fun a => Pure.pure (g a)) s).2 :=
  reflTransGen_bind hc fun _ _ _ => .refl

theorem reflTransGen_requireNode_bind {id : NodeId} {f : Node → Call β}
    (hf : ∀ n, s.diagram.node? id = some n → ReflTransGen step s (f n s).2) :
    ReflTransGen step s ((requireNode id >>= f) s).2 := by
  cases hn : s.diagram.node? id with
  | none =>
    have hnone : requireNode id s = (.error (.nodeNotFound id), s) := by rw [requireNode, hn]
    rw [bind_error hnone]
  | some n =>
    rw [bind_ok (requireNode_eq hn)]
    exact hf n hn

theorem reflTransGen_lift_bind {r : Except GraphError α} {f : α → Call β}
    (hf : ∀ a, ReflTransGen step s (f a s).2) : ReflTransGen step s ((lift r >>= f) s).2 := by
  cases r with
  | error e => exact .refl
  | ok a => exact hf a

/-- An operation is refused without a change, or it is carried out. -/
theorem onDiagram_cases {f : Diagram → Except GraphError α × Diagram} (o : Operation)
    (ho : o.run s.compiler.provider s.diagram = Operation.outcome (f s.diagram)) :
    (∃ e, onDiagram f s = (.error e, s)) ∨ ∃ a, (f s.diagram).1 = .ok a ∧
      onDiagram f s = (.ok a, { s with diagram := (o.run s.compiler.provider s.diagram).2 }) := by
  have hd : (f s.diagram).2 = (o.run s.compiler.provider s.diagram).2 := by rw [ho]; rfl
  cases hr : (f s.diagram).1 with
  | error e =>
    have herror : (o.run s.compiler.provider s.diagram).1 = .error e := by
      rw [ho, Operation.outcome, hr]
      rfl
    refine .inl ⟨e, ?_⟩
    rw [onDiagram_eq (Prod.ext hr (hd.trans (Operation.snd_of_error herror)))]
  | ok a => exact .inr ⟨a, rfl, onDiagram_eq (Prod.ext hr hd)⟩

/-- Whatever follows a change of the diagram, the change is told first. -/
theorem reflTransGen_onDiagram_bind {f : Diagram → Except GraphError α × Diagram} (o : Operation)
    (ho : o.run s.compiler.provider s.diagram = Operation.outcome (f s.diagram)) {g : α → Call β}
    (hg : ∀ a, (f s.diagram).1 = .ok a →
      ReflTransGen step s
        (g a { s with diagram := (o.run s.compiler.provider s.diagram).2 }).2) :
    ReflTransGen step s ((onDiagram f >>= g) s).2 := by
  rcases onDiagram_cases o ho with ⟨e, he⟩ | ⟨a, hok, ha⟩
  · rw [bind_error he]
  · rw [bind_ok ha]
    exact hg a hok

end Call

namespace Session

open Relation

variable {s : Session} {step : Session → Session → Prop} {id : NodeId} {κ : Type}

/-! ## Asking -/

theorem chores_issueForNodes {c : Concern} (hc : c ≠ .value) (nodes : List NodeId)
    (statement : NodeId → Except GraphError Statement) (s : Session) :
    s.Chores (issueForNodes c nodes statement s).2 := by
  unfold issueForNodes
  split
  · exact .refl
  · exact Call.reflTransGen_lift_bind fun batch => chores_deal (.issue hc batch nodes)

theorem chores_beginCounts (s : Session) : s.Chores (beginCounts s).2 :=
  chores_issueForNodes (by simp) _ _ s

theorem chores_beginAutoLoad (s : Session) : s.Chores (beginAutoLoad s).2 :=
  chores_issueForNodes (by simp) _ _ s

theorem chores_beginResults (s : Session) : s.Chores (beginResults s).2 := by
  rw [beginResults, Call.get_bind]
  split
  · exact .refl
  · exact Call.reflTransGen_lift_bind fun batch => chores_deal (.issue (by simp) batch s.listening)

theorem chores_beginUpdate (s : Session) : s.Chores (beginUpdate s).2 :=
  Call.reflTransGen_bind (chores_beginCounts s) fun _ s₁ _ =>
    Call.reflTransGen_bind (chores_beginAutoLoad s₁) fun _ s₂ _ =>
      Call.reflTransGen_bind_pure (chores_beginResults s₂)

/-- A change that is followed by an update. -/
theorem chores_changed {β : Type} (o : Operation) (g : Update → β) (s : Session) :
    s.Chores ((changed >>= fun u => Pure.pure (g u))
      { s with diagram := (o.run s.compiler.provider s.diagram).2 }).2 :=
  (chores_change o .graphChanged).trans (Call.reflTransGen_bind_pure (chores_beginUpdate _))

theorem chores_beginValueFetch (id : NodeId) (s : Session) : s.Chores (beginValueFetch id s).2 := by
  refine Call.reflTransGen_requireNode_bind fun n _ => ?_
  rw [Call.get_bind]
  split
  · exact .refl
  · exact Call.reflTransGen_lift_bind fun statement => chores_deal (.issueValue [statement] id)

/-! ## Relations -/

/-- The segments of a node are expanded in turn, and the children get the next numbers. -/
theorem expandSegments_eq {n : Node} (hn : s.diagram.node? id = some n) {index count : Nat}
    (hc : index + count ≤ n.relationships.length) : expandSegments id index count s =
      (.ok ((List.range count).map fun i => ⟨s.diagram.nextNode + i⟩), { s with
        diagram := Operation.runAll s.compiler.provider
          ((List.range' index count).map (.expandRelationship id)) s.diagram }) := by
  induction count generalizing s index with
  | zero => rfl
  | succ count ih =>
    have hindex : index < n.relationships.length := by omega
    obtain ⟨child, d, hd, hn'⟩ := expandRelationship_ok s.compiler.provider hn hindex
    have heq := expandRelationship_eq s.compiler.provider hn (List.getElem?_eq_getElem hindex)
    obtain ⟨hchild, hattach⟩ := Prod.mk.inj (hd.symm.trans heq)
    have hnext : d.nextNode = s.diagram.nextNode + 1 := by
      rw [hattach]
      rfl
    have hrun :
        (Operation.run s.compiler.provider (.expandRelationship id index) s.diagram).2 = d :=
      congrArg Prod.snd hd
    rw [expandSegments, Call.get_bind, Call.bind_ok (Call.onDiagram_eq hd),
      Call.bind_ok (ih (s := { s with diagram := d }) hn' (by omega))]
    have hids : ((List.range count).map fun i => (⟨d.nextNode + i⟩ : NodeId)) =
        (List.range count).map fun i => ⟨s.diagram.nextNode + (i + 1)⟩ := by
      simp only [hnext, Nat.add_assoc, Nat.add_comm 1]
    rw [hids, Except.ok.inj hchild, List.range_succ_eq_map, List.map_cons, List.map_map,
      List.range'_succ, List.map_cons, Operation.runAll, hrun]
    rfl

theorem chores_autoExpand (id : NodeId) (s : Session) : s.Chores (autoExpand id s).2 := by
  refine Call.reflTransGen_requireNode_bind fun n hn => ?_
  rw [Call.get_bind]
  split
  · exact .refl
  · rw [Call.bind_ok (expandSegments_eq hn (by omega))]
    cases n.relationships.length with
    | zero => exact .refl
    | succ count =>
      rw [List.range_succ_eq_map, List.map_cons]
      exact (Chore.change ((List.range' 0 (count + 1)).map (.expandRelationship id))
        .graphChanged).chores

theorem chores_storeRelations (id : NodeId) (segments : List Segment) (s : Session) :
    s.Chores (storeRelations id segments s).2 := by
  refine Call.reflTransGen_onDiagram_bind (.setRelationships id segments) rfl fun _ _ => ?_
  exact (chores_change (.setRelationships id segments) (.relationsLoaded id)).trans
    (chores_autoExpand id _)

theorem chores_beginDiscovery (id : NodeId) (s : Session) : s.Chores (beginDiscovery id s).2 := by
  refine Call.reflTransGen_requireNode_bind fun n _ => ?_
  rw [Call.get_bind]
  cases (s.properties n.label).schema with
  | some schema => exact Call.reflTransGen_bind_pure (chores_storeRelations id schema.segments s)
  | none =>
    exact Call.reflTransGen_lift_bind fun statement => chores_deal (.issueDiscovery id [statement])

theorem chores_applyDiscovery (r : Fetched NodeId) (s : Session) :
    s.Chores (applyDiscovery r s).2 := by
  refine Call.reflTransGen_bind (chores_deal (.acceptDiscovery r)) fun accepted s₁ _ => ?_
  rw [Call.get_bind]
  split
  · exact chores_storeRelations _ _ s₁
  · exact .refl

/-! ## Merging -/

theorem chores_storeLoaded (id : NodeId) (rows : List Row) (s : Session) :
    s.Chores (storeLoaded id rows s).2 := by
  rw [storeLoaded, Call.get_bind]
  cases hn : s.diagram.node? id with
  | none => exact .refl
  | some n =>
    dsimp only
    rw [Call.bind_ok (storeCandidates_eq hn rows)]
    obtain ⟨-, n', hn'⟩ := setData_ok hn (unselectedRows s n rows)
    cases hexpanded : n.expanded with
    | false =>
      exact chores_change (.setData id (unselectedRows s n rows)) (.valuesLoaded id)
    | true =>
      obtain ⟨shown, d, hd⟩ := expandValues_ok hn'
      obtain rfl : ((s.diagram.setData id (unselectedRows s n rows)).2.expandValues id).2 = d :=
        congrArg Prod.snd hd
      rw [if_pos rfl, Call.bind_ok (Call.onDiagram_eq hd)]
      exact (Chore.change [.setData id (unselectedRows s n rows), .expandValues id]
        (.valuesLoaded id)).chores

theorem chores_storeAllLoaded (nodes : List NodeId) (results : List (List Row)) (s : Session) :
    s.Chores (storeAllLoaded nodes results s).2 := by
  induction nodes generalizing s results with
  | nil => exact .refl
  | cons id nodes ih =>
    exact Call.reflTransGen_bind (chores_storeLoaded id _ s) fun _ s₁ _ => ih results.tail s₁

/-- Whatever is merged, is merged once the answer is accepted. -/
theorem reflTransGen_ifAccepted (r : Fetched κ) {merge : Call Bool}
    (hr : step s { s with requests := (s.requests.accept r).2 })
    (hm : ∀ s, ReflTransGen step s (merge s).2) : ReflTransGen step s ((do
      if ← Call.onRequests (Lifecycle.accept r) then merge else return false : Call Bool) s).2 := by
  refine Call.reflTransGen_bind (.single hr) fun accepted s₁ _ => ?_
  cases accepted with
  | false => exact .refl
  | true => exact hm s₁

theorem reflTransGen_applyIfAny {α : Type} {f : α → Call Bool}
    (hf : ∀ a s, ReflTransGen step s (f a s).2) (r : Option α) (s : Session) :
    ReflTransGen step s (applyIfAny f r s).2 := by
  cases r with
  | none => exact .refl
  | some a => exact hf a s

theorem chores_applyCounts (r : Fetched (List NodeId)) (s : Session) :
    s.Chores (applyCounts r s).2 :=
  reflTransGen_ifAccepted r (.deal (.accept r)) fun _ =>
    (Chore.count r.context (answeredCounts r.outcome)).chores

theorem chores_applyAutoLoad (r : Fetched (List NodeId)) (s : Session) :
    s.Chores (applyAutoLoad r s).2 :=
  reflTransGen_ifAccepted r (.deal (.accept r)) fun s₁ =>
    Call.reflTransGen_bind_pure (g := fun _ => true)
      (chores_storeAllLoaded r.context (answeredRows r.outcome) s₁)

theorem deeds_applyResults (r : Fetched Bool) (s : Session) : s.Deeds (applyResults r s).2 := by
  refine reflTransGen_ifAccepted r (.deal (.accept r)) fun s₁ => ?_
  refine (Deed.results ((answeredRows r.outcome).head?.getD [])).deeds.trans ?_
  cases r.context with
  | false => exact .refl _
  | true => exact (Deed.graphResults _).deeds

/-- The counts and candidates of an update are merged without its results. -/
theorem chores_beforeResults (r : UpdateFetched) (s : Session) : s.Chores (s.beforeResults r) :=
  (reflTransGen_applyIfAny chores_applyCounts r.counts s).trans
    (reflTransGen_applyIfAny chores_applyAutoLoad r.autoLoad _)

theorem applyUpdate_snd (r : UpdateFetched) (s : Session) :
    (applyUpdate r s).2 = (applyIfAny applyResults r.results (s.beforeResults r)).2 := by
  obtain ⟨counts, s₁, h₁⟩ := succeeds_applyIfAny succeeds_applyCounts r.counts s
  obtain ⟨autoLoad, s₂, h₂⟩ := succeeds_applyIfAny succeeds_applyAutoLoad r.autoLoad s₁
  obtain ⟨results, s₃, h₃⟩ := succeeds_applyIfAny succeeds_applyResults r.results s₂
  rw [applyUpdate, Call.bind_ok h₁, Call.bind_ok h₂, Call.bind_ok h₃, beforeResults, h₁, h₂, h₃]
  rfl

theorem deeds_applyUpdate (r : UpdateFetched) (s : Session) : s.Deeds (applyUpdate r s).2 := by
  rw [applyUpdate_snd]
  exact (chores_beforeResults r s).deeds.trans
    (reflTransGen_applyIfAny deeds_applyResults r.results _)

theorem chores_applyValueFetch (r : Fetched NodeId) (s : Session) :
    s.Chores (applyValueFetch r s).2 := by
  refine Call.reflTransGen_bind (chores_deal (.accept r)) fun accepted s₁ _ => ?_
  rw [Call.get_bind]
  cases accepted with
  | false => exact .refl
  | true =>
    cases hn : s₁.diagram.node? r.context with
    | none => exact .refl
    | some n =>
      cases r.outcome with
      | failed | aborted => exact .refl
      | completed results =>
        let rows := unselectedRows s₁ n (results.head?.getD [])
        obtain ⟨-, n', hn'⟩ := setData_ok hn rows
        obtain ⟨shown, d, hd⟩ := expandValues_ok hn'
        obtain rfl : ((s₁.diagram.setData r.context rows).2.expandValues r.context).2 = d :=
          congrArg Prod.snd hd
        dsimp only
        rw [Call.bind_ok (storeCandidates_eq hn _), Call.bind_ok (Call.onDiagram_eq hd)]
        exact (Chore.change [.setData r.context rows, .expandValues r.context]
          (.valuesLoaded r.context)).chores

/-! ## Changes -/

theorem deeds_reset (s : Session) : s.Deeds (reset s).2 := (Deed.reset []).deeds

theorem deeds_replaceDiagram {f : Diagram → NodeId × Diagram} (o : Operation)
    (hf : ∀ d, (f d).2 = (o.run s.compiler.provider d).2) : s.Deeds (replaceDiagram f s).2 := by
  obtain ⟨s₁, hs₁, he⟩ := replaceDiagram_eq f s
  have h₁ : s.Deeds s₁ ∧ s₁.compiler = s.compiler := by
    rcases hs₁ with rfl | ⟨rfl, -⟩
    · exact ⟨deeds_reset s, rfl⟩
    · exact ⟨.refl _, rfl⟩
  rw [he, hf, ← h₁.2]
  exact h₁.1.trans (chores_change o .graphChanged).deeds

theorem chores_addChild (id : NodeId) (index : Nat) (s : Session) :
    s.Chores (addChild id index s).2 := by
  rw [addChild, Call.get_bind]
  exact Call.reflTransGen_onDiagram_bind (.expandRelationship id index) rfl
    fun _ _ => chores_change _ _

theorem chores_showCandidates (id : NodeId) (s : Session) : s.Chores (showCandidates id s).2 :=
  Call.reflTransGen_onDiagram_bind (.expandValues id) rfl fun _ _ => chores_change _ _

theorem chores_hideCandidates (id : NodeId) (s : Session) : s.Chores (hideCandidates id s).2 :=
  Call.reflTransGen_onDiagram_bind (.collapseValues id) rfl fun _ _ => chores_change _ _

/-- A page is turned, which is told, or nothing is. -/
theorem chores_moved {f : Diagram → Except GraphError Bool × Diagram} (o : Operation)
    (ho : o.run s.compiler.provider s.diagram = Operation.outcome (f s.diagram))
    (hstay : (f s.diagram).1 = .ok false → (f s.diagram).2 = s.diagram) : s.Chores ((do
      let moved ← Call.onDiagram f
      if moved then Call.emit .graphChanged
      return moved : Call Bool) s).2 := by
  refine Call.reflTransGen_onDiagram_bind o ho fun moved hmoved => ?_
  cases moved with
  | true => exact chores_change _ _
  | false =>
    have hd : (o.run s.compiler.provider s.diagram).2 = s.diagram := by
      rw [ho]
      exact hstay hmoved
    rw [hd]
    exact .refl

theorem chores_nextPage (id : NodeId) (s : Session) : s.Chores (nextPage id s).2 := by
  refine chores_moved (.nextPage id) rfl ?_
  unfold Diagram.nextPage Diagram.turnPage
  repeat' split
  all_goals simp

theorem chores_previousPage (id : NodeId) (s : Session) : s.Chores (previousPage id s).2 := by
  refine chores_moved (.previousPage id) rfl ?_
  unfold Diagram.previousPage Diagram.turnPage
  repeat' split
  all_goals simp

theorem chores_beginExpand (id : NodeId) (index : Nat) (s : Session) :
    s.Chores (beginExpand id index s).2 := by
  rw [beginExpand, Call.get_bind]
  refine Call.reflTransGen_onDiagram_bind (.expandRelationship id index) rfl fun child _ => ?_
  exact (chores_change (.expandRelationship id index) .graphChanged).trans
    (Call.reflTransGen_bind (chores_beginDiscovery child _) fun _ s₁ _ =>
      Call.reflTransGen_bind_pure (chores_beginUpdate s₁))

theorem chores_beginSelectValue (id : NodeId) (s : Session) : s.Chores (beginSelectValue id s).2 :=
  Call.reflTransGen_onDiagram_bind (.selectValue id) rfl fun parent _ =>
    chores_changed (.selectValue id) (parent, ·) s

/-- A change is followed by an update, unless nothing changes. -/
theorem chores_changedIf {f : Diagram → Except GraphError Bool × Diagram} (o : Operation)
    (ho : o.run s.compiler.provider s.diagram = Operation.outcome (f s.diagram))
    (hstay : (f s.diagram).1 = .ok false → (f s.diagram).2 = s.diagram) : s.Chores ((do
      if ← Call.onDiagram f then return (true, ← changed)
      else return (false, {}) : Call (Bool × Update)) s).2 := by
  refine Call.reflTransGen_onDiagram_bind o ho fun did hdid => ?_
  cases did with
  | true => exact chores_changed o (true, ·) s
  | false =>
    have hd : (o.run s.compiler.provider s.diagram).2 = s.diagram := by
      rw [ho]
      exact hstay hdid
    rw [hd]
    exact .refl

theorem chores_beginRemoveValue (id value : NodeId) (s : Session) :
    s.Chores (beginRemoveValue id value s).2 := by
  refine chores_changedIf (.removeValue id value) rfl fun h => ?_
  rcases removeValue_cases id value s.diagram with ⟨e, he⟩ | he | ⟨d, he, -⟩ <;> simp_all

theorem chores_beginNegate (id : NodeId) (s : Session) : s.Chores (beginNegate id s).2 := by
  refine chores_changedIf (.negate id) rfl fun h => ?_
  rcases negate_cases id s.diagram with ⟨e, he⟩ | he | ⟨d, he, -⟩ <;> simp_all

theorem deeds_beginRemoveNode (id : NodeId) (s : Session) : s.Deeds (beginRemoveNode id s).2 := by
  refine Call.reflTransGen_onDiagram_bind (.removeNode id) rfl fun held _ => ?_
  rw [Call.get_bind]
  split
  · exact (Deed.reset [.removeNode id]).deeds
  · exact (chores_changed (.removeNode id) (held, ·) s).deeds

/-! ## Actions -/

theorem chores_move {m : Move} (hm : m.isChore = true) (s : Session) :
    s.Chores (m.perform s).2 := by
  have handing {α : Type} {c : Call α} (hc : s.Chores (c s).2) (hand : α → Handed) :
      s.Chores (Move.handing c hand s).2 := by
    rwa [handing_snd]
  cases m with
  | addChild id index => exact handing (chores_addChild id index s) _
  | showCandidates id => exact handing (chores_showCandidates id s) _
  | hideCandidates id => exact handing (chores_hideCandidates id s) _
  | nextPage id => exact handing (chores_nextPage id s) _
  | previousPage id => exact handing (chores_previousPage id s) _
  | beginCounts => exact handing (chores_beginCounts s) _
  | beginAutoLoad => exact handing (chores_beginAutoLoad s) _
  | beginResults => exact handing (chores_beginResults s) _
  | beginUpdate => exact handing (chores_beginUpdate s) _
  | beginDiscovery id => exact handing (chores_beginDiscovery id s) _
  | beginValueFetch id => exact handing (chores_beginValueFetch id s) _
  | beginExpand id index => exact handing (chores_beginExpand id index s) _
  | beginSelectValue id => exact handing (chores_beginSelectValue id s) _
  | beginRemoveValue id value => exact handing (chores_beginRemoveValue id value s) _
  | beginNegate id => exact handing (chores_beginNegate id s) _
  | applyCounts r => exact handing (chores_applyCounts r s) _
  | applyAutoLoad r => exact handing (chores_applyAutoLoad r s) _
  | applyDiscovery r => exact handing (chores_applyDiscovery r s) _
  | applyValueFetch r => exact handing (chores_applyValueFetch r s) _
  | settle generation o => exact chores_deal (.settle generation o)
  | wait f => exact chores_deal (.wait f)
  | drop f => exact chores_deal (.drop f)
  | _ => cases hm

theorem deeds_move (m : Move) (s : Session) : s.Deeds (m.perform s).2 := by
  have handing {α : Type} {c : Call α} (hc : s.Deeds (c s).2) (hand : α → Handed) :
      s.Deeds (Move.handing c hand s).2 := by
    rwa [handing_snd]
  cases m with
  | reset => exact handing (deeds_reset s) _
  | listen => exact (Deed.hear true).deeds
  | unlisten => exact (Deed.hear false).deeds
  | placeRoot label anchor =>
    exact handing (deeds_replaceDiagram (.addRoot label anchor) fun _ => rfl) _
  | placeSchema schema anchor =>
    exact handing (deeds_replaceDiagram (.addSchema schema anchor) fun _ => rfl) _
  | beginRemoveNode id => exact handing (deeds_beginRemoveNode id s) _
  | applyResults r => exact handing (deeds_applyResults r s) _
  | applyUpdate r => exact handing (deeds_applyUpdate r s) _
  | _ => exact (chores_move rfl s).deeds

theorem MovesTo.deeds {s' : Session} (h : s.MovesTo s') : s.Deeds s' := by
  obtain ⟨moves, rfl⟩ := h
  induction moves generalizing s with
  | nil => exact .refl s
  | cons m rest ih => exact (deeds_move m s).trans ih

theorem deeds_loadOne (e : Endpoint) (id : NodeId) (s : Session) : s.Deeds (loadOne e id s).2 :=
  (movesTo_loadOne e id s).deeds

theorem deeds_loadAll (e : Endpoint) (fuel : Nat) (ids : List NodeId) (s : Session) :
    s.Deeds (loadAll e fuel ids s).2 :=
  (movesTo_loadAll e fuel ids s).deeds

theorem deeds_perform (a : Action) (s : Session) : s.Deeds (a.perform s) :=
  (movesTo_perform a s).deeds

theorem deeds_performAll (actions : List Action) (s : Session) :
    s.Deeds (performAll actions s) :=
  (movesTo_performAll actions s).deeds

end Session

end PatternQuery
