import PatternQuery.Proofs.Session.Evolution
import PatternQuery.Session.Update

/-!
# Merging answers

Merging counts, candidates or results changes no statement: a session evolves by it. Candidates are
merged into nodes of the query only, which is what is known of the nodes they were asked for.
-/

namespace PatternQuery.Session

variable {s : Session}

/-! ## Counts -/

theorem refines_storeCounts {d : Diagram} (h : d.WellFormed) (nodes : List NodeId)
    (counts : List Nat) : d.Refines (storeCounts nodes counts d) := by
  refine storeCounts_induction (P := d.Refines) (fun e id count he => ?_) (.refl h) nodes counts
  have hw : (e.modify id fun n => { n with count }).WellFormed := he.wellFormed.restyle fun _ => rfl
  have hc : e.Continues (e.modify id fun n => { n with count }) := .modify (.refl e) fun _ => rfl
  have hextends : e.Extends (e.modify id fun n => { n with count }) :=
    he.wellFormed.toShape.extends_modify id fun _ => rfl
  exact he.trans ⟨hw, hc, hextends⟩

/-- Whatever is merged once an answer is accepted, nothing is otherwise. -/
theorem evolves_ifAccepted {κ : Type} (h : s.Valid) (r : Fetched κ) {merge : Call Bool}
    (hm : ∀ s' : Session, (s.requests.accept r).1 = true → s'.diagram = s.diagram → s'.Valid →
      s'.Evolves (merge s').2) :
    s.Evolves ((do
      if ← Call.onRequests (Lifecycle.accept r) then merge else return false : Call Bool) s).2 := by
  refine Call.evolves_bind (Call.evolves_accept h r) fun a s' ha hv => ?_
  obtain ⟨haccept, hs'⟩ := Call.of_onRequests_ok ha
  cases a with
  | false => exact .refl hv
  | true => exact hm s' haccept (by rw [hs']) hv

theorem live_of_ifAccepted {κ : Type} {r : Fetched κ} {merge : Call Bool}
    (h : ((do
      if ← Call.onRequests (Lifecycle.accept r) then merge else return false : Call Bool) s).1 =
        .ok true) : s.requests.slots.get r.concern = some r.generation := by
  obtain ⟨a, s₁, ha, hmerge⟩ := Call.of_bind_ok (Prod.ext h rfl)
  obtain ⟨haccept, -⟩ := Call.of_onRequests_ok ha
  cases a with
  | false =>
    obtain ⟨hfalse, -⟩ := Call.of_pure_ok hmerge
    cases hfalse
  | true => exact Lifecycle.live_of_accept haccept

/-- What is not live any more is not merged. -/
theorem ifAccepted_of_not_live {κ : Type} {r : Fetched κ} (merge : Call Bool)
    (h : s.requests.slots.get r.concern ≠ some r.generation) :
    (do if ← Call.onRequests (Lifecycle.accept r) then merge else return false : Call Bool) s =
      (.ok false, s) := by
  have haccept : Call.onRequests (Lifecycle.accept r) s = (.ok false, s) := by
    unfold Call.onRequests
    rw [Lifecycle.accept_of_not_live h]
  rw [Call.bind_ok haccept]
  rfl

theorem Valid.evolves_applyCounts (h : s.Valid) (r : Fetched (List NodeId)) :
    s.Evolves (applyCounts r s).2 := by
  refine evolves_ifAccepted h r fun s' _ _ hv => ?_
  have hstore := hv.evolves_diagram
    (refines_storeCounts hv.diagram r.context (answeredCounts r.outcome))
  exact Call.evolves_bind hstore fun _ s'' _ hv' =>
    Call.evolves_tell hv' _ _

/-! ## Candidates -/

theorem Valid.evolves_storeCandidates (h : s.Valid) {id : NodeId} (rows : List Row)
    (hid : s.Spares id) :
    s.Evolves (storeCandidates id rows s).2 := by
  refine Call.evolves_bind (Call.evolves_requireNode h id) fun node s' hn hv => ?_
  obtain ⟨-, rfl⟩ := Call.of_requireNode_ok hn
  exact Call.evolves_onDiagram hv (hv.diagram.refines_setData _ hid)

theorem Valid.evolves_storeLoaded (h : s.Valid) {id : NodeId} (rows : List Row)
    (hid : s.Spares id) :
    s.Evolves (storeLoaded id rows s).2 := by
  unfold storeLoaded
  rw [Call.get_bind]
  cases hn : s.diagram.node? id with
  | none => exact .refl h
  | some node =>
    refine Call.evolves_bind (h.evolves_storeCandidates rows hid) fun _ s₁ _ h₁ => ?_
    have htell (s₂ : Session) (h₂ : s₂.Valid) : s₂.Evolves (Call.emit (.valuesLoaded id) s₂).2 :=
      Call.evolves_emit h₂ _
    dsimp only
    split
    · exact Call.evolves_bind (Call.evolves_onDiagram h₁ (h₁.diagram.refines_expandValues id))
        fun _ s₂ _ h₂ => htell s₂ h₂
    · exact htell s₁ h₁

/-- Candidates may be stored under numbers of nodes of the query. -/
theorem Valid.evolves_storeAllLoaded (h : s.Valid) {nodes : List NodeId}
    (hnodes : ∀ id ∈ nodes, s.diagram.Knows id) (results : List (List Row)) :
    s.Evolves (storeAllLoaded nodes results s).2 := by
  induction nodes generalizing s results with
  | nil => exact .refl h
  | cons id nodes ih =>
    have hid := spares_of_knows (hnodes id (by simp))
    have hstore := h.evolves_storeLoaded (results.head?.getD []) hid
    refine Call.evolves_bind hstore fun _ s' hs' h' => ?_
    refine ih h' (fun x hx => ?_) results.tail
    rw [hs'] at hstore
    exact hstore.diagram.knows (hnodes x (by simp [hx]))

theorem Valid.evolves_applyAutoLoad (h : s.Valid) (r : Fetched (List NodeId))
    (hnodes : ∀ id ∈ r.context, s.diagram.Knows id) : s.Evolves (applyAutoLoad r s).2 := by
  refine evolves_ifAccepted h r fun s' _ hd hv => ?_
  refine Call.evolves_bind (hv.evolves_storeAllLoaded ?_ _) fun _ _ _ h' => .refl h'
  rwa [hd]

/-! ## Results -/

theorem Valid.evolves_storeGraphResults (h : s.Valid) (rows : List Row) :
    s.Evolves (storeGraphResults rows s).2 :=
  Call.evolves_bind (Call.evolves_modify h rfl rfl rfl) fun _ _ _ h' => Call.evolves_emit h' _

theorem Valid.evolves_applyResults (h : s.Valid) (r : Fetched Bool) :
    s.Evolves (applyResults r s).2 := by
  refine evolves_ifAccepted h r fun s' _ _ hv => ?_
  refine Call.evolves_bind (Call.evolves_modify hv rfl rfl rfl) fun _ s₁ _ h₁ => ?_
  refine Call.evolves_bind (Call.evolves_emit h₁ _) fun _ s₂ _ h₂ => ?_
  dsimp only
  split
  · exact Call.evolves_bind (h₂.evolves_storeGraphResults _) fun _ _ _ h₃ => .refl h₃
  · exact .refl h₂

/-! ## Merging is not refused -/

/-- What becomes of a session when candidates of a node that it has are stored. -/
theorem storeCandidates_eq {id : NodeId} {n : Node} (hn : s.diagram.node? id = some n)
    (rows : List Row) : storeCandidates id rows s = (.ok (), { s with
      diagram := (s.diagram.setData id (s.unselectedRows n rows)).2 }) := by
  obtain ⟨hok, -⟩ := Diagram.setData_ok hn (s.unselectedRows n rows)
  unfold storeCandidates
  rw [Call.bind_ok (Call.requireNode_eq hn), Call.get_bind, Call.onDiagram_eq (Prod.ext hok rfl)]

theorem succeeds_storeLoaded (s : Session) (id : NodeId) (rows : List Row) :
    (storeLoaded id rows).Succeeds s := by
  refine Call.Succeeds.get_bind ?_
  cases hn : s.diagram.node? id with
  | none => exact Call.succeeds_pure () s
  | some n =>
    refine Call.Succeeds.after (storeCandidates_eq hn rows) ?_
    dsimp only
    split
    · obtain ⟨-, n', hn'⟩ := Diagram.setData_ok hn (unselectedRows s n rows)
      obtain ⟨shown, d, hd⟩ := Diagram.expandValues_ok hn'
      exact Call.Succeeds.after (Call.onDiagram_eq hd) ⟨_, _, rfl⟩
    · exact ⟨_, _, rfl⟩

theorem succeeds_storeAllLoaded (s : Session) (nodes : List NodeId) (results : List (List Row)) :
    (storeAllLoaded nodes results).Succeeds s := by
  induction nodes generalizing s results with
  | nil => exact Call.succeeds_pure () s
  | cons id nodes ih =>
    exact (succeeds_storeLoaded s id _).bind fun _ s' _ => ih s' results.tail

theorem succeeds_ifAccepted {κ : Type} (r : Fetched κ) {merge : Call Bool}
    (hm : ∀ s, merge.Succeeds s) (s : Session) : Call.Succeeds (do
      if ← Call.onRequests (Lifecycle.accept r) then merge else return false) s := by
  refine Call.Succeeds.after (a := (s.requests.accept r).1) rfl ?_
  split
  · exact hm _
  · exact Call.succeeds_pure false _

theorem succeeds_applyCounts (r : Fetched (List NodeId)) (s : Session) :
    (applyCounts r).Succeeds s :=
  succeeds_ifAccepted r (fun _ => ⟨true, _, rfl⟩) s

theorem succeeds_applyAutoLoad (r : Fetched (List NodeId)) (s : Session) :
    (applyAutoLoad r).Succeeds s :=
  succeeds_ifAccepted r (fun s' => (succeeds_storeAllLoaded s' _ _).bind fun _ _ _ =>
    Call.succeeds_pure true _) s

theorem succeeds_applyResults (r : Fetched Bool) (s : Session) : (applyResults r).Succeeds s := by
  refine succeeds_ifAccepted r (fun s' => ?_) s
  refine Call.Succeeds.after (a := ()) rfl (Call.Succeeds.after (a := ()) rfl ?_)
  dsimp only
  split
  · exact ⟨true, _, rfl⟩
  · exact ⟨true, _, rfl⟩

/-! ## Updates -/

/-- The session in which the results of an update are merged, when its other parts are. -/
def beforeResults (r : UpdateFetched) (s : Session) : Session :=
  (applyIfAny applyAutoLoad r.autoLoad (applyIfAny applyCounts r.counts s).2).2

theorem Valid.evolves_applyIfAny {α : Type} (h : s.Valid) {f : α → Call Bool} {r : Option α}
    (hf : ∀ a, r = some a → s.Evolves (f a s).2) : s.Evolves (applyIfAny f r s).2 := by
  cases r with
  | none => exact .refl h
  | some a => exact hf a rfl

theorem succeeds_applyIfAny {α : Type} {f : α → Call Bool} (hf : ∀ a s, (f a).Succeeds s)
    (r : Option α) (s : Session) : (applyIfAny f r).Succeeds s := by
  cases r with
  | none => exact Call.succeeds_pure false s
  | some a => exact hf a s

theorem succeeds_applyUpdate (r : UpdateFetched) (s : Session) : (applyUpdate r).Succeeds s := by
  refine (succeeds_applyIfAny succeeds_applyCounts r.counts s).bind fun _ s₁ _ => ?_
  refine (succeeds_applyIfAny succeeds_applyAutoLoad r.autoLoad s₁).bind fun _ s₂ _ => ?_
  exact (succeeds_applyIfAny succeeds_applyResults r.results s₂).bind fun _ _ _ =>
    Call.succeeds_pure _ _

theorem Valid.evolves_applyUpdate (h : s.Valid) (r : UpdateFetched)
    (hnodes : ∀ f, r.autoLoad = some f → ∀ id ∈ f.context, s.diagram.Knows id) :
    s.Evolves (applyUpdate r s).2 := by
  have hcounts : s.Evolves (applyIfAny applyCounts r.counts s).2 :=
    h.evolves_applyIfAny fun f _ => h.evolves_applyCounts f
  refine Call.evolves_bind hcounts fun _ s₁ hs₁ h₁ => ?_
  rw [hs₁] at hcounts
  have hautoLoad : s₁.Evolves (applyIfAny applyAutoLoad r.autoLoad s₁).2 :=
    h₁.evolves_applyIfAny fun f hf => h₁.evolves_applyAutoLoad f fun id hid =>
      hcounts.diagram.knows (hnodes f hf id hid)
  refine Call.evolves_bind hautoLoad fun _ s₂ _ h₂ => ?_
  refine Call.evolves_bind ?_ fun _ _ _ h₃ => .refl h₃
  exact h₂.evolves_applyIfAny fun f _ => h₂.evolves_applyResults f

end PatternQuery.Session
