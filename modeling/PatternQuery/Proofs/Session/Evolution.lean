import PatternQuery.Proofs.Request.Succession
import PatternQuery.Proofs.Statement.IdleEdits
import PatternQuery.Session.Basic

/-!
# Sessions over time

Every operation of a session leads to one that evolves from it (`Session.Evolves`): the diagram goes
on with its numbers, the requests with their generations, and while counts or results are being
waited for, the diagram is only extended. So what they answer is still asked when they come.
-/

namespace PatternQuery

/-- No counts, candidates or results of the whole query are being waited for. -/
def Lifecycle.Quiet (l : Lifecycle) : Prop :=
  l.slots.count = none ∧ l.slots.autoLoad = none ∧ l.slots.results = none

theorem Lifecycle.Quiet.of_slots {l l' : Lifecycle} (h : l.Quiet)
    (hs : ∀ c, l'.slots.get c = l.slots.get c ∨ l'.slots.get c = none) : l'.Quiet := by
  obtain ⟨hcount, hautoLoad, hresults⟩ := h
  refine ⟨?_, ?_, ?_⟩
  · rcases hs .count with e | e
    · exact e.trans hcount
    · exact e
  · rcases hs .autoLoad with e | e
    · exact e.trans hautoLoad
    · exact e
  · rcases hs .results with e | e
    · exact e.trans hresults
    · exact e

namespace Session

/-- The diagram is well formed, generations are bounded, and nothing is asked about no nodes. -/
structure Valid (s : Session) : Prop where
  diagram : s.diagram.WellFormed
  requests : s.requests.Bounded
  quiet : s.diagram.isEmpty = true → s.requests.Quiet

/-- `s'` may be what becomes of `s`. -/
structure Evolves (s s' : Session) : Prop where
  valid : s'.Valid
  compiler : s'.compiler = s.compiler
  diagram : s.diagram.Continues s'.diagram
  requests : s.requests.Later s'.requests
  extends_of_live : ∀ g ≤ s.requests.generation,
    s'.requests.slots.count = some g ∨ s'.requests.slots.results = some g →
      s.diagram.Extends s'.diagram

variable {s s' s'' : Session} {id : NodeId}

/-- The calls that store something under a number find no candidate value there. -/
def Spares (s : Session) (id : NodeId) : Prop := ∀ n, s.diagram.node? id = some n → n.kind ≠ .value

theorem spares_of_knows (h : s.diagram.Knows id) : s.Spares id := fun n hn =>
  h.kind n (Diagram.mem_of_node? hn) (Diagram.id_of_node? hn)

theorem Valid.spares (h : s.Valid) (hid : s.diagram.IsQueryNode id) : s.Spares id :=
  spares_of_knows (hid.knows h.diagram.toNumbered)

theorem Evolves.refl (h : s.Valid) : s.Evolves s :=
  ⟨h, rfl, .refl _, .refl h.requests, fun _ _ _ => .refl h.diagram.toShape⟩

theorem Evolves.trans (h : s.Evolves s') (h' : s'.Evolves s'') : s.Evolves s'' where
  valid := h'.valid
  compiler := h'.compiler.trans h.compiler
  diagram := h.diagram.trans h'.diagram
  requests := h.requests.trans h'.requests
  extends_of_live g hg hlive := by
    have hg' := Nat.le_trans hg h.requests.generation
    have hlive' : s'.requests.slots.count = some g ∨ s'.requests.slots.results = some g :=
      hlive.imp (h'.requests.live .count g hg') (h'.requests.live .results g hg')
    exact (h.extends_of_live g hg hlive').trans (h'.extends_of_live g hg' hlive)
      h'.valid.diagram.toNumbered

/-! ## Changes of parts of a session -/

theorem Valid.evolves_diagram (h : s.Valid) {d : Diagram} (hd : s.diagram.Refines d) :
    s.Evolves { s with diagram := d } where
  valid := ⟨hd.wellFormed, h.requests,
    fun he => h.quiet (hd.isExtension.isEmpty_of_isEmpty h.diagram.toShape he)⟩
  compiler := rfl
  diagram := hd.continues
  requests := .refl h.requests
  extends_of_live _ _ _ := hd.isExtension

/-- Where nothing is asked, the diagram may be replaced. -/
theorem Valid.evolves_diagram_of_quiet (h : s.Valid) (hq : s.requests.Quiet) {d : Diagram}
    (hw : d.WellFormed) (hc : s.diagram.Continues d) : s.Evolves { s with diagram := d } where
  valid := ⟨hw, h.requests, fun _ => hq⟩
  compiler := rfl
  diagram := hc
  requests := .refl h.requests
  extends_of_live g _ hlive := by
    obtain ⟨hcount, -, hresults⟩ := hq
    rcases hlive with hlive | hlive
    · rw [hcount] at hlive
      simp at hlive
    · rw [hresults] at hlive
      simp at hlive

theorem Valid.evolves_requests (h : s.Valid) {l : Lifecycle} (hl : s.requests.Later l)
    (hq : s.diagram.isEmpty = true → l.Quiet) : s.Evolves { s with requests := l } :=
  ⟨⟨h.diagram, hl.bounded, hq⟩, rfl, .refl _, hl, fun _ _ _ => .refl h.diagram.toShape⟩

/-- A session evolves in the same way whatever it publishes and stores of results. -/
theorem Evolves.modify (h : s.Evolves s') {f : Session → Session}
    (hd : (f s').diagram = s'.diagram) (hc : (f s').compiler = s'.compiler)
    (hr : (f s').requests = s'.requests) : s.Evolves (f s') where
  valid := by
    refine ⟨?_, ?_, ?_⟩
    · rw [hd]
      exact h.valid.diagram
    · rw [hr]
      exact h.valid.requests
    · rw [hd, hr]
      exact h.valid.quiet
  compiler := hc.trans h.compiler
  diagram := by
    rw [hd]
    exact h.diagram
  requests := by
    rw [hr]
    exact h.requests
  extends_of_live g hg hlive := by
    rw [hr] at hlive
    rw [hd]
    exact h.extends_of_live g hg hlive

end Session

/-! ## Calls -/

namespace Call

open Session

variable {α β : Type} {s : Session}

theorem bind_ok {c : Call α} {f : α → Call β} {a : α} {s s' : Session} (h : c s = (.ok a, s')) :
    (c >>= f) s = f a s' := by
  show Call.bind c f s = _
  rw [Call.bind, h]

theorem bind_error {c : Call α} {f : α → Call β} {e : GraphError} {s s' : Session}
    (h : c s = (.error e, s')) : (c >>= f) s = (.error e, s') := by
  show Call.bind c f s = _
  rw [Call.bind, h]

theorem get_bind (f : Session → Call α) : (Call.get >>= f) s = f s s := rfl

theorem of_bind_ok {c : Call α} {f : α → Call β} {b : β} {s' : Session}
    (h : (c >>= f) s = (.ok b, s')) : ∃ a s₁, c s = (.ok a, s₁) ∧ f a s₁ = (.ok b, s') := by
  rcases hr : c s with ⟨r, s₁⟩
  cases r with
  | error e =>
    rw [bind_error hr] at h
    simp at h
  | ok a =>
    rw [bind_ok hr] at h
    exact ⟨a, s₁, rfl, h⟩

theorem of_pure_ok {a b : α} {s' : Session} (h : (Pure.pure b : Call α) s = (.ok a, s')) :
    a = b ∧ s' = s := by
  obtain ⟨ha, hs⟩ := Prod.mk.inj h
  exact ⟨(Except.ok.inj ha).symm, hs.symm⟩

theorem of_onRequests_ok {f : Lifecycle → α × Lifecycle} {a : α} {s' : Session}
    (h : onRequests f s = (.ok a, s')) :
    (f s.requests).1 = a ∧ s' = { s with requests := (f s.requests).2 } := by
  obtain ⟨ha, hs⟩ := Prod.mk.inj h
  exact ⟨Except.ok.inj ha, hs.symm⟩

theorem onRequests_eq {f : Lifecycle → α × Lifecycle} {a : α} (h : (f s.requests).1 = a) :
    onRequests f s = (.ok a, { s with requests := (f s.requests).2 }) := by
  rw [← h]
  rfl

theorem onDiagram_eq {f : Diagram → Except GraphError α × Diagram} {r : Except GraphError α}
    {d : Diagram} (hf : f s.diagram = (r, d)) : onDiagram f s = (r, { s with diagram := d }) := by
  unfold onDiagram
  rw [hf]

theorem of_onDiagram_ok {f : Diagram → Except GraphError α × Diagram} {a : α} {s' : Session}
    (h : onDiagram f s = (.ok a, s')) :
    (f s.diagram).1 = .ok a ∧ s' = { s with diagram := (f s.diagram).2 } := by
  obtain ⟨ha, hs⟩ := Prod.mk.inj h
  exact ⟨ha, hs.symm⟩

theorem requireNode_eq {id : NodeId} {n : Node} (hn : s.diagram.node? id = some n) :
    requireNode id s = (.ok n, s) := by
  unfold requireNode
  rw [hn]

theorem of_requireNode_ok {id : NodeId} {n : Node} {s' : Session}
    (h : requireNode id s = (.ok n, s')) : s.diagram.node? id = some n ∧ s' = s := by
  unfold requireNode at h
  split at h
  · rename_i m hm
    obtain ⟨hn, hs⟩ := Prod.mk.inj h
    exact ⟨by rw [hm, Except.ok.inj hn], hs.symm⟩
  · simp at h

/-- What a first call leads to, the calls after it go on from. -/
theorem evolves_bind {c : Call α} {f : α → Call β} (hc : s.Evolves (c s).2)
    (hf : ∀ a s', c s = (.ok a, s') → s'.Valid → s'.Evolves (f a s').2) :
    s.Evolves ((c >>= f) s).2 := by
  rcases hr : c s with ⟨r, s'⟩
  rw [hr] at hc
  cases r with
  | error e =>
    rw [bind_error hr]
    exact hc
  | ok a =>
    rw [bind_ok hr]
    exact hc.trans (hf a s' hr hc.valid)

theorem evolves_modify (h : s.Valid) {f : Session → Session} (hd : (f s).diagram = s.diagram)
    (hc : (f s).compiler = s.compiler) (hr : (f s).requests = s.requests) :
    s.Evolves (Call.modify f s).2 :=
  Evolves.modify (.refl h) hd hc hr

theorem evolves_emit (h : s.Valid) (k : EventKind) : s.Evolves (emit k s).2 :=
  evolves_modify h rfl rfl rfl

/-- An event is published last. -/
theorem evolves_tell (h : s.Valid) (k : EventKind) (a : α) :
    s.Evolves ((do emit k; return a : Call α) s).2 :=
  evolves_emit h k

theorem evolves_requireNode (h : s.Valid) (id : NodeId) : s.Evolves (requireNode id s).2 := by
  unfold requireNode
  split <;> exact .refl h

theorem evolves_onDiagram (h : s.Valid) {f : Diagram → Except GraphError α × Diagram}
    (hf : s.diagram.Refines (f s.diagram).2) : s.Evolves (onDiagram f s).2 :=
  h.evolves_diagram hf

/-- Requests may change as long as nothing is asked anew. -/
theorem evolves_onRequests (h : s.Valid) {f : Lifecycle → α × Lifecycle}
    (hl : s.requests.Later (f s.requests).2)
    (hq : s.requests.Quiet → (f s.requests).2.Quiet) : s.Evolves (onRequests f s).2 :=
  h.evolves_requests hl fun hd => hq (h.quiet hd)

theorem evolves_accept {κ : Type} (h : s.Valid) (r : Fetched κ) :
    s.Evolves (onRequests (Lifecycle.accept r) s).2 :=
  evolves_onRequests h (h.requests.later_accept r)
    fun hq => hq.of_slots (Lifecycle.accept_slots r s.requests)

/-! ### Calls that issue and accept nothing -/

/-- A call leaves alone which requests are live, and the nodes of the query stay. -/
def Retains (c : Call α) : Prop :=
  ∀ s, (c s).2.requests.slots = s.requests.slots ∧
    ∀ id, s.diagram.IsQueryNode id → (c s).2.diagram.IsQueryNode id

theorem Retains.bind {c : Call α} {f : α → Call β} (hc : c.Retains) (hf : ∀ a, (f a).Retains) :
    (c >>= f).Retains := by
  intro s
  obtain ⟨hslots, hnodes⟩ := hc s
  rcases hr : c s with ⟨r, s'⟩
  rw [hr] at hslots hnodes
  cases r with
  | error e =>
    rw [bind_error hr]
    exact ⟨hslots, hnodes⟩
  | ok a =>
    rw [bind_ok hr]
    obtain ⟨hslots', hnodes'⟩ := hf a s'
    exact ⟨hslots'.trans hslots, fun id hid => hnodes' id (hnodes id hid)⟩

theorem retains_pure (a : α) : (Pure.pure a : Call α).Retains := fun _ => ⟨rfl, fun _ h => h⟩

theorem retains_get : get.Retains := fun _ => ⟨rfl, fun _ h => h⟩

theorem retains_emit (k : EventKind) : (emit k).Retains := fun _ => ⟨rfl, fun _ h => h⟩

theorem retains_lift (r : Except GraphError α) : (lift r).Retains := fun _ => ⟨rfl, fun _ h => h⟩

theorem retains_requireNode (id : NodeId) : (requireNode id).Retains := by
  intro s
  unfold requireNode
  split <;> exact ⟨rfl, fun _ h => h⟩

theorem retains_onDiagram {f : Diagram → Except GraphError α × Diagram}
    (hf : ∀ d id, d.IsQueryNode id → (f d).2.IsQueryNode id) : (onDiagram f).Retains :=
  fun s => ⟨rfl, hf s.diagram⟩

theorem retains_onRequests {f : Lifecycle → α × Lifecycle}
    (hf : ∀ l, (f l).2.slots = l.slots) : (onRequests f).Retains :=
  fun s => ⟨hf s.requests, fun _ h => h⟩

/-! ### Calls that are not refused -/

def Succeeds (c : Call α) (s : Session) : Prop := ∃ a s', c s = (.ok a, s')

theorem succeeds_pure (a : α) (s : Session) : Succeeds (Pure.pure a) s := ⟨a, s, rfl⟩

theorem Succeeds.get_bind {f : Session → Call α} (h : (f s).Succeeds s) :
    Succeeds (get >>= f) s :=
  h

theorem Succeeds.after {c : Call α} {f : α → Call β} {a : α} {s' : Session}
    (ha : c s = (.ok a, s')) (hf : (f a).Succeeds s') : Succeeds (c >>= f) s := by
  obtain ⟨b, s'', hb⟩ := hf
  exact ⟨b, s'', by rw [bind_ok ha, hb]⟩

theorem Succeeds.bind {c : Call α} {f : α → Call β} (hc : c.Succeeds s)
    (hf : ∀ a s', c s = (.ok a, s') → (f a).Succeeds s') : Succeeds (c >>= f) s := by
  obtain ⟨a, s', ha⟩ := hc
  exact .after ha (hf a s' ha)

end Call

end PatternQuery
