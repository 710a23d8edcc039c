import PatternQuery.Proofs.Session.Handling
import PatternQuery.Proofs.Session.Sprouting

/-!
# What a session lets grow from bare negations

Each step of a session either leaves bare negations without relations or lets one grow, and it is
known beforehand which (`Session.Yields`). Only children that are added to a bare negation grow from
it: along one segment, or when its relations are loaded and expanded on their own. What follows in
the same step leaves that alone (`Session.SameGrowth`).
-/

namespace PatternQuery

open Diagram

namespace Session

/-- Where no relation led away from a bare negation before, one does now, or none does. -/
structure Yields (s s' : Session) (grown : Bool) : Prop where
  orderly : s.diagram.Orderly → s'.diagram.Orderly
  severed : s.diagram.Orderly → s.diagram.Severed → (s'.diagram.Severed ↔ grown = false)

/-- What hangs from bare negations is as it was. -/
structure SameGrowth (s s' : Session) : Prop where
  orderly : s.diagram.Orderly → s'.diagram.Orderly
  diagram : s.diagram.Orderly → s.diagram.SameGrowth s'.diagram

variable {s s' s'' : Session} {id : NodeId} {grown : Bool}

theorem SameGrowth.refl (s : Session) : s.SameGrowth s :=
  ⟨fun h => h, fun _ => .refl s.diagram⟩

theorem SameGrowth.trans (h : s.SameGrowth s') (h' : s'.SameGrowth s'') : s.SameGrowth s'' where
  orderly hs := h'.orderly (h.orderly hs)
  diagram hs := (h.diagram hs).trans (h'.diagram (h.orderly hs))

theorem SameDiagram.sameGrowth (h : s.SameDiagram s') : s.SameGrowth s' := by
  constructor
  all_goals rw [h.diagram]
  · exact fun hs => hs
  · exact fun _ => .refl s.diagram

theorem SameGrowth.severed_iff (h : s.SameGrowth s') (hs : s.diagram.Orderly) :
    s'.diagram.Severed ↔ s.diagram.Severed :=
  (h.diagram hs).severed_iff hs.toNumbered (h.orderly hs).toNumbered

theorem SameGrowth.yields (h : s.SameGrowth s') : s.Yields s' false :=
  ⟨h.orderly, fun hs hsevered => by simp [h.severed_iff hs, hsevered]⟩

theorem Yields.after (h : s.Yields s' grown) (h' : s'.SameGrowth s'') : s.Yields s'' grown where
  orderly hs := h'.orderly (h.orderly hs)
  severed hs hsevered := by rw [h'.severed_iff (h.orderly hs), h.severed hs hsevered]

theorem Yields.trans (h : s.Yields s' false) (h' : s'.Yields s'' grown) : s.Yields s'' grown where
  orderly hs := h'.orderly (h.orderly hs)
  severed hs hsevered := h'.severed (h.orderly hs) ((h.severed hs hsevered).2 rfl)

end Session

/-! ## Calls one after the other -/

namespace Call

open Session

variable {α β : Type} {s : Session} {grown : Bool}

theorem KeepsDiagram.sameGrowth {c : Call α} (h : c.KeepsDiagram) (s : Session) :
    s.SameGrowth (c s).2 :=
  (h s).sameGrowth

theorem sameGrowth_bind {c : Call α} {f : α → Call β} (hc : s.SameGrowth (c s).2)
    (hf : ∀ a s', c s = (.ok a, s') → s'.SameGrowth (f a s').2) :
    s.SameGrowth ((c >>= f) s).2 := by
  rcases hr : c s with ⟨r, s'⟩
  rw [hr] at hc
  cases r with
  | error e => rwa [bind_error hr]
  | ok a =>
    rw [bind_ok hr]
    exact hc.trans (hf a s' hr)

theorem yields_bind {c : Call α} {f : α → Call β} (hc : s.Yields (c s).2 grown)
    (hf : ∀ a s', c s = (.ok a, s') → s'.SameGrowth (f a s').2) :
    s.Yields ((c >>= f) s).2 grown := by
  rcases hr : c s with ⟨r, s'⟩
  rw [hr] at hc
  cases r with
  | error e => rwa [bind_error hr]
  | ok a =>
    rw [bind_ok hr]
    exact hc.after (hf a s' hr)

theorem yields_bind_keeps {c : Call α} {f : α → Call β} (hc : s.Yields (c s).2 grown)
    (hf : ∀ a, (f a).KeepsDiagram) : s.Yields ((c >>= f) s).2 grown :=
  yields_bind hc fun a s' _ => (hf a).sameGrowth s'

/-- A call that is an operation of the diagram. -/
theorem yields_onDiagram (o : Operation) {f : Diagram → Except GraphError α × Diagram}
    (hf : (f s.diagram).2 = (o.run s.compiler.provider s.diagram).2) :
    s.Yields (onDiagram f s).2 (o.growsBare s.diagram) := by
  refine ⟨fun hs => ?_, fun hs hsevered => ?_⟩
  · show (f s.diagram).2.Orderly
    rw [hf]
    exact hs.run _ o
  · show (f s.diagram).2.Severed ↔ _
    rw [hf]
    exact hs.severed_run hsevered _ o

theorem sameGrowth_onDiagram {f : Diagram → Except GraphError α × Diagram}
    (ho : s.diagram.Orderly → (f s.diagram).2.Orderly)
    (hd : s.diagram.Orderly → s.diagram.SameGrowth (f s.diagram).2) :
    s.SameGrowth (onDiagram f s).2 :=
  ⟨ho, hd⟩

end Call

namespace Session

variable {s : Session} {id : NodeId}

/-! ## Candidates and counts -/

theorem sameGrowth_setData (id : NodeId) (rows : List Row) (s : Session) :
    s.SameGrowth { s with diagram := (s.diagram.setData id rows).2 } :=
  ⟨fun hs => hs.run s.compiler.provider (.setData id rows),
    fun _ => Diagram.sameGrowth_setData id rows s.diagram⟩

theorem sameGrowth_expandValues (id : NodeId) (s : Session) :
    s.SameGrowth (Call.onDiagram (Diagram.expandValues id) s).2 :=
  Call.sameGrowth_onDiagram (fun hs => hs.run s.compiler.provider (.expandValues id))
    fun hs => hs.sameGrowth_expandValues id

theorem sameGrowth_storeLoaded (id : NodeId) (rows : List Row) (s : Session) :
    s.SameGrowth (storeLoaded id rows s).2 := by
  unfold storeLoaded
  rw [Call.get_bind]
  cases hn : s.diagram.node? id with
  | none => exact .refl s
  | some n =>
    dsimp only
    rw [Call.bind_ok (storeCandidates_eq hn rows)]
    have hdata := sameGrowth_setData id (s.unselectedRows n rows) s
    split
    · exact hdata.trans (Call.sameGrowth_bind (sameGrowth_expandValues id _)
        fun _ s' _ => (Call.keepsDiagram_emit _).sameGrowth s')
    · exact hdata.trans ((Call.keepsDiagram_emit _).sameGrowth _)

theorem sameGrowth_storeAllLoaded (nodes : List NodeId) (results : List (List Row)) (s : Session) :
    s.SameGrowth (storeAllLoaded nodes results s).2 := by
  induction nodes generalizing s results with
  | nil => exact .refl s
  | cons id nodes ih =>
    exact Call.sameGrowth_bind (sameGrowth_storeLoaded id _ s) fun _ s' _ => ih results.tail s'

/-- What is merged, is merged once the answer is accepted. -/
theorem sameGrowth_ifAccepted {κ : Type} (r : Fetched κ) {merge : Call Bool}
    (hm : ∀ s : Session, s.SameGrowth (merge s).2) (s : Session) :
    s.SameGrowth ((do
      if ← Call.onRequests (Lifecycle.accept r) then merge else return false : Call Bool) s).2 := by
  refine Call.sameGrowth_bind ((Call.keepsDiagram_onRequests _).sameGrowth s) fun a s' _ => ?_
  cases a with
  | false => exact .refl s'
  | true => exact hm s'

theorem sameGrowth_storeCounts (nodes : List NodeId) (counts : List Nat) (d : Diagram)
    (h : d.Orderly) :
    (storeCounts nodes counts d).Orderly ∧ d.SameGrowth (storeCounts nodes counts d) := by
  refine storeCounts_induction (P := fun e => e.Orderly ∧ d.SameGrowth e)
    (fun e id count he => ?_) ⟨h, .refl d⟩ nodes counts
  have horderly : (e.modify id fun n => { n with count }).Orderly :=
    ⟨he.1.toLinked.modify fun _ => rfl, he.1.choices.modify (fun _ => rfl) fun _ _ _ => .inl⟩
  exact ⟨horderly, he.2.trans (sameGrowth_modify (fun _ => rfl) fun _ => rfl)⟩

theorem sameGrowth_applyCounts (r : Fetched (List NodeId)) (s : Session) :
    s.SameGrowth (applyCounts r s).2 := by
  refine sameGrowth_ifAccepted r (fun s' => ?_) s
  refine Call.sameGrowth_bind ⟨fun hs => (sameGrowth_storeCounts _ _ _ hs).1,
    fun hs => (sameGrowth_storeCounts _ _ _ hs).2⟩ fun _ s₁ _ => ?_
  exact ((Call.keepsDiagram_emit _).bind fun _ => Call.keepsDiagram_pure _).sameGrowth s₁

theorem sameGrowth_applyAutoLoad (r : Fetched (List NodeId)) (s : Session) :
    s.SameGrowth (applyAutoLoad r s).2 := by
  refine sameGrowth_ifAccepted r (fun s' => ?_) s
  exact Call.sameGrowth_bind (sameGrowth_storeAllLoaded _ _ s') fun _ s₁ _ =>
    (Call.keepsDiagram_pure _).sameGrowth s₁

theorem sameGrowth_applyIfAny {α : Type} {f : α → Call Bool} (r : Option α)
    (hf : ∀ (a : α) (s : Session), s.SameGrowth (f a s).2) (s : Session) :
    s.SameGrowth (applyIfAny f r s).2 := by
  cases r with
  | none => exact .refl s
  | some a => exact hf a s

theorem sameGrowth_applyUpdate (r : UpdateFetched) (s : Session) :
    s.SameGrowth (applyUpdate r s).2 := by
  refine Call.sameGrowth_bind (sameGrowth_applyIfAny r.counts sameGrowth_applyCounts s)
    fun _ s₁ _ => ?_
  refine Call.sameGrowth_bind (sameGrowth_applyIfAny r.autoLoad sameGrowth_applyAutoLoad s₁)
    fun _ s₂ _ => ?_
  exact ((keepsDiagram_applyIfAny keepsDiagram_applyResults r.results).bind
    fun _ => Call.keepsDiagram_pure _).sameGrowth s₂

theorem sameGrowth_applyValueFetch (r : Fetched NodeId) (s : Session) :
    s.SameGrowth (applyValueFetch r s).2 := by
  refine Call.sameGrowth_bind ((Call.keepsDiagram_onRequests _).sameGrowth s)
    fun accepted s₁ _ => ?_
  rw [Call.get_bind]
  cases accepted with
  | false => exact .refl s₁
  | true =>
    cases hn : s₁.diagram.node? r.context with
    | none => exact .refl s₁
    | some n =>
      cases r.outcome with
      | failed reason => exact .refl s₁
      | aborted => exact .refl s₁
      | completed results =>
        dsimp only
        rw [Call.bind_ok (storeCandidates_eq hn _)]
        refine SameGrowth.trans (sameGrowth_setData r.context
          (s₁.unselectedRows n (results.head?.getD [])) s₁) ?_
        exact Call.sameGrowth_bind (sameGrowth_expandValues _ _) fun _ s' _ =>
          ((Call.keepsDiagram_emit _).bind fun _ => Call.keepsDiagram_pure _).sameGrowth s'

/-! ## Relations -/

/-- Loading these segments for the node would let a bare negation grow. -/
def growsWith (s : Session) (id : NodeId) (segments : List Segment) : Bool :=
  s.diagram.isBareAt id && s.expandsItself id && !segments.isEmpty

/-- The relations of the node are known from a schema, and would let a bare negation grow. -/
def discoveryGrows (s : Session) (id : NodeId) : Bool :=
  (s.diagram.node? id).any fun n => (s.properties n.label).schema.any fun schema =>
    s.growsWith id schema.segments

/-- The answer to a discovery would be accepted and let a bare negation grow. -/
def answerGrows (s : Session) (r : Fetched NodeId) : Bool :=
  (s.requests.acceptDiscovery r).1 && s.growsWith r.context (discoveredSegments r.outcome)

theorem growsWith_of_not_bare (h : s.diagram.isBareAt id = false) (segments : List Segment) :
    s.growsWith id segments = false := by
  rw [growsWith, h, Bool.false_and, Bool.false_and]

theorem yields_adds {c : Call (List NodeId)} {count : Nat}
    (h : s.diagram.Orderly → Adds c s id count) :
    s.Yields (c s).2 (s.diagram.isBareAt id && decide (0 < count)) := by
  constructor
  · intro hs
    obtain ⟨children, s', hc, -, hsprouts, -⟩ := h hs
    rw [hc]
    exact hsprouts.orderly
  · intro hs hsevered
    obtain ⟨children, s', hc, -, hsprouts, rfl⟩ := h hs
    rw [hc, hsprouts.severed_iff hs hsevered]
    cases children <;> simp

theorem yields_storeRelations {n : Node} (hn : s.diagram.node? id = some n)
    (segments : List Segment) :
    s.Yields (storeRelations id segments s).2 (s.growsWith id segments) := by
  have h := yields_adds fun hs => adds_storeRelations hs hn segments
  have hcount : (s.diagram.isBareAt id &&
      decide (0 < if s.expandsItself id = true then segments.length else 0)) =
        s.growsWith id segments := by
    rw [growsWith, Bool.and_assoc]
    cases s.expandsItself id <;> cases segments <;> simp
  rwa [hcount] at h

/-- The start of a discovery stores the relations from a schema, or leaves the diagram alone. -/
theorem beginDiscovery_cases (id : NodeId) (s : Session) :
    (∃ n schema, s.diagram.node? id = some n ∧ (s.properties n.label).schema = some schema ∧
      beginDiscovery id s = ((storeRelations id schema.segments s).1.map .loaded,
        (storeRelations id schema.segments s).2)) ∨
    (s.diagram.node? id).any (fun n => (s.properties n.label).schema.isSome) = false ∧
      s.SameDiagram (beginDiscovery id s).2 := by
  cases hn : s.diagram.node? id with
  | none =>
    have hnode : Call.requireNode id s = (.error (.nodeNotFound id), s) := by
      rw [Call.requireNode, hn]
    rw [beginDiscovery, Call.bind_error hnode]
    exact .inr ⟨rfl, rfl, rfl⟩
  | some n =>
    rw [beginDiscovery, Call.bind_ok (Call.requireNode_eq hn), Call.get_bind]
    cases hschema : (s.properties n.label).schema with
    | none =>
      refine .inr ⟨by simp [hschema], ?_⟩
      exact ((Call.keepsDiagram_lift _).bind fun _ => (Call.keepsDiagram_onRequests _).bind
        fun _ => Call.keepsDiagram_pure _) s
    | some schema =>
      refine .inl ⟨n, schema, rfl, hschema, ?_⟩
      dsimp only
      rcases hstore : storeRelations id schema.segments s with ⟨r, s'⟩
      cases r with
      | error e =>
        rw [Call.bind_error hstore]
        rfl
      | ok children =>
        rw [Call.bind_ok hstore]
        rfl

theorem yields_beginDiscovery (id : NodeId) (s : Session) :
    s.Yields (beginDiscovery id s).2 (s.discoveryGrows id) := by
  rcases beginDiscovery_cases id s with ⟨n, schema, hn, hschema, he⟩ | ⟨hnone, hsame⟩
  · rw [he, discoveryGrows, hn, Option.any_some, hschema, Option.any_some]
    exact yields_storeRelations hn schema.segments
  · have hgrows : s.discoveryGrows id = false := by
      rw [discoveryGrows]
      cases hn : s.diagram.node? id with
      | none => rfl
      | some n =>
        rw [hn, Option.any_some, Option.isSome_eq_false_iff, Option.isNone_iff_eq_none] at hnone
        rw [Option.any_some, hnone, Option.any_none]
    rw [hgrows]
    exact hsame.sameGrowth.yields

/-- The relations in an answer are stored once it is accepted and its node is there. -/
theorem applyDiscovery_cases (r : Fetched NodeId) (s : Session) :
    ∃ s₁ : Session, s₁.diagram = s.diagram ∧ s₁.compiler = s.compiler ∧
      (((s.requests.acceptDiscovery r).1 = true ∧ (∃ n, s.diagram.node? r.context = some n) ∧
        applyDiscovery r s = storeRelations r.context (discoveredSegments r.outcome) s₁) ∨
      (((s.requests.acceptDiscovery r).1 = false ∨ s.diagram.node? r.context = none) ∧
        applyDiscovery r s = (.ok [], s₁))) := by
  have haccept : Call.onRequests (Lifecycle.acceptDiscovery r) s =
      (.ok (s.requests.acceptDiscovery r).1,
        { s with requests := (s.requests.acceptDiscovery r).2 }) := Call.onRequests_eq rfl
  refine ⟨{ s with requests := (s.requests.acceptDiscovery r).2 }, rfl, rfl, ?_⟩
  rw [applyDiscovery, Call.bind_ok haccept, Call.get_bind]
  cases (s.requests.acceptDiscovery r).1 with
  | false => exact .inr ⟨.inl rfl, rfl⟩
  | true =>
    cases hn : s.diagram.node? r.context with
    | none => exact .inr ⟨.inr rfl, by simp; rfl⟩
    | some n => exact .inl ⟨rfl, ⟨n, rfl⟩, by simp⟩

theorem yields_applyDiscovery (r : Fetched NodeId) (s : Session) :
    s.Yields (applyDiscovery r s).2 (s.answerGrows r) := by
  obtain ⟨s₁, hd, hc, hcase⟩ := applyDiscovery_cases r s
  have hsame : s.Yields s₁ false := SameGrowth.yields (SameDiagram.sameGrowth ⟨hc, hd⟩)
  rw [answerGrows]
  rcases hcase with ⟨haccept, ⟨n, hn⟩, he⟩ | ⟨hnot, he⟩
  · have hgrows (segments : List Segment) :
        s.growsWith r.context segments = s₁.growsWith r.context segments := by
      simp only [growsWith, expandsItself, properties, hd, hc]
    rw [he, haccept, Bool.true_and, hgrows]
    rw [← hd] at hn
    exact hsame.trans (yields_storeRelations hn _)
  · rw [he]
    rcases hnot with haccept | hn
    · rwa [haccept]
    · rwa [growsWith_of_not_bare (by simp [isBareAt, hn]), Bool.and_false]

/-! ## Relations of nodes that are not negated -/

/-- No node of a list is a bare negation. -/
def NoneBare (s : Session) (ids : List NodeId) : Prop := ∀ x ∈ ids, s.diagram.isBareAt x = false

variable {s' : Session}

theorem NoneBare.keeps {ids : List NodeId} (h : s.NoneBare ids) (hs : s.diagram.Orderly)
    (hsame : s.SameGrowth s') : s'.NoneBare ids := fun x hx => by
  rw [(hsame.diagram hs).bare, h x hx]

theorem sameGrowth_storeRelations {n : Node} (hs : s.diagram.Orderly)
    (hn : s.diagram.node? id = some n) (hid : s.diagram.isBareAt id = false)
    (segments : List Segment) : s.SameGrowth (storeRelations id segments s).2 := by
  obtain ⟨children, s', hc, -, hsprouts, -⟩ := adds_storeRelations hs hn segments
  rw [hc]
  exact ⟨fun _ => hsprouts.orderly, fun _ => hsprouts.sameGrowth (.inl hid)⟩

theorem noneBare_storeRelations {n : Node} (hs : s.diagram.Orderly)
    (hn : s.diagram.node? id = some n) {segments : List Segment} {children : List NodeId}
    (h : (storeRelations id segments s).1 = .ok children) :
    (storeRelations id segments s).2.NoneBare children := by
  obtain ⟨added, s', hc, -, hsprouts, -⟩ := adds_storeRelations hs hn segments
  rw [hc] at h ⊢
  obtain rfl := Except.ok.inj h
  exact hsprouts.positive

theorem sameGrowth_beginDiscovery (hs : s.diagram.Orderly) (hid : s.diagram.isBareAt id = false) :
    s.SameGrowth (beginDiscovery id s).2 := by
  rcases beginDiscovery_cases id s with ⟨n, schema, hn, -, he⟩ | ⟨-, hsame⟩
  · rw [he]
    exact sameGrowth_storeRelations hs hn hid schema.segments
  · exact hsame.sameGrowth

theorem noneBare_beginDiscovery (hs : s.diagram.Orderly) {children : List NodeId}
    (h : beginDiscovery id s = (.ok (.loaded children), s')) : s'.NoneBare children := by
  obtain ⟨n, hn, ⟨schema, added, -, hd, hstore⟩ | ⟨batch, hd⟩⟩ := of_beginDiscovery_ok h
  · obtain rfl := Discovery.loaded.inj hd
    have hnone := noneBare_storeRelations hs hn (congrArg Prod.fst hstore)
    rwa [hstore] at hnone
  · cases hd

/-- What is asked for changes nothing yet. -/
theorem sameDiagram_of_pending {f : Fetch NodeId}
    (h : beginDiscovery id s = (.ok (.pending f), s')) : s.SameDiagram s' := by
  rcases beginDiscovery_cases id s with ⟨n, schema, -, -, he⟩ | ⟨-, hsame⟩
  · rw [he] at h
    obtain ⟨hloaded, -⟩ := Prod.mk.inj h
    cases hr : (storeRelations id schema.segments s).1 <;> simp [hr, Except.map] at hloaded
  · rwa [h] at hsame

theorem sameGrowth_applyDiscovery (hs : s.diagram.Orderly) {r : Fetched NodeId}
    (hid : s.diagram.isBareAt r.context = false) : s.SameGrowth (applyDiscovery r s).2 := by
  obtain ⟨s₁, hd, hc, hcase⟩ := applyDiscovery_cases r s
  have hsame : s.SameGrowth s₁ := SameDiagram.sameGrowth ⟨hc, hd⟩
  rcases hcase with ⟨-, ⟨n, hn⟩, he⟩ | ⟨-, he⟩
  · rw [he]
    rw [← hd] at hn hid
    exact hsame.trans (sameGrowth_storeRelations (hsame.orderly hs) hn hid _)
  · rwa [he]

theorem noneBare_applyDiscovery (hs : s.diagram.Orderly) {r : Fetched NodeId}
    {children : List NodeId} (h : applyDiscovery r s = (.ok children, s')) :
    s'.NoneBare children := by
  obtain ⟨s₁, hd, hc, hcase⟩ := applyDiscovery_cases r s
  have hsame : s.SameGrowth s₁ := SameDiagram.sameGrowth ⟨hc, hd⟩
  rcases hcase with ⟨-, ⟨n, hn⟩, he⟩ | ⟨-, he⟩
  · rw [← hd] at hn
    have hnone := noneBare_storeRelations (hsame.orderly hs) hn
      (congrArg Prod.fst (he.symm.trans h))
    rwa [← he, h] at hnone
  · obtain ⟨hchildren, rfl⟩ := Prod.mk.inj (he.symm.trans h)
    obtain rfl : [] = children := Except.ok.inj hchildren
    simp [NoneBare]

end Session

end PatternQuery
