import PatternQuery.Proofs.Diagram.Root
import PatternQuery.Proofs.Session.Evolution
import PatternQuery.Proofs.Statement.Statements
import PatternQuery.Session.Update

/-!
# Asking anew

In a valid session counts, candidates and results can always be asked for: every statement compiles.
An update supersedes the counts and results that were asked for before (`Valid.beginUpdate`), and
what it sent is what the diagram asks (`Session.CountsCurrent`, `Session.ResultsCurrent`).
-/

namespace PatternQuery

namespace Session

/-! ## What is asked is current -/

/-- The statements that were sent under a generation for the counts of some nodes are those of the
diagram now, as far as the nodes are there. -/
def CountsCurrent (s : Session) (g : Nat) (nodes : List NodeId) : Prop :=
  ∃ batch, s.requests.batch? g = some batch ∧ List.Forall₂ (fun id statement =>
    (s.diagram.node? id).isSome → s.compiler.countQuery s.diagram id = .ok statement) nodes batch

/-- The modes in which the rows of the result are asked for. -/
def resultModes (graph : Bool) : List Bool := if graph then [false, true] else [false]

/-- The statements that were sent under a generation for the rows of the result are those of the
diagram now. -/
def ResultsCurrent (s : Session) (g : Nat) (graph : Bool) : Prop :=
  ∃ batch, s.requests.batch? g = some batch ∧
    batch.map Except.ok = (resultModes graph).map (s.compiler.resultQuery s.diagram)

variable {s s' : Session} {g : Nat}

/-- Counts that are still waited for are still asked for. -/
theorem CountsCurrent.evolves {nodes : List NodeId} (hc : s.CountsCurrent g nodes) (hv : s.Valid)
    (h : s.Evolves s') (hp : s.compiler.provider.Local) (hg : g ≤ s.requests.generation)
    (hlive : s'.requests.slots.count = some g) (hnodes : ∀ id ∈ nodes, s.diagram.Knows id) :
    s'.CountsCurrent g nodes := by
  obtain ⟨batch, hb, hall⟩ := hc
  refine ⟨batch, h.requests.batch g batch hb, ?_⟩
  have hext := h.extends_of_live g hg (.inl hlive)
  clear hb
  induction hall with
  | nil => exact .nil
  | @cons id statement nodes batch hid _ ih =>
    refine .cons (fun hsome => ?_) (ih fun x hx => hnodes x (by simp [hx]))
    obtain ⟨n', hn'⟩ := Option.isSome_iff_exists.1 hsome
    have hquery := h.diagram.isQueryNode_of_knows (hnodes id (by simp)) (Diagram.mem_of_node? hn')
      (Diagram.id_of_node? hn')
    obtain ⟨n, hn, -⟩ := hv.diagram.isQueryNode_iff.1 hquery
    have hv' := h.valid.diagram.toShape
    rw [h.compiler, Compiler.countQuery_eq hp hext hv.diagram.toShape hv' hquery]
    exact hid (by rw [hn]; rfl)

theorem ResultsCurrent.evolves {graph : Bool} (hc : s.ResultsCurrent g graph) (hv : s.Valid)
    (h : s.Evolves s') (hp : s.compiler.provider.Local) (hg : g ≤ s.requests.generation)
    (hlive : s'.requests.slots.results = some g) : s'.ResultsCurrent g graph := by
  obtain ⟨batch, hb, hall⟩ := hc
  refine ⟨batch, h.requests.batch g batch hb, ?_⟩
  have hext := h.extends_of_live g hg (.inr hlive)
  have hlive' : s.requests.slots.results = some g := h.requests.live .results g hg hlive
  have hne : s.diagram.isEmpty = false := by
    cases hd : s.diagram.isEmpty with
    | false => rfl
    | true =>
      rw [(hv.quiet hd).2.2] at hlive'
      simp at hlive'
  rw [hall, h.compiler]
  refine List.map_congr_left fun mode _ => ?_
  exact (Compiler.resultQuery_eq hp hext hv.diagram.toShape h.valid.diagram.toShape hne mode).symm

/-- Counts stay current while the diagram stays the same. -/
theorem CountsCurrent.of_later {nodes : List NodeId} (hc : s.CountsCurrent g nodes)
    (hd : s'.diagram = s.diagram) (h : s.Evolves s') : s'.CountsCurrent g nodes := by
  obtain ⟨batch, hb, hall⟩ := hc
  refine ⟨batch, h.requests.batch g batch hb, ?_⟩
  rwa [hd, h.compiler]

/-! ## Issuing -/

/-- Nothing but a request may have been issued for a concern between two sessions. -/
structure Issues {κ : Type} (c : Concern) (s : Session) (fetch : Option (Fetch κ)) (s' : Session) :
    Prop where
  frame : s' = { s with requests := s'.requests }
  evolves : s.Evolves s'
  slots : s'.requests.slots =
    match fetch with
    | none => s.requests.slots
    | some f => s.requests.slots.set c (some f.generation)
  fetch : ∀ f, fetch = some f → f.concern = c ∧ s.requests.generation < f.generation ∧
    f.generation ≤ s'.requests.generation

theorem Issues.none {κ : Type} (h : s.Valid) (c : Concern) :
    Issues c s (none : Option (Fetch κ)) s :=
  ⟨rfl, .refl h, rfl, by simp⟩

theorem Issues.issue {κ : Type} (h : s.Valid) (hne : s.diagram.isEmpty = false) (c : Concern)
    (batch : Batch) (context : κ) : Issues c s (some (s.requests.issue c batch context).1)
      { s with requests := (s.requests.issue c batch context).2 } where
  frame := rfl
  evolves := h.evolves_requests (h.requests.later_issue c batch context) (by simp [hne])
  slots := by
    rw [Lifecycle.issue_fst]
    exact Lifecycle.issue_slots c batch context s.requests
  fetch f hf := by
    rw [← Option.some.inj hf, Lifecycle.issue_fst]
    refine ⟨rfl, Nat.lt_succ_self _, ?_⟩
    exact Nat.le_of_eq (Lifecycle.issue_generation c batch context s.requests).symm

/-- What was issued may be of no use any more, but was not live before. -/
theorem Issues.not_live {κ : Type} {c : Concern} {f : Fetch κ} (h : Issues c s (some f) s')
    (hg : g ≤ s.requests.generation) : s'.requests.slots.get c ≠ some g := by
  rw [h.slots]
  simp only [Slots.get_set, ↓reduceIte, ne_eq, Option.some.injEq]
  have := (h.fetch f rfl).2.1
  omega

theorem Issues.get_of_ne {κ : Type} {c c' : Concern} {f : Option (Fetch κ)} (h : Issues c s f s')
    (hc : c' ≠ c) : s'.requests.slots.get c' = s.requests.slots.get c' := by
  rw [h.slots]
  cases f with
  | none => rfl
  | some f => rw [Slots.get_set, if_neg hc]

theorem issueForNodes_of_nil (c : Concern) (statement : NodeId → Except GraphError Statement)
    (s : Session) : issueForNodes c [] statement s = (.ok none, s) :=
  rfl

theorem issueForNodes_of_cons {c : Concern} {nodes : List NodeId}
    {statement : NodeId → Except GraphError Statement} {batch : Batch} (hne : nodes ≠ [])
    (hb : nodes.mapM statement = .ok batch) (s : Session) :
    issueForNodes c nodes statement s = (.ok (some (s.requests.issue c batch nodes).1),
      { s with requests := (s.requests.issue c batch nodes).2 }) := by
  unfold issueForNodes
  rw [if_neg (by simpa using hne), hb]
  rfl

/-- Statements for nodes are sent together, in the order of the nodes. -/
theorem Valid.issueForNodes (h : s.Valid) (c : Concern) {nodes : List NodeId}
    (hnodes : ∀ id ∈ nodes, s.diagram.IsQueryNode id)
    (statement : NodeId → Except GraphError Statement)
    (hs : ∀ id ∈ nodes, ∃ q, statement id = .ok q) :
    ∃ f s', Session.issueForNodes c nodes statement s = (.ok f, s') ∧ Issues c s f s' ∧
      (f = none ↔ nodes = []) ∧ ∀ f', f = some f' → f'.context = nodes ∧ ∃ batch,
        s'.requests.batch? f'.generation = some batch ∧
        List.Forall₂ (fun id q => statement id = .ok q) nodes batch := by
  by_cases hnil : nodes = []
  · subst hnil
    exact ⟨none, s, issueForNodes_of_nil c statement s, .none h c, by simp, by simp⟩
  · obtain ⟨batch, hb, hall⟩ := exists_mapM hs
    have hne : s.diagram.isEmpty = false := by
      obtain ⟨id, rest, rfl⟩ := List.exists_cons_of_ne_nil hnil
      obtain ⟨n, hn, -⟩ := hnodes id (by simp)
      exact Diagram.isEmpty_eq_false_of_mem hn
    refine ⟨_, _, issueForNodes_of_cons hnil hb s, .issue h hne c batch nodes, by simp [hnil], ?_⟩
    intro f' hf'
    rw [← Option.some.inj hf', Lifecycle.issue_fst]
    exact ⟨rfl, batch, h.requests.batch?_issue c batch nodes, hall⟩

/-! ## Counts, candidates and results -/

theorem isQueryNode_of_countable {d : Diagram} {p : Node → Bool} {id : NodeId}
    (hid : id ∈ (d.nodes.filter p).map Node.id) (hp : ∀ n, p n = true → n.isCountable = true) :
    d.IsQueryNode id := by
  obtain ⟨n, hn, rfl⟩ := List.mem_map.1 hid
  obtain ⟨hn, hpn⟩ := List.mem_filter.1 hn
  refine ⟨n, hn, rfl, fun hk => ?_⟩
  have := hp n hpn
  simp [Node.isCountable, hk] at this

theorem isQueryNode_of_counted {d : Diagram} {id : NodeId} (hid : id ∈ countedNodes d) :
    d.IsQueryNode id :=
  isQueryNode_of_countable hid fun _ h => h

theorem isQueryNode_of_autoLoad {d : Diagram} {id : NodeId} (hid : id ∈ autoLoadNodes d) :
    d.IsQueryNode id := by
  refine isQueryNode_of_countable hid fun n hn => ?_
  rw [Bool.and_eq_true] at hn
  exact hn.1

/-- The root is counted, so there is something to count in every diagram with nodes. -/
theorem countedNodes_eq_nil_iff {d : Diagram} (h : d.Shape) :
    countedNodes d = [] ↔ d.isEmpty = true := by
  constructor
  · intro hnil
    cases hd : d.isEmpty with
    | true => rfl
    | false =>
      obtain ⟨r, n, hn, hid, hk⟩ := h.exists_hasRoot hd
      have hmem : n.id ∈ countedNodes d :=
        List.mem_map_of_mem (List.mem_filter.2 ⟨hn, h.isCountable_of_root hn hk⟩)
      rw [hnil] at hmem
      simp at hmem
  · intro hd
    rw [countedNodes, List.isEmpty_iff.1 hd]
    rfl

/-- Counts are asked for whenever there are nodes, and they are current. -/
theorem Valid.beginCounts (h : s.Valid) : ∃ f s', Session.beginCounts s = (.ok f, s') ∧
    Issues .count s f s' ∧ (f = none ↔ s.diagram.isEmpty = true) ∧
    ∀ f', f = some f' → (∀ id ∈ f'.context, s.diagram.IsQueryNode id) ∧
      s'.CountsCurrent f'.generation f'.context := by
  obtain ⟨f, s', hf, hi, hnone, hcontext⟩ := h.issueForNodes .count
    (fun _ => isQueryNode_of_counted) (s.compiler.countQuery s.diagram) fun _ hid =>
      have ⟨_, hn, _⟩ := h.diagram.toShape.isQueryNode_iff.1 (isQueryNode_of_counted hid)
      s.compiler.exists_countQuery h.diagram.toShape hn
  refine ⟨f, s', hf, hi, hnone.trans (countedNodes_eq_nil_iff h.diagram.toShape), ?_⟩
  intro f' hf'
  obtain ⟨hc, batch, hb, hall⟩ := hcontext f' hf'
  rw [hc]
  refine ⟨fun _ => isQueryNode_of_counted, batch, hb, ?_⟩
  have hd : s'.diagram = s.diagram := by rw [hi.frame]
  rw [hd, hi.evolves.compiler]
  refine hall.imp fun id q hq => ?_
  exact fun _ => hq

theorem Valid.beginAutoLoad (h : s.Valid) : ∃ f s', Session.beginAutoLoad s = (.ok f, s') ∧
    Issues .autoLoad s f s' ∧ (f = none ↔ autoLoadNodes s.diagram = []) ∧
    ∀ f', f = some f' → ∀ id ∈ f'.context, s.diagram.IsQueryNode id := by
  obtain ⟨f, s', hf, hi, hnone, hcontext⟩ := h.issueForNodes .autoLoad
    (fun _ => isQueryNode_of_autoLoad) (s.compiler.valueQuery s.diagram) fun _ hid =>
      have ⟨_, hn, _⟩ := h.diagram.toShape.isQueryNode_iff.1 (isQueryNode_of_autoLoad hid)
      s.compiler.exists_valueQuery h.diagram.toShape hn
  refine ⟨f, s', hf, hi, hnone, fun f' hf' => ?_⟩
  rw [(hcontext f' hf').1]
  exact fun _ => isQueryNode_of_autoLoad

theorem exists_resultStatements (h : s.Valid) (hne : s.diagram.isEmpty = false) :
    ∃ batch, resultStatements s = .ok batch ∧
      batch.map Except.ok = (resultModes s.listening).map (s.compiler.resultQuery s.diagram) := by
  obtain ⟨flat, hflat⟩ := s.compiler.exists_resultQuery h.diagram.toShape hne false
  obtain ⟨graph, hgraph⟩ := s.compiler.exists_resultQuery h.diagram.toShape hne true
  unfold resultStatements
  rw [hflat, hgraph]
  cases s.listening with
  | true => exact ⟨[flat, graph], rfl, by simp [resultModes, hflat, hgraph]⟩
  | false => exact ⟨[flat], rfl, by simp [resultModes, hflat]⟩

/-- Results are asked for whenever there are nodes, and they are current. -/
theorem Valid.beginResults (h : s.Valid) : ∃ f s', Session.beginResults s = (.ok f, s') ∧
    Issues .results s f s' ∧ (f = none ↔ s.diagram.isEmpty = true) ∧
    ∀ f', f = some f' → s'.ResultsCurrent f'.generation f'.context := by
  cases hd : s.diagram.isEmpty with
  | true =>
    refine ⟨none, s, ?_, .none h .results, by simp, by simp⟩
    show (if s.diagram.isEmpty = true then _ else _ : Call _) s = _
    rw [if_pos hd]
    rfl
  | false =>
    obtain ⟨batch, hb, hmodes⟩ := exists_resultStatements h hd
    refine ⟨_, _, ?_, .issue h hd .results batch s.listening, by simp, ?_⟩
    · show (if s.diagram.isEmpty = true then _ else _ : Call _) s = _
      rw [if_neg (by simp [hd]), hb]
      rfl
    · intro f' hf'
      rw [← Option.some.inj hf', Lifecycle.issue_fst]
      exact ⟨batch, h.requests.batch?_issue .results batch s.listening, hmodes⟩

/-! ## Updates -/

/-- What an update leads to, a change before it included. With no nodes the update is empty. -/
structure Updates (s : Session) (u : Update) (s' : Session) : Prop where
  evolves : s.Evolves s'
  counts : ∀ f, u.counts = some f → f.concern = .count ∧ f.generation ≤ s'.requests.generation ∧
    (∀ id ∈ f.context, s'.diagram.Knows id) ∧ s'.CountsCurrent f.generation f.context
  autoLoad : ∀ f, u.autoLoad = some f → f.concern = .autoLoad ∧
    f.generation ≤ s'.requests.generation ∧ ∀ id ∈ f.context, s'.diagram.Knows id
  results : ∀ f, u.results = some f → f.concern = .results ∧
    f.generation ≤ s'.requests.generation ∧ s'.ResultsCurrent f.generation f.context
  /-- Counts and results that were waited for are superseded. -/
  superseded : ∀ c, c = .count ∨ c = .results → ∀ g ≤ s.requests.generation,
    s'.requests.slots.get c ≠ some g
  /-- Candidates are superseded if there are any to be asked for, or no nodes any more. -/
  autoLoad_superseded : u.autoLoad ≠ none ∨ s'.diagram.isEmpty = true →
    ∀ g ≤ s.requests.generation, s'.requests.slots.autoLoad ≠ some g
  autoLoad_kept : u.autoLoad = none → s'.diagram.isEmpty = false →
    s'.requests.slots.autoLoad = s.requests.slots.autoLoad
  autoLoad_eq_none_iff : u.autoLoad = none ↔ autoLoadNodes s'.diagram = []

theorem Valid.beginUpdate (h : s.Valid) :
    ∃ u s', Session.beginUpdate s = (.ok u, s') ∧ s.Updates u s' ∧ s'.diagram = s.diagram := by
  obtain ⟨f₁, s₁, hf₁, hi₁, hnone₁, hc₁⟩ := h.beginCounts
  have hd₁ : s₁.diagram = s.diagram := by rw [hi₁.frame]
  obtain ⟨f₂, s₂, hf₂, hi₂, hnone₂, hc₂⟩ := hi₁.evolves.valid.beginAutoLoad
  have hd₂ : s₂.diagram = s.diagram := by rw [hi₂.frame, hd₁]
  obtain ⟨f₃, s₃, hf₃, hi₃, hnone₃, hc₃⟩ := hi₂.evolves.valid.beginResults
  have hd₃ : s₃.diagram = s.diagram := by rw [hi₃.frame, hd₂]
  have hknows {id : NodeId} (hid : s.diagram.IsQueryNode id) : s₃.diagram.Knows id := by
    rw [hd₃]
    exact hid.knows h.diagram.toNumbered
  have hgen₁ := hi₁.evolves.requests.generation
  have hgen₂ := hi₂.evolves.requests.generation
  have hgen₃ := hi₃.evolves.requests.generation
  refine ⟨⟨f₁, f₂, f₃⟩, s₃, ?_, ?_, hd₃⟩
  · unfold Session.beginUpdate
    rw [Call.bind_ok hf₁, Call.bind_ok hf₂, Call.bind_ok hf₃]
    rfl
  refine ⟨(hi₁.evolves.trans hi₂.evolves).trans hi₃.evolves, ?_, ?_, ?_, ?_, ?_, ?_, ?_⟩
  · intro f hf
    obtain ⟨hc, -, hg⟩ := hi₁.fetch f hf
    obtain ⟨hquery, hcurrent⟩ := hc₁ f hf
    refine ⟨hc, by omega, fun id hid => hknows (hquery id hid), ?_⟩
    exact hcurrent.of_later (hd₃.trans hd₁.symm) (hi₂.evolves.trans hi₃.evolves)
  · intro f hf
    obtain ⟨hc, -, hg⟩ := hi₂.fetch f hf
    refine ⟨hc, Nat.le_trans hg hgen₃, fun id hid => hknows ?_⟩
    have hquery := hc₂ f hf id hid
    rwa [hd₁] at hquery
  · intro f hf
    obtain ⟨hc, -, hg⟩ := hi₃.fetch f hf
    exact ⟨hc, hg, hc₃ f hf⟩
  · rintro c (rfl | rfl) g hg
    · rw [hi₃.get_of_ne (by decide), hi₂.get_of_ne (by decide)]
      cases f₁ with
      | some f => exact hi₁.not_live hg
      | none =>
        rw [hi₁.slots]
        show s.requests.slots.count ≠ some g
        rw [(h.quiet (hnone₁.1 rfl)).1]
        simp
    · cases f₃ with
      | some f => exact hi₃.not_live (Nat.le_trans hg (Nat.le_trans hgen₁ hgen₂))
      | none =>
        rw [hi₃.slots]
        show s₂.requests.slots.results ≠ some g
        rw [(hi₂.evolves.valid.quiet (hnone₃.1 rfl)).2.2]
        simp
  · rintro (hne | hd) g hg
    · obtain ⟨f, rfl⟩ := Option.ne_none_iff_exists'.1 hne
      show s₃.requests.slots.get .autoLoad ≠ some g
      rw [hi₃.get_of_ne (by decide)]
      exact hi₂.not_live (Nat.le_trans hg hgen₁)
    · rw [(hi₃.evolves.valid.quiet hd).2.1]
      simp
  · rintro rfl -
    show s₃.requests.slots.get .autoLoad = s.requests.slots.get .autoLoad
    rw [hi₃.get_of_ne (by decide), hi₂.slots, hi₁.get_of_ne (by decide)]
  · show f₂ = none ↔ _
    rw [hnone₂, hd₁, hd₃]

/-- The diagram may have been changed at will before the update. -/
theorem Updates.after_change {s₁ : Session} {u : Update} (h : s₁.Updates u s')
    (hc : s₁.compiler = s.compiler) (hd : s.diagram.Continues s₁.diagram)
    (hr : s₁.requests = s.requests) : s.Updates u s' where
  evolves := by
    refine ⟨h.evolves.valid, h.evolves.compiler.trans hc, hd.trans h.evolves.diagram, ?_, ?_⟩
    · rw [← hr]
      exact h.evolves.requests
    · intro g hg hlive
      rw [← hr] at hg
      rcases hlive with hlive | hlive
      · exact absurd hlive (h.superseded .count (.inl rfl) g hg)
      · exact absurd hlive (h.superseded .results (.inr rfl) g hg)
  counts := h.counts
  autoLoad := h.autoLoad
  results := h.results
  superseded c hc' g hg := h.superseded c hc' g (by rwa [hr])
  autoLoad_superseded hnone g hg := h.autoLoad_superseded hnone g (by rwa [hr])
  autoLoad_kept hnone hne := by rw [h.autoLoad_kept hnone hne, hr]
  autoLoad_eq_none_iff := h.autoLoad_eq_none_iff

/-- The session may have evolved before the update, as long as the same requests stayed live. -/
theorem Updates.after_evolution {s₁ : Session} {u : Update} (h : s₁.Updates u s')
    (he : s.Evolves s₁) (hs : s₁.requests.slots = s.requests.slots) : s.Updates u s' where
  evolves := he.trans h.evolves
  counts := h.counts
  autoLoad := h.autoLoad
  results := h.results
  superseded c hc g hg := h.superseded c hc g (Nat.le_trans hg he.requests.generation)
  autoLoad_superseded hnone g hg :=
    h.autoLoad_superseded hnone g (Nat.le_trans hg he.requests.generation)
  autoLoad_kept hnone hne := by rw [h.autoLoad_kept hnone hne, hs]
  autoLoad_eq_none_iff := h.autoLoad_eq_none_iff

end Session

end PatternQuery
