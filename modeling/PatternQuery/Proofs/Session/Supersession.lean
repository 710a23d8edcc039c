import PatternQuery.Proofs.Session.Runs

/-!
# Updates that are superseded

A later update takes the place of an earlier one: neither counts nor results of the earlier one are
merged any more. Its candidates are still merged if they were waited for and the later update finds
nodes, but none that loads candidates on its own (`World.superseded_update`).
-/

namespace PatternQuery

/-- The update that a move issues. A change that changes nothing issues none. -/
def Move.issued (m : Move) (s : Session) : Option Update :=
  match m with
  | beginUpdate => (Session.beginUpdate s).1.toOption
  | beginExpand id index => (Session.beginExpand id index s).1.toOption.map fun a => a.2.2
  | beginSelectValue id => (Session.beginSelectValue id s).1.toOption.map fun a => a.2
  | beginRemoveValue id value => (Session.beginRemoveValue id value s).1.toOption.bind fun a =>
    if a.1 then some a.2 else none
  | beginNegate id => (Session.beginNegate id s).1.toOption.bind fun a =>
    if a.1 then some a.2 else none
  | beginRemoveNode id => (Session.beginRemoveNode id s).1.toOption.map fun a => a.2
  | _ => none

/-- Answers to parts of an update, whatever came of them. -/
structure UpdateFetched.Answers (r : UpdateFetched) (u : Update) : Prop where
  counts : ∀ a, r.counts = some a → ∃ f, u.counts = some f ∧ a.Answers f
  autoLoad : ∀ a, r.autoLoad = some a → ∃ f, u.autoLoad = some f ∧ a.Answers f
  results : ∀ a, r.results = some a → ∃ f, u.results = some f ∧ a.Answers f

namespace Session

variable {s : Session} {id : NodeId}

theorem updates_of_ok {α : Type} {c : Call α} {a : α} {hand : α → Handed} {s' : Session}
    {u u' : Update} (hc : c s = (.ok a, s')) (hu : some u' = some u) (h : s.Updates u' s') :
    s.Updates u (Move.handing c hand s).2 := by
  rw [handing_ok hc]
  rwa [← Option.some.inj hu]

theorem Valid.updates_of_issued (h : s.Valid) {m : Move} {u : Update} (hu : m.issued s = some u) :
    s.Updates u (m.perform s).2 := by
  cases m with
  | beginUpdate =>
    obtain ⟨u', s', he, hupdates, -⟩ := h.beginUpdate
    rw [Move.issued, he] at hu
    exact updates_of_ok he hu hupdates
  | beginExpand id index =>
    rcases h.beginExpand id index with ⟨e, -, he⟩ | ⟨child, d, u', s', -, he, hupdates⟩
    all_goals rw [Move.issued, he] at hu
    · cases hu
    · exact updates_of_ok he hu hupdates
  | beginSelectValue id =>
    rcases h.beginSelectValue id with ⟨e, -, he⟩ | ⟨p, u', s', -, he, hupdates⟩
    all_goals rw [Move.issued, he] at hu
    · cases hu
    · exact updates_of_ok he hu hupdates
  | beginRemoveValue id value =>
    rcases h.beginRemoveValue id value with ⟨e, -, he⟩ | ⟨-, he⟩ | ⟨u', s', -, he, hupdates⟩
    all_goals rw [Move.issued, he] at hu
    · cases hu
    · cases hu
    · exact updates_of_ok he hu hupdates
  | beginNegate id =>
    rcases h.beginNegate id with ⟨e, -, he⟩ | ⟨-, he⟩ | ⟨u', s', -, he, hupdates⟩
    all_goals rw [Move.issued, he] at hu
    · cases hu
    · cases hu
    · exact updates_of_ok he hu hupdates
  | beginRemoveNode id =>
    rcases h.beginRemoveNode id with ⟨e, -, he⟩ | ⟨held, u', s', -, he, hupdates⟩
    all_goals rw [Move.issued, he] at hu
    · cases hu
    · exact updates_of_ok he hu hupdates
  | _ => cases hu

/-! ## Merging candidates -/

/-- Candidates that are waited for are merged, unless the request was cancelled. -/
theorem applyAutoLoad_of_live {r : Fetched (List NodeId)}
    (h : s.requests.slots.get r.concern = some r.generation) (ho : r.outcome ≠ .aborted) :
    (applyAutoLoad r s).1 = .ok true := by
  have haccept := Call.onRequests_eq (f := Lifecycle.accept r) (Lifecycle.accept_of_live h ho)
  obtain ⟨_, s', hs'⟩ := succeeds_storeAllLoaded { s with requests := (s.requests.accept r).2 }
    r.context (answeredRows r.outcome)
  unfold applyAutoLoad
  rw [Call.bind_ok haccept, if_pos rfl, Call.bind_ok hs']
  rfl

end Session

namespace World

open Session

variable {w w' : World} {u u₁ u₂ : Update} {m : Move}

/-! ## What becomes of an earlier update -/

/-- The candidates of an update are superseded by a move that issues another one: it finds
candidates to ask for, or no nodes, or those of the earlier update were not waited for any more. -/
def SupersedesCandidates (w : World) (m : Move) (u : Update) : Prop :=
  autoLoadNodes (w.act m).session.diagram ≠ [] ∨ (w.act m).session.diagram.isEmpty = true ∨
    ∀ f, u.autoLoad = some f → w.session.requests.slots.autoLoad ≠ some f.generation

/-- What is not live after a move, is not live later either. -/
theorem not_live_of_leads (hw : w.Sound) (hm : m.Admissible w) (h : (w.act m).Leads w')
    {c : Concern} {g : Nat} (hg : g ≤ w.session.requests.generation)
    (hstale : (w.act m).session.requests.slots.get c ≠ some g) :
    w'.session.requests.slots.get c ≠ some g := by
  have he := (hw.leadsTo m hm).evolves
  have he' := (h.sound (hw.act m hm)).2
  exact fun hlive => hstale (he'.requests.live c g (Nat.le_trans hg he.requests.generation) hlive)

theorem counts_superseded (hw : w.Sound) (hu₁ : u₁ ∈ w.handed.updates) (hm : m.Admissible w)
    (hu₂ : m.issued w.session = some u₂) (h : (w.act m).Leads w') {r : UpdateFetched}
    (hr : r.Answers u₁) :
    Session.applyIfAny applyCounts r.counts w'.session = (.ok false, w'.session) := by
  cases ha : r.counts with
  | none => rfl
  | some a =>
    obtain ⟨f, hf, haf⟩ := hr.counts a ha
    obtain ⟨hc, hmem⟩ := hw.backs.counts u₁ hu₁ f hf
    have hg := (hw.backs.lists f hmem).generation
    have hupdates := hw.valid.updates_of_issued hu₂
    refine ifAccepted_of_not_live _ ?_
    rw [haf.concern, haf.generation, hc]
    exact not_live_of_leads hw hm h hg (hupdates.superseded .count (.inl rfl) _ hg)

theorem results_superseded (hw : w.Sound) (hu₁ : u₁ ∈ w.handed.updates) (hm : m.Admissible w)
    (hu₂ : m.issued w.session = some u₂) (h : (w.act m).Leads w') {r : UpdateFetched}
    (hr : r.Answers u₁) :
    Session.applyIfAny applyResults r.results w'.session = (.ok false, w'.session) := by
  cases ha : r.results with
  | none => rfl
  | some a =>
    obtain ⟨f, hf, haf⟩ := hr.results a ha
    have hb := hw.backs.flags f (hw.backs.results u₁ hu₁ f hf)
    have hupdates := hw.valid.updates_of_issued hu₂
    refine ifAccepted_of_not_live _ ?_
    rw [haf.concern, haf.generation, hb.concern]
    exact not_live_of_leads hw hm h hb.generation
      (hupdates.superseded .results (.inr rfl) _ hb.generation)

theorem autoLoad_superseded (hw : w.Sound) (hu₁ : u₁ ∈ w.handed.updates) (hm : m.Admissible w)
    (hu₂ : m.issued w.session = some u₂) (hs : w.SupersedesCandidates m u₁)
    (h : (w.act m).Leads w') {r : UpdateFetched} (hr : r.Answers u₁) :
    Session.applyIfAny applyAutoLoad r.autoLoad w'.session = (.ok false, w'.session) := by
  cases ha : r.autoLoad with
  | none => rfl
  | some a =>
    obtain ⟨f, hf, haf⟩ := hr.autoLoad a ha
    obtain ⟨hc, hmem⟩ := hw.backs.autoLoad u₁ hu₁ f hf
    have hg := (hw.backs.lists f hmem).generation
    have hupdates := hw.valid.updates_of_issued hu₂
    refine ifAccepted_of_not_live _ ?_
    rw [haf.concern, haf.generation, hc]
    refine not_live_of_leads hw hm h hg ?_
    rcases hs with hs | hs | hs
    · have hne := mt hupdates.autoLoad_eq_none_iff.1 hs
      exact hupdates.autoLoad_superseded (.inl hne) _ hg
    · exact hupdates.autoLoad_superseded (.inr hs) _ hg
    · exact fun hlive => hs f hf (hupdates.evolves.requests.live .autoLoad _ hg hlive)

/-- Otherwise the next thing that may happen is that they are merged. -/
theorem autoLoad_merged (hw : w.Sound) (hu₁ : u₁ ∈ w.handed.updates)
    (hu₂ : m.issued w.session = some u₂) (hs : ¬ w.SupersedesCandidates m u₁)
    {f : Fetch (List NodeId)} (hf : u₁.autoLoad = some f) {a : Fetched (List NodeId)}
    (ha : a.Answers f) (ho : a.outcome ≠ .aborted) :
    (applyAutoLoad a (w.act m).session).1 = .ok true := by
  have hupdates := hw.valid.updates_of_issued hu₂
  simp only [SupersedesCandidates, not_or, not_forall, not_not, Bool.not_eq_true] at hs
  obtain ⟨hnil, hne, f', hf', hlive⟩ := hs
  obtain rfl : f = f' := Option.some.inj (hf.symm.trans hf')
  refine applyAutoLoad_of_live ?_ ho
  rw [ha.concern, (hw.backs.autoLoad u₁ hu₁ f hf).1, ha.generation, ← hlive]
  exact hupdates.autoLoad_kept (hupdates.autoLoad_eq_none_iff.2 hnil) hne

/-- Once another update was issued, no counts and no results of an earlier update are ever merged.
Its candidates are not either, if they are superseded; if not, they are merged when they come
next. -/
theorem superseded_update (hw : w.Reachable) (hu₁ : u₁ ∈ w.handed.updates) (hm : m.Admissible w)
    (hu₂ : m.issued w.session = some u₂) :
    (∀ w', (w.act m).Leads w' → ∀ r : UpdateFetched, r.Answers u₁ →
      Session.applyIfAny applyCounts r.counts w'.session = (.ok false, w'.session) ∧
      Session.applyIfAny applyResults r.results w'.session = (.ok false, w'.session) ∧
      (w.SupersedesCandidates m u₁ →
        Session.applyIfAny applyAutoLoad r.autoLoad w'.session = (.ok false, w'.session) ∧
        Session.applyUpdate r w'.session = (.ok false, w'.session))) ∧
    (¬ w.SupersedesCandidates m u₁ → ∀ f, u₁.autoLoad = some f → ∀ a : Fetched (List NodeId),
      a.Answers f → a.outcome ≠ .aborted →
        (applyAutoLoad a (w.act m).session).1 = .ok true) := by
  refine ⟨fun w' h r hr => ?_, fun hs f hf a ha ho => autoLoad_merged hw.sound hu₁ hu₂ hs hf ha ho⟩
  have hcounts := counts_superseded hw.sound hu₁ hm hu₂ h hr
  have hresults := results_superseded hw.sound hu₁ hm hu₂ h hr
  refine ⟨hcounts, hresults, fun hs => ?_⟩
  have hautoLoad := autoLoad_superseded hw.sound hu₁ hm hu₂ hs h hr
  refine ⟨hautoLoad, ?_⟩
  unfold Session.applyUpdate
  rw [Call.bind_ok hcounts, Call.bind_ok hautoLoad, Call.bind_ok hresults]
  rfl

/-! ### Candidates that outlive their update -/

/-- Someone in a city, where candidates for cities are loaded on their own, and an update of
that. -/
def inhabitant : World :=
  ((World.new { Provider.plain with properties := fun label => { autoLoad := label == "City" } }
    {}).act (.placeSchema (.node "Person" []
      [{ label := "LIVES_IN", target := .node "City" [] [] false }] false) none)).act .beginUpdate

theorem inhabitant_reachable : inhabitant.Reachable := by
  refine Reachable.act ?_ .beginUpdate trivial
  exact Reachable.act ⟨_, {}, .refl⟩ (.placeSchema _ none) trivial

/-- The update of the city and its inhabitant. -/
def inhabitantUpdate : Update where
  counts := some ⟨.count, 1, [⟨0⟩, ⟨1⟩], false⟩
  autoLoad := some ⟨.autoLoad, 2, [⟨1⟩], false⟩
  results := some ⟨.results, 3, false, false⟩

/-- When the city is negated, its candidates are not asked for any more, but those that are under
way are merged. Counts are superseded. -/
theorem superseded_update_of_negated_city :
    let w := inhabitant
    let m := Move.beginNegate ⟨1⟩
    inhabitantUpdate ∈ w.handed.updates ∧ (m.issued w.session).isSome ∧
      (∀ w', (w.act m).Leads w' → applyCounts ⟨.count, 1, [⟨0⟩, ⟨1⟩], .completed []⟩ w'.session =
        (.ok false, w'.session)) ∧
      (applyAutoLoad ⟨.autoLoad, 2, [⟨1⟩], .completed []⟩ (w.act m).session).1 = .ok true := by
  intro w m
  have hu : inhabitantUpdate ∈ w.handed.updates := by decide +kernel
  have hsome : (m.issued w.session).isSome := by decide +kernel
  obtain ⟨u₂, hu₂⟩ := Option.isSome_iff_exists.1 hsome
  obtain ⟨hnever, hmerged⟩ := superseded_update inhabitant_reachable hu (m := m) trivial hu₂
  refine ⟨hu, hsome, fun w' h => ?_, ?_⟩
  · refine (hnever w' h { counts := some ⟨.count, 1, [⟨0⟩, ⟨1⟩], .completed []⟩ } ⟨?_, ?_, ?_⟩).1
    · intro a ha
      rw [← Option.some.inj ha]
      exact ⟨_, rfl, rfl, rfl, rfl⟩
    · simp
    · simp
  · have hnil : autoLoadNodes (w.act m).session.diagram = [] := by decide +kernel
    have hne : (w.act m).session.diagram.isEmpty = false := by decide +kernel
    have hlive : w.session.requests.slots.autoLoad = some 2 := by decide +kernel
    refine hmerged ?_ ⟨.autoLoad, 2, [⟨1⟩], false⟩ rfl _ ⟨rfl, rfl, rfl⟩ (by simp)
    rintro (hs | hs | hs)
    · exact hs hnil
    · rw [hne] at hs
      simp at hs
    · exact hs _ rfl hlive

/-- So an update does not supersede all of an earlier one. -/
theorem superseded_update_merged : ¬ ∀ (w : World) (u₁ u₂ : Update) (m : Move)
    (f : Fetch (List NodeId)) (a : Fetched (List NodeId)), w.Reachable → u₁ ∈ w.handed.updates →
      m.Admissible w → m.issued w.session = some u₂ → u₁.autoLoad = some f → a.Answers f →
        (applyAutoLoad a (w.act m).session).2.diagram = (w.act m).session.diagram := by
  intro h
  obtain ⟨u₂, hu₂⟩ : ∃ u₂, (Move.beginNegate ⟨1⟩).issued inhabitant.session = some u₂ := by
    rw [← Option.isSome_iff_exists]
    decide +kernel
  have hsame := h inhabitant inhabitantUpdate u₂ (.beginNegate ⟨1⟩) ⟨.autoLoad, 2, [⟨1⟩], false⟩
    ⟨.autoLoad, 2, [⟨1⟩], .completed []⟩ inhabitant_reachable (by decide +kernel) trivial hu₂ rfl
    ⟨rfl, rfl, rfl⟩
  have hdata := congrArg (fun d : Diagram => d.nodes.map Node.data) hsame
  revert hdata
  decide +kernel

end World

end PatternQuery
