import Mathlib
import PatternQuery.CommandLine.Run
import PatternQuery.Proofs.Session.Runs
import PatternQuery.Proofs.Statement.Refusals

/-!
# Calls that come to their end

An update is never refused. So a change of the query is refused where its operation on the diagram
is, before anything has changed, and a call that waits for answers is not refused half way
(`Session.Valid.complete`).
-/

namespace PatternQuery

variable {α β κ : Type} {s : Session} {f : Diagram → Except GraphError β × Diagram}

/-- A call is refused where an operation on the diagram is, for the same reason and before anything
has changed. -/
def Call.RefusedLike (c : Call α) (f : Diagram → Except GraphError β × Diagram) (s : Session) :
    Prop :=
  ∀ e s', c s = (.error e, s') ↔ (f s.diagram).1 = .error e ∧ s' = s

/-- The same of a call that waits. It may be given up all the same. -/
def Run.RefusedLike (r : Run α) (f : Diagram → Except GraphError β × Diagram) (s : Session) :
    Prop :=
  ∀ e s', r s = (.error (.refused e), s') ↔ (f s.diagram).1 = .error e ∧ s' = s

/-- A call that waits may be given up, but is not refused. -/
def Run.Unrefused (r : Run α) (s : Session) : Prop := ∀ e s', r s ≠ (.error (.refused e), s')

/-! ## Refusals -/

namespace Call

theorem refusedLike_of_error {c : Call α} {e : GraphError} (hf : (f s.diagram).1 = .error e)
    (hc : c s = (.error e, s)) : c.RefusedLike f s := by
  intro e' s'
  simp [hf, hc, eq_comm]

theorem refusedLike_of_ok {c : Call α} {b : β} (hf : (f s.diagram).1 = .ok b)
    (hc : c.Succeeds s) : c.RefusedLike f s := by
  obtain ⟨a, s₁, ha⟩ := hc
  intro e s'
  simp [hf, ha]

end Call

namespace Run

theorem unrefused_pure (a : α) (s : Session) : Unrefused (Pure.pure a) s := by
  rintro e s' ⟨⟩

theorem unrefused_ofCall {c : Call α} (h : c.Succeeds s) : (ofCall c).Unrefused s := by
  obtain ⟨a, s₁, ha⟩ := h
  intro e s'
  rw [ofCall_ok ha]
  simp

theorem Unrefused.get_bind {g : Session → Run α} (h : (g s).Unrefused s) :
    Unrefused (ofCall Call.get >>= g) s :=
  h

theorem Unrefused.bind {r : Run α} {g : α → Run β} (h : r.Unrefused s)
    (hg : ∀ a s', r s = (.ok a, s') → (g a).Unrefused s') : Unrefused (r >>= g) s := by
  intro e s'
  rcases hr : r s with ⟨res, s₁⟩
  cases res with
  | error halt =>
    have hrefused := h e s'
    rw [hr] at hrefused
    simpa [bind_error hr] using hrefused
  | ok a =>
    rw [bind_ok hr]
    exact hg a s₁ hr e s'

theorem unrefused_await (e : Endpoint) (f : Fetch κ) (s : Session) : (await e f).Unrefused s := by
  intro g s'
  unfold await
  split <;> simp

theorem unrefused_awaitIfAny (e : Endpoint) (o : Option (Fetch κ)) (s : Session) :
    (awaitIfAny e o).Unrefused s := by
  cases o with
  | none => exact unrefused_pure none s
  | some f => exact (unrefused_await e f s).bind fun r s' _ => unrefused_pure (some r) s'

theorem RefusedLike.bind {γ : Type} {r : Run α} {g : α → Run γ} (h : r.RefusedLike f s)
    (hg : ∀ a s', r s = (.ok a, s') → (g a).Unrefused s') : RefusedLike (r >>= g) f s := by
  intro e s'
  rw [← h e s']
  rcases hr : r s with ⟨res, s₁⟩
  cases res with
  | error halt => simp [bind_error hr]
  | ok a =>
    rw [bind_ok hr]
    exact iff_of_false (hg a s₁ hr e s') (by simp)

theorem refusedLike_ofCall {c : Call α} (h : c.RefusedLike f s) : (ofCall c).RefusedLike f s := by
  intro e s'
  rw [← h e s']
  rcases hc : c s with ⟨res, s₁⟩
  cases res with
  | error e' => simp [ofCall_error hc]
  | ok a => simp [ofCall_ok hc]

end Run

namespace Session

variable {ids : List NodeId} {id : NodeId}

/-! ## Updates -/

theorem unrefused_finishUpdate (e : Endpoint) (u : Update) (s : Session) :
    (finishUpdate e u).Unrefused s := by
  unfold finishUpdate
  split
  · exact Run.unrefused_pure false s
  · refine (Run.unrefused_awaitIfAny e u.counts s).bind fun counts s₁ _ => ?_
    refine (Run.unrefused_awaitIfAny e u.autoLoad s₁).bind fun autoLoad s₂ _ => ?_
    refine (Run.unrefused_awaitIfAny e u.results s₂).bind fun results s₃ _ => ?_
    exact Run.unrefused_ofCall (succeeds_applyUpdate _ s₃)

theorem Valid.succeeds_beginUpdate (h : s.Valid) : Call.Succeeds Session.beginUpdate s := by
  obtain ⟨u, s', hu, -⟩ := h.beginUpdate
  exact ⟨u, s', hu⟩

theorem Valid.unrefused_update (h : s.Valid) (e : Endpoint) : (update e).Unrefused s := by
  refine (Run.unrefused_ofCall h.succeeds_beginUpdate).bind fun u s₁ _ => ?_
  exact (unrefused_finishUpdate e u s₁).bind fun _ s₂ _ => Run.unrefused_pure () s₂

/-! ## Changes -/

theorem Valid.refusedLike_beginExpand (h : s.Valid) (id : NodeId) (index : Nat) :
    (Session.beginExpand id index).RefusedLike
      (Diagram.expandRelationship s.compiler.provider id index) s := by
  rcases h.beginExpand id index with ⟨e, hf, he⟩ | ⟨child, d, u, s', hf, hu, -⟩
  · exact Call.refusedLike_of_error hf he
  · exact Call.refusedLike_of_ok hf ⟨_, s', hu⟩

theorem Valid.refusedLike_beginSelectValue (h : s.Valid) (id : NodeId) :
    (Session.beginSelectValue id).RefusedLike (Diagram.selectValue id) s := by
  rcases h.beginSelectValue id with ⟨e, hf, he⟩ | ⟨p, u, s', hf, hu, -⟩
  · exact Call.refusedLike_of_error hf he
  · exact Call.refusedLike_of_ok hf ⟨_, s', hu⟩

theorem Valid.refusedLike_beginRemoveValue (h : s.Valid) (id value : NodeId) :
    (Session.beginRemoveValue id value).RefusedLike (Diagram.removeValue id value) s := by
  rcases h.beginRemoveValue id value with ⟨e, hf, he⟩ | ⟨hf, hu⟩ | ⟨u, s', hf, hu, -⟩
  · exact Call.refusedLike_of_error hf he
  · exact Call.refusedLike_of_ok hf ⟨_, s, hu⟩
  · exact Call.refusedLike_of_ok hf ⟨_, s', hu⟩

theorem Valid.refusedLike_beginNegate (h : s.Valid) (id : NodeId) :
    (Session.beginNegate id).RefusedLike (Diagram.negate id) s := by
  rcases h.beginNegate id with ⟨e, hf, he⟩ | ⟨hf, hu⟩ | ⟨u, s', hf, hu, -⟩
  · exact Call.refusedLike_of_error hf he
  · exact Call.refusedLike_of_ok hf ⟨_, s, hu⟩
  · exact Call.refusedLike_of_ok hf ⟨_, s', hu⟩

theorem Valid.refusedLike_beginRemoveNode (h : s.Valid) (id : NodeId) :
    (Session.beginRemoveNode id).RefusedLike (Diagram.removeNode id) s := by
  rcases h.beginRemoveNode id with ⟨e, hf, he⟩ | ⟨held, u, s', hf, hu, -⟩
  · exact Call.refusedLike_of_error hf he
  · exact Call.refusedLike_of_ok hf ⟨_, s', hu⟩

/-- Once a change is made, the update that follows it is not refused either. -/
theorem refusedLike_runChange {c : Call (α × Update)} (h : c.RefusedLike f s) (e : Endpoint) :
    (runChange e c).RefusedLike f s := by
  refine (Run.refusedLike_ofCall h).bind fun a s₁ _ => ?_
  exact (unrefused_finishUpdate e a.2 s₁).bind fun _ s₂ _ => Run.unrefused_pure a.1 s₂

/-! ## Relations -/

theorem Valid.evolves_await (h : s.Valid) (e : Endpoint) (f : Fetch κ) :
    s.Evolves (Run.await e f s).2 := by
  obtain ⟨w, hm, hs⟩ := (World.Through.await { session := s } e f).exists_moves
  rw [← hs]
  exact (hm.sound ⟨h, backs_nodes s []⟩).2

theorem Valid.evolves_loadAll (h : s.Valid) (hid : s.diagram.IsQueryNode id) (e : Endpoint)
    (fuel : Nat) : s.Evolves (loadAll e fuel [id] s).2 := by
  have hloads := World.loads_of_knows h (hid.knows h.diagram.toNumbered) e
  let w : World := { session := s }
  have hw : w.Sound := ⟨h, backs_nodes s []⟩
  have hthrough : w.Through (loadAll e fuel [id]) fun _ _ => True :=
    World.Through.loadAll hw hloads (knowsAll_nil s)
  obtain ⟨w', hm, hs⟩ := hthrough.exists_moves
  rw [← hs]
  exact (hm.sound hw).2

/-- The nodes that are taken up were there before or were expanded on the way, and none of them goes
while their relations are waited for. -/
theorem Valid.unrefused_loadAll (h : s.Valid) (hids : s.HasAll ids) (e : Endpoint) (fuel : Nat) :
    (loadAll e fuel ids).Unrefused s := by
  induction fuel generalizing s ids with
  | zero =>
    cases ids with
    | nil => exact Run.unrefused_pure () s
    | cons id rest =>
      rintro g s' ⟨⟩
  | succ fuel ih =>
    cases ids with
    | nil => exact Run.unrefused_pure () s
    | cons id rest =>
      have hid := hids id (by simp)
      obtain ⟨n, hn, -⟩ := h.diagram.isQueryNode_iff.1 hid
      have hbegin := h.evolves_beginDiscovery (h.spares hid).schema
      obtain ⟨-, hkept⟩ := retains_beginDiscovery id s
      refine (Run.unrefused_ofCall (h.succeeds_beginDiscovery hn)).bind fun d s₁ hd => ?_
      have hd := Run.of_ofCall_ok hd
      rw [hd] at hbegin hkept
      have hrest : s₁.HasAll rest := fun x hx => hkept x (hids x (by simp [hx]))
      cases d with
      | loaded children =>
        refine ih hbegin.valid fun x hx => ?_
        exact (List.mem_append.1 hx).elim
          (fun hx => hasAll_beginDiscovery hd x (List.mem_reverse.1 hx)) (hrest x)
      | pending f =>
        refine (Run.unrefused_await e f s₁).bind fun r s₂ hr => ?_
        have hawait := hbegin.valid.evolves_await e f
        rw [hr] at hawait
        obtain ⟨ha, hdiagram⟩ := World.of_await_ok hr
        have hspares : s₂.Spares r.context := by
          rw [ha.context, context_of_beginDiscovery hd, Spares, hdiagram]
          exact hbegin.valid.spares (hkept id hid)
        have happly := hawait.valid.evolves_applyDiscovery r fun _ => hspares
        obtain ⟨-, hkept'⟩ := retains_applyDiscovery r s₂
        refine (Run.unrefused_ofCall (succeeds_applyDiscovery r s₂)).bind fun children s₃ hc => ?_
        have hc := Run.of_ofCall_ok hc
        rw [hc] at happly hkept'
        refine ih happly.valid fun x hx => ?_
        rcases List.mem_append.1 hx with hx | hx
        · exact hasAll_applyDiscovery hc x (List.mem_reverse.1 hx)
        · exact hkept' x (hdiagram ▸ hrest x hx)

/-- What is done once a node is in its place. -/
theorem Valid.unrefused_loadAll_update (h : s.Valid) (hid : s.diagram.IsQueryNode id)
    (e : Endpoint) (fuel : Nat) : Run.Unrefused (do
      loadAll e fuel [id]
      update e
      return id) s := by
  have hids : s.HasAll [id] := fun x hx => List.mem_singleton.1 hx ▸ hid
  have hload := h.evolves_loadAll hid e fuel
  refine (h.unrefused_loadAll hids e fuel).bind fun _ s₁ hs₁ => ?_
  rw [hs₁] at hload
  exact (hload.valid.unrefused_update e).bind fun _ s₂ _ => Run.unrefused_pure id s₂

/-! ## New queries and children -/

theorem Valid.unrefused_start (h : s.Valid) (e : Endpoint) (fuel : Nat) (label : String)
    (anchor : Option Position) : (Session.start e fuel label anchor).Unrefused s := by
  have hplace := h.evolves_replaceDiagram (fun _ hd => hd.addRoot _ label anchor)
    (Diagram.continues_addRoot s.compiler.provider label anchor)
  refine Run.Unrefused.get_bind ?_
  refine (Run.unrefused_ofCall (succeeds_replaceDiagram _ s)).bind fun root s₁ hroot => ?_
  have hroot := Run.of_ofCall_ok hroot
  rw [hroot] at hplace
  obtain ⟨d, rfl, hd⟩ := of_replaceDiagram_ok hroot
  refine hplace.valid.unrefused_loadAll_update ?_ e fuel
  rw [hd]
  exact Diagram.isQueryNode_addRoot _ label anchor d

theorem Valid.unrefused_startSchema (h : s.Valid) (e : Endpoint) (schema : Schema)
    (anchor : Option Position) : (Session.startSchema e schema anchor).Unrefused s := by
  have hplace := h.evolves_replaceDiagram (fun _ hd => hd.addSchema _ schema anchor)
    (Diagram.continues_addSchema s.compiler.provider schema anchor)
  refine Run.Unrefused.get_bind ?_
  refine (Run.unrefused_ofCall (succeeds_replaceDiagram _ s)).bind fun root s₁ hroot => ?_
  rw [Run.of_ofCall_ok hroot] at hplace
  exact (hplace.valid.unrefused_update e).bind fun _ s₂ _ => Run.unrefused_pure root s₂

theorem refusedLike_addChild (s : Session) (id : NodeId) (index : Nat) :
    (addChild id index).RefusedLike
      (Diagram.expandRelationship s.compiler.provider id index) s := by
  rcases Diagram.expandRelationship_cases s.compiler.provider id index s.diagram with
    ⟨e, he⟩ | ⟨child, d, hd⟩
  · refine Call.refusedLike_of_error (congrArg Prod.fst he) ?_
    rw [addChild, Call.get_bind, Call.bind_error (Call.onDiagram_eq he)]
  · refine Call.refusedLike_of_ok (congrArg Prod.fst hd) (Call.Succeeds.get_bind ?_)
    exact Call.Succeeds.after (Call.onDiagram_eq hd) ⟨child, _, rfl⟩

theorem Valid.refusedLike_expand (h : s.Valid) (e : Endpoint) (fuel : Nat) (id : NodeId)
    (index : Nat) : (Session.expand e fuel id index).RefusedLike
      (Diagram.expandRelationship s.compiler.provider id index) s := by
  have hadd := h.evolves_addChild id index
  show Run.RefusedLike (Run.ofCall (addChild id index) >>= fun child => do
    loadAll e fuel [child]
    update e
    return child) _ s
  refine (Run.refusedLike_ofCall (refusedLike_addChild s id index)).bind fun child s₁ hc => ?_
  have hc := Run.of_ofCall_ok hc
  rw [hc] at hadd
  exact hadd.valid.unrefused_loadAll_update (isQueryNode_addChild hc) e fuel

/-! ## All of them -/

/-- An update is not refused, and whatever ends with one is refused only where the diagram refuses
the change that it begins with, before anything has changed. -/
structure Complete (s : Session) : Prop where
  beginUpdate : Call.Succeeds Session.beginUpdate s
  beginExpand : ∀ id index, (Session.beginExpand id index).RefusedLike
    (Diagram.expandRelationship s.compiler.provider id index) s
  beginSelectValue : ∀ id,
    (Session.beginSelectValue id).RefusedLike (Diagram.selectValue id) s
  beginRemoveValue : ∀ id value,
    (Session.beginRemoveValue id value).RefusedLike (Diagram.removeValue id value) s
  beginNegate : ∀ id, (Session.beginNegate id).RefusedLike (Diagram.negate id) s
  beginRemoveNode : ∀ id, (Session.beginRemoveNode id).RefusedLike (Diagram.removeNode id) s
  update : ∀ e, (Session.update e).Unrefused s
  start : ∀ e fuel label anchor, (Session.start e fuel label anchor).Unrefused s
  startSchema : ∀ e schema anchor, (Session.startSchema e schema anchor).Unrefused s
  expand : ∀ e fuel id index, (Session.expand e fuel id index).RefusedLike
    (Diagram.expandRelationship s.compiler.provider id index) s
  selectValue : ∀ e id, (Session.selectValue e id).RefusedLike (Diagram.selectValue id) s
  removeValue : ∀ e id value,
    (Session.removeValue e id value).RefusedLike (Diagram.removeValue id value) s
  negate : ∀ e id, (Session.negate e id).RefusedLike (Diagram.negate id) s
  removeNode : ∀ e id, (Session.removeNode e id).RefusedLike (Diagram.removeNode id) s

theorem Valid.complete (h : s.Valid) : s.Complete where
  beginUpdate := h.succeeds_beginUpdate
  beginExpand := h.refusedLike_beginExpand
  beginSelectValue := h.refusedLike_beginSelectValue
  beginRemoveValue := h.refusedLike_beginRemoveValue
  beginNegate := h.refusedLike_beginNegate
  beginRemoveNode := h.refusedLike_beginRemoveNode
  update := h.unrefused_update
  start := h.unrefused_start
  startSchema := h.unrefused_startSchema
  expand := h.refusedLike_expand
  selectValue e id := refusedLike_runChange (h.refusedLike_beginSelectValue id) e
  removeValue e id value := refusedLike_runChange (h.refusedLike_beginRemoveValue id value) e
  negate e id := refusedLike_runChange (h.refusedLike_beginNegate id) e
  removeNode e id := refusedLike_runChange (h.refusedLike_beginRemoveNode id) e

end Session

/-! ## Compiling -/

namespace CommandLine

/-- The diagram of a schema has its root, so all its statements can be written. -/
theorem compile_some (c : Configuration) (schema : Schema) (graphMode : Bool) :
    ∃ v, compile c (some schema) graphMode = .value v := by
  have hnew := Diagram.WellFormed.new c.settings.pageSize
  have hw := hnew.addSchema (compiler c).provider schema none
  obtain ⟨n, hn, -⟩ := Diagram.isQueryNode_addSchema (compiler c).provider schema none
    (.new c.settings.pageSize)
  obtain ⟨o, ho⟩ :=
    (compiler c).exists_overview hw.toShape (Diagram.isEmpty_eq_false_of_mem hn) graphMode
  exact ⟨overviewValue o, by simp only [compile, ho]⟩

theorem run_compile {s s' : Surroundings} {words : List String} {config : Option String}
    {path : String} {graphMode : Bool}
    (hwords : interpret? s words = some (s', .ok ⟨config, .compile path graphMode⟩))
    (hschema : (s'.schema? path).isSome) : ∃ v, run s words = .value v := by
  obtain ⟨schema, hs⟩ := Option.isSome_iff_exists.1 hschema
  simp only [run, hwords, perform, hs]
  exact compile_some _ schema graphMode

end CommandLine

/-- Statements are refused for want of what they are about, and for nothing else: the result of an
empty diagram, and what is asked about a node that is not there. So an update is never refused once
a session has been changed, and the statements of every schema that can be read are written. -/
theorem refused_only_for_absence :
    (∀ (p : Provider) (d : Diagram), d.Reachable p → ∀ c : Compiler, c.Covers d) ∧
    (∀ w : World, w.Reachable → w.session.Complete) ∧
    ∀ (s s' : CommandLine.Surroundings) (words : List String) (config : Option String)
      (path : String) (graphMode : Bool),
      CommandLine.interpret? s words = some (s', .ok ⟨config, .compile path graphMode⟩) →
        (s'.schema? path).isSome → ∃ v, CommandLine.run s words = .value v :=
  ⟨fun _ _ hd c => c.covers hd.wellFormed.toShape, fun _ hw => hw.sound.valid.complete,
    fun _ _ _ _ _ _ hwords hschema => CommandLine.run_compile hwords hschema⟩

/-- A root with two children. One shows a candidate and is negated, the other one is removed. -/
def acquaintanceSteps : List Operation :=
  [.addRoot "Person" none,
    .setRelationships ⟨0⟩ [{ label := "KNOWS", target := "Person", count := 2 }],
    .expandRelationship ⟨0⟩ 0, .expandRelationship ⟨0⟩ 0, .negate ⟨1⟩,
    .setData ⟨1⟩ [Table.empty.insert "name" (.str "Ann")], .expandValues ⟨1⟩, .removeNode ⟨2⟩]

/-- A schema file, and a database that does not answer. -/
def acquaintanceFile : CommandLine.Surroundings :=
  { files := Table.ofList [("s", "label: A")], database := fun _ _ => .error "" }

theorem refusals_of_acquaintance :
    let c : Compiler := ⟨.plain, {}⟩
    let d := Operation.runAll .plain acquaintanceSteps (.new 10)
    let s := ((World.new .plain {}).act (.placeRoot "Person" none)).session
    ((∃ q, c.resultQuery d true = .ok q) ∧ (∃ q, c.valueQuery d ⟨3⟩ = .ok q) ∧
      c.countQuery d ⟨2⟩ = .error (.nodeNotFound ⟨2⟩)) ∧
    (Call.Succeeds Session.beginUpdate s ∧
      Session.beginNegate ⟨1⟩ s = (.error (.nodeNotFound ⟨1⟩), s)) ∧
    ∃ v, CommandLine.run acquaintanceFile ["compile", "s"] = .value v := by
  intro c d s
  obtain ⟨hstatements, hsessions, hcompile⟩ := refused_only_for_absence
  have hd : c.Covers d :=
    hstatements .plain d (Diagram.Reachable.runAll (.new 10) _ (by decide +kernel)) c
  have hmoves : (World.new .plain {}).MovesTo _ :=
    (World.MovesTo.refl _).act (.placeRoot "Person" none) trivial
  have hs : s.Complete := hsessions _ ⟨.plain, {}, hmoves.leads⟩
  have hfile : CommandLine.fileName? "s" = some "s" := by cbv
  have henv : CommandLine.fileName? CommandLine.environmentPath = some ".env" := by cbv
  have hread : ((Yaml.read? "label: A").bind Schema.decode).isSome = true := by cbv
  have hwords : CommandLine.interpret? acquaintanceFile ["compile", "s"] =
      some (acquaintanceFile, .ok ⟨none, .compile "s" false⟩) := by
    rw [CommandLine.interpret?, CommandLine.Surroundings.complete?,
      CommandLine.Surroundings.file?, henv]
    rfl
  have hschema : (acquaintanceFile.schema? "s").isSome = true := by
    rw [CommandLine.Surroundings.schema?, CommandLine.Surroundings.file?, hfile]
    exact hread
  refine ⟨⟨(hd.result true).given (by decide +kernel), (hd.value ⟨3⟩).given (by decide +kernel),
    (hd.count ⟨2⟩).refused (by decide +kernel)⟩, ⟨hs.beginUpdate, ?_⟩,
    hcompile _ _ _ _ _ _ hwords hschema⟩
  exact (hs.beginNegate ⟨1⟩ _ s).2 ⟨by decide +kernel, rfl⟩
end PatternQuery
