import PatternQuery.Proofs.Session.Selection
import PatternQuery.Proofs.Session.Supersession

/-!
# Candidates that are offered

Whichever way candidates are merged, the values that are selected then are not offered any more as
long as they are selected (`World.offering_of_reachable`). Values that are selected later are not
taken out of what is stored, so showing the candidates offers them again.
-/

namespace PatternQuery

namespace Session

variable {s : Session}

theorem diagram_beginSelectValue (id : NodeId) (s : Session) :
    (Session.beginSelectValue id s).2.diagram = (s.diagram.selectValue id).2 :=
  (Call.sameDiagram_bind (c := Call.onDiagram (Diagram.selectValue id))
    (fun _ => keepsDiagram_changed.bind fun _ => Call.keepsDiagram_pure _) s).diagram

theorem diagram_showCandidates (id : NodeId) (s : Session) :
    (showCandidates id s).2.diagram = (s.diagram.expandValues id).2 :=
  (Call.sameDiagram_bind (c := Call.onDiagram (Diagram.expandValues id))
    (fun _ => (Call.keepsDiagram_emit _).bind fun _ => Call.keepsDiagram_pure _) s).diagram

/-! ## Merging -/

/-- The candidates of a node are merged when an answer to a request for them is merged. -/
def MergesInto (s : Session) (id : NodeId) : Move → Prop
  | .applyAutoLoad r => (s.requests.accept r).1 = true ∧ id ∈ r.context
  | .applyUpdate r => ∃ f, r.autoLoad = some f ∧ id ∈ f.context ∧
    ((applyIfAny applyCounts r.counts s).2.requests.accept f).1 = true
  | .applyValueFetch r => (s.requests.accept r).1 = true ∧ id = r.context ∧
    ∃ results, r.outcome = .completed results
  | _ => False

/-- Whatever was selected on a node is left out when its candidates are stored. -/
theorem refreshes_storeLoaded (hd : s.diagram.Numbered) (id : NodeId) (rows : List Row) :
    Diagram.Refreshes s.compiler.provider s.diagram (storeLoaded id rows s).2.diagram ∧
      ∀ n' ∈ (storeLoaded id rows s).2.diagram.nodes, n'.id = id →
        s.compiler.provider.Clean n' := by
  unfold storeLoaded
  rw [Call.get_bind]
  cases hn : s.diagram.node? id with
  | none =>
    exact ⟨.refl _ _, fun n' hn' hid => absurd hid (Diagram.id_ne_of_node? hn hn')⟩
  | some n =>
    have hstore := hd.refreshes_setData hn (s.omits_unselectedRows n rows)
    dsimp only
    rw [Call.bind_ok (storeCandidates_eq hn rows)]
    split
    · rw [(Call.sameDiagram_bind (fun _ => Call.keepsDiagram_emit _) _).diagram]
      have hshow := Diagram.refreshes_expandValues s.compiler.provider id
        (s.diagram.setData id (s.unselectedRows n rows)).2
      exact ⟨hstore.1.trans hshow, hshow.clean (· = id) hstore.2⟩
    · exact hstore

theorem refreshes_storeAllLoaded (hd : s.diagram.WellFormed) {nodes : List NodeId}
    (hnodes : ∀ id ∈ nodes, s.diagram.Knows id) (results : List (List Row)) :
    Diagram.Refreshes s.compiler.provider s.diagram (storeAllLoaded nodes results s).2.diagram ∧
      ∀ n' ∈ (storeAllLoaded nodes results s).2.diagram.nodes, n'.id ∈ nodes →
        s.compiler.provider.Clean n' := by
  induction nodes generalizing s results with
  | nil => exact ⟨.refl _ _, by simp⟩
  | cons id nodes ih =>
    have hfirst := refreshes_storeLoaded hd.toNumbered id (results.head?.getD [])
    have hhandles := handles_storeLoaded (spares_of_knows (hnodes id (by simp)))
      (results.head?.getD [])
    obtain ⟨_, s₁, hs₁⟩ := succeeds_storeLoaded s id (results.head?.getD [])
    rw [storeAllLoaded, Call.bind_ok hs₁]
    rw [hs₁] at hfirst hhandles
    have hrest := ih (hhandles.diagram.wellFormed hd)
      (fun x hx => hhandles.diagram.continues.knows (hnodes x (by simp [hx]))) results.tail
    rw [hhandles.compiler] at hrest
    refine ⟨hfirst.1.trans hrest.1, fun n' hn' hmem => ?_⟩
    rcases List.mem_cons.1 hmem with hid | hmem
    · exact hrest.1.clean (· = id) hfirst.2 n' hn' hid
    · exact hrest.2 n' hn' hmem

theorem clean_applyAutoLoad (hd : s.diagram.WellFormed) {r : Fetched (List NodeId)}
    (hnodes : ∀ id ∈ r.context, s.diagram.Knows id) (haccept : (s.requests.accept r).1 = true) :
    ∀ n' ∈ (applyAutoLoad r s).2.diagram.nodes, n'.id ∈ r.context →
      s.compiler.provider.Clean n' := by
  have haccepted := Call.onRequests_eq (f := Lifecycle.accept r) haccept
  unfold applyAutoLoad
  rw [Call.bind_ok haccepted, if_pos rfl,
    (Call.sameDiagram_bind (fun _ => Call.keepsDiagram_pure true) _).diagram]
  exact (refreshes_storeAllLoaded (s := { s with requests := (s.requests.accept r).2 }) hd hnodes
    (answeredRows r.outcome)).2

/-- Merging counts is not refused. -/
theorem exists_applyCounts (r : Option (Fetched (List NodeId))) (s : Session) :
    ∃ counted, (applyIfAny applyCounts r s).1 = .ok counted := by
  cases r with
  | none => exact ⟨false, rfl⟩
  | some r =>
    show ∃ counted, (applyCounts r s).1 = .ok counted
    unfold applyCounts
    rw [Call.bind_ok (Call.onRequests_eq rfl)]
    cases (s.requests.accept r).1 with
    | true => exact ⟨true, rfl⟩
    | false => exact ⟨false, rfl⟩

theorem clean_applyUpdate (hd : s.diagram.WellFormed) {r : UpdateFetched}
    {f : Fetched (List NodeId)} (hf : r.autoLoad = some f)
    (hnodes : ∀ id ∈ f.context, s.diagram.Knows id)
    (haccept : ((applyIfAny applyCounts r.counts s).2.requests.accept f).1 = true) :
    ∀ n' ∈ (applyUpdate r s).2.diagram.nodes, n'.id ∈ f.context →
      s.compiler.provider.Clean n' := by
  have hcounts : s.Handles (applyIfAny applyCounts r.counts s).2 :=
    handles_applyIfAny fun f _ => handles_applyCounts f s
  obtain ⟨counted, hok⟩ := exists_applyCounts r.counts s
  unfold applyUpdate
  generalize hs₁ : (applyIfAny applyCounts r.counts s).2 = s₁ at hcounts haccept
  rw [Call.bind_ok (Prod.ext hok hs₁), hf]
  have hclean := clean_applyAutoLoad (hcounts.diagram.wellFormed hd)
    (fun id hid => hcounts.diagram.continues.knows (hnodes id hid)) haccept
  rw [hcounts.compiler] at hclean
  rw [(Call.sameDiagram_bind (c := applyIfAny applyAutoLoad (some f)) (fun _ =>
    (keepsDiagram_applyIfAny keepsDiagram_applyResults r.results).bind fun _ =>
      Call.keepsDiagram_pure _) s₁).diagram]
  exact hclean

theorem clean_applyValueFetch (hd : s.diagram.Numbered) {r : Fetched NodeId}
    (haccept : (s.requests.accept r).1 = true) {results : List (List Row)}
    (ho : r.outcome = .completed results) :
    ∀ n' ∈ (applyValueFetch r s).2.diagram.nodes, n'.id = r.context →
      s.compiler.provider.Clean n' := by
  have haccepted := Call.onRequests_eq (f := Lifecycle.accept r) haccept
  unfold applyValueFetch
  rw [Call.bind_ok haccepted, Call.get_bind, ho]
  cases hn : s.diagram.node? r.context with
  | none => exact fun n' hn' hid => absurd hid (Diagram.id_ne_of_node? hn hn')
  | some n =>
    dsimp only
    rw [Call.bind_ok
        (storeCandidates_eq (s := { s with requests := (s.requests.accept r).2 }) hn _),
      (Call.sameDiagram_bind (fun _ => (Call.keepsDiagram_emit _).bind fun _ =>
        Call.keepsDiagram_pure _) _).diagram]
    have hstore := hd.refreshes_setData hn (s.omits_unselectedRows n (results.head?.getD []))
    have hshow := Diagram.refreshes_expandValues s.compiler.provider r.context
      (s.diagram.setData r.context (s.unselectedRows n (results.head?.getD []))).2
    exact hshow.clean (· = r.context) hstore.2

end Session

namespace World

open Session

variable {w : World}

theorem Reachable.curated (h : w.Reachable) : w.session.diagram.Curated := by
  obtain ⟨provider, settings, h⟩ := h
  exact (h.handles (.new provider settings)).diagram.curated (Diagram.WellFormed.new _)
    (Diagram.curated_new _)

theorem Sound.clean_of_mergesInto (hw : w.Sound) {m : Move} (hm : m.Admissible w) {n : Node}
    (hn : n ∈ (w.act m).session.diagram.nodes) (hmerges : w.session.MergesInto n.id m) :
    w.session.compiler.provider.Clean n := by
  have hd := hw.valid.diagram
  cases m with
  | applyAutoLoad r =>
    have hn : n ∈ (Move.silent (applyAutoLoad r) w.session).2.diagram.nodes := hn
    rw [Move.silent, handing_snd] at hn
    exact clean_applyAutoLoad hd (hw.knows hm) hmerges.1 n hn hmerges.2
  | applyUpdate r =>
    have hn : n ∈ (Move.silent (applyUpdate r) w.session).2.diagram.nodes := hn
    rw [Move.silent, handing_snd] at hn
    obtain ⟨f, hf, hid, haccept⟩ := hmerges
    exact clean_applyUpdate hd hf (hw.knows (hm.2.1 f hf)) haccept n hn hid
  | applyValueFetch r =>
    have hn : n ∈ (Move.silent (applyValueFetch r) w.session).2.diagram.nodes := hn
    rw [Move.silent, handing_snd] at hn
    obtain ⟨haccept, hid, results, ho⟩ := hmerges
    exact clean_applyValueFetch hd.toNumbered haccept ho n hn hid
  | _ => exact hmerges.elim

/-- All that is selected on a node is left out when its candidates are merged. A value that is left
out, or for which other candidates have been stored since, is not offered as long as it is selected,
nor is anything that would be selected like it. A value that is selected from the candidates that
are stored is offered again when they are shown next. -/
theorem offering_of_reachable (hw : w.Reachable) :
    (∀ m : Move, m.Admissible w → ∀ n ∈ (w.act m).session.diagram.nodes,
      w.session.MergesInto n.id m → w.session.compiler.provider.Clean n) ∧
    (∀ w', w.Leads w' → ∀ n ∈ w.session.diagram.nodes, ∀ n' ∈ w'.session.diagram.nodes,
      n'.id = n.id → ∀ v ∈ n.selected, v ∈ n'.selected →
        w.session.compiler.provider.LeavesOut n v ∨ n'.data ≠ n.data →
          let a := w'.session.compiler.provider.attribute n'
          w'.session.compiler.provider.LeavesOut n' v ∧
            ∀ m ∈ w'.session.diagram.valueNodes n'.id, ¬ m.Repeats a v ∧
              (m.Answers a → ¬ (v.constraintValue a).equals
                ((Diagram.pickedValue m).constraintValue a))) ∧
    ∀ p, ∀ m ∈ w.session.diagram.valueNodes p,
      let w' := (w.act (.beginSelectValue m.id)).act (.showCandidates p)
      ∃ n' ∈ w'.session.diagram.nodes, n'.id = p ∧ Diagram.pickedValue m ∈ n'.selected ∧
        ∃ m' ∈ w'.session.diagram.valueNodes p, m'.attributes = m.attributes ∧
          ∀ a, m.Answers a → m'.Repeats a (Diagram.pickedValue m) := by
  have hd := hw.sound.valid.diagram
  refine ⟨fun m hm n hn => hw.sound.clean_of_mergesInto hm hn,
    fun w' h n hn n' hn' hid v hv hv' hout => ?_, fun p m hm => ?_⟩
  · have hw' := hw.leads h
    have hhandles := h.handles hw.sound
    have hout' := hhandles.diagram.leavesOut hd hw.curated hn hn' hid hv hv' hout
    rw [← hhandles.compiler] at hout'
    exact ⟨hout', fun m hm =>
      hw'.curated.not_repeats hw'.sound.valid.diagram.toShape hn' hout' hm⟩
  · have hdiagram : ((w.act (.beginSelectValue m.id)).act (.showCandidates p)).session.diagram =
        ((w.session.diagram.selectValue m.id).2.expandValues p).2 := by
      show (Move.silent (showCandidates p)
        (Move.handing (Session.beginSelectValue m.id) _ w.session).2).2.diagram = _
      rw [Move.silent, handing_snd, handing_snd, diagram_showCandidates, diagram_beginSelectValue]
    have hrepeats := hd.repeats_of_selectValue hw.curated hm
    rw [← hdiagram] at hrepeats
    exact hrepeats

/-! ## Cities to choose from -/

def ulm : Row := Table.ofList [("name", .str "Ulm")]

def bonn : Row := Table.ofList [("name", .str "Bonn")]

/-- Someone in a city, where the cities to choose from are Ulm and Bonn. -/
def traveller : World :=
  ((((World.new { Provider.plain with properties := fun label =>
      { autoLoad := label == "City", constraintAttribute := .property "name" } } {}).act
    (.placeSchema (.node "Person" []
      [{ label := "LIVES_IN", target := .node "City" [] [] false }] false) none)).act
    .beginAutoLoad).act
    (.applyAutoLoad ⟨.autoLoad, 1, [⟨1⟩], .completed [[ulm, bonn]]⟩)).act (.showCandidates ⟨1⟩)

/-- Ulm is selected. -/
def settled : World := traveller.act (.beginSelectValue ⟨2⟩)

/-- After that the cities are loaded and shown again. -/
def resettled : World :=
  (settled.act (.applyAutoLoad ⟨.autoLoad, 3, [⟨1⟩], .completed [[ulm, bonn]]⟩)).act
    (.showCandidates ⟨1⟩)

theorem traveller_reachable : traveller.Reachable := by
  refine Reachable.act ?_ (.showCandidates ⟨1⟩) trivial
  refine Reachable.act ?_ (.applyAutoLoad _) ⟨⟨.autoLoad, 1, [⟨1⟩], false⟩, by decide +kernel, ?_⟩
  · refine Reachable.act ?_ .beginAutoLoad trivial
    exact Reachable.act ⟨_, {}, .refl⟩ (.placeSchema _ none) trivial
  · exact ⟨rfl, rfl, rfl⟩

theorem settled_leads : settled.Leads resettled := by
  have hload : Move.Admissible settled
      (.applyAutoLoad ⟨.autoLoad, 3, [⟨1⟩], .completed [[ulm, bonn]]⟩) :=
    ⟨⟨.autoLoad, 3, [⟨1⟩], false⟩, by decide +kernel, rfl, rfl, rfl⟩
  exact .tail (.single (.move _ hload)) (.move (.showCandidates ⟨1⟩) trivial)

/-- Among the cities that are loaded later, Ulm is not offered. Right after its selection it is. -/
theorem offering_of_traveller :
    (∃ n' ∈ resettled.session.diagram.nodes, ∃ v ∈ n'.selected, v.attributes = ulm ∧
      resettled.session.diagram.valueNodes n'.id ≠ [] ∧
        ∀ m ∈ resettled.session.diagram.valueNodes n'.id, ¬ m.Repeats (.property "name") v) ∧
    ∃ m ∈ traveller.session.diagram.valueNodes ⟨1⟩, m.id = ⟨2⟩ ∧
      ∃ n' ∈ (settled.act (.showCandidates ⟨1⟩)).session.diagram.nodes,
        Diagram.pickedValue m ∈ n'.selected ∧
          ∃ m' ∈ (settled.act (.showCandidates ⟨1⟩)).session.diagram.valueNodes ⟨1⟩,
            m'.Repeats (.property "name") (Diagram.pickedValue m) := by
  constructor
  · have hreload : ∃ n ∈ settled.session.diagram.nodes, ∃ n' ∈ resettled.session.diagram.nodes,
        n'.id = n.id ∧ ∃ v ∈ n.selected, v ∈ n'.selected ∧ n'.data ≠ n.data ∧ v.attributes = ulm ∧
          resettled.session.diagram.valueNodes n'.id ≠ [] ∧
            resettled.session.compiler.provider.attribute n' = .property "name" := by
      decide +kernel
    obtain ⟨n, hn, n', hn', hid, v, hv, hv', hdata, hulm, hshown, ha⟩ := hreload
    have hsettled : settled.Reachable := traveller_reachable.act (.beginSelectValue ⟨2⟩) trivial
    obtain ⟨-, hnever⟩ := (offering_of_reachable hsettled).2.1 resettled settled_leads n hn n' hn'
      hid v hv hv' (.inr hdata)
    rw [ha] at hnever
    exact ⟨n', hn', v, hv', hulm, hshown, fun m hm => (hnever m hm).1⟩
  · have hcity : ∃ m ∈ traveller.session.diagram.valueNodes ⟨1⟩, m.id = ⟨2⟩ := by decide +kernel
    obtain ⟨m, hm, hid⟩ := hcity
    obtain ⟨n', hn', -, hpicked, m', hm', -, hrepeats⟩ :=
      (offering_of_reachable traveller_reachable).2.2 ⟨1⟩ m hm
    rw [hid] at hn' hm'
    exact ⟨m, hm, hid, n', hn', hpicked, m', hm', hrepeats (.property "name") nofun⟩

/-- So a value that is selected may be among the candidates. -/
theorem selected_city_offered : ¬ ∀ w : World, w.Reachable → ∀ n ∈ w.session.diagram.nodes,
    ∀ v ∈ n.selected, ∀ m ∈ w.session.diagram.valueNodes n.id,
      ¬ m.Repeats (w.session.compiler.provider.attribute n) v := by
  intro h
  have hreachable : (settled.act (.showCandidates ⟨1⟩)).Reachable :=
    (traveller_reachable.act (.beginSelectValue ⟨2⟩) trivial).act (.showCandidates ⟨1⟩) trivial
  have hnever := h _ hreachable
  revert hnever
  decide +kernel

end World

end PatternQuery
