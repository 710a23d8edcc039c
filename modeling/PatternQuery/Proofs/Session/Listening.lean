import PatternQuery.Proofs.Session.Chronicle

/-!
# As long as someone listens

Whether rows in graph mode are asked for is decided when a request is issued (`Session.Asked`), but
its answer may come at any time. If nobody ever stops to listen, rows in graph mode are never left
behind (`Chronicle.together_of_attended`): a request without them is older than the first one with
them, which has superseded it.
-/

namespace PatternQuery

open Session

namespace Session

variable {s s' : Session} {α : Type}

/-! ## Requests for results -/

/-- A request for results, as the session has issued it: it asks for rows in graph mode if someone
listens then. -/
structure Asked (s s' : Session) (f : Fetch Bool) : Prop where
  concern : f.concern = .results
  generation : f.generation ≤ s'.requests.generation
  context : f.context = s.listening

theorem Chores.listening (h : s.Chores s') : s'.listening = s.listening := by
  induction h with
  | refl => rfl
  | tail _ hlast ih =>
    cases hlast with
    | change | count | deal => exact ih

theorem asked_beginResults {f : Fetch Bool} (h : beginResults s = (.ok (some f), s')) :
    s.Asked s' f := by
  rw [beginResults, Call.get_bind] at h
  split at h
  · obtain ⟨hf, -⟩ := Call.of_pure_ok h
    cases hf
  · obtain ⟨batch, s₁, hbatch, hissue⟩ := Call.of_bind_ok h
    obtain ⟨-, rfl⟩ := Prod.mk.inj hbatch
    obtain ⟨f', s₂, hf', hpure⟩ := Call.of_bind_ok hissue
    obtain ⟨hfetch, rfl⟩ := Call.of_onRequests_ok hf'
    obtain ⟨hf, rfl⟩ := Call.of_pure_ok hpure
    obtain rfl : f = f' := Option.some.inj hf
    rw [Lifecycle.issue_fst] at hfetch
    subst hfetch
    exact ⟨rfl, Nat.le_of_eq (Lifecycle.issue_generation .results batch s.listening _).symm, rfl⟩

theorem asked_beginUpdate {u : Update} {f : Fetch Bool} (h : beginUpdate s = (.ok u, s'))
    (hf : u.results = some f) : s.Asked s' f := by
  obtain ⟨counts, s₁, h₁, hrest⟩ := Call.of_bind_ok h
  obtain ⟨autoLoad, s₂, h₂, hrest⟩ := Call.of_bind_ok hrest
  obtain ⟨results, s₃, h₃, hpure⟩ := Call.of_bind_ok hrest
  obtain ⟨rfl, rfl⟩ := Call.of_pure_ok hpure
  obtain rfl : results = some f := hf
  have hs₁ : s₁ = (beginCounts s).2 := by rw [h₁]
  have hs₂ : s₂ = (beginAutoLoad s₁).2 := by rw [h₂]
  have hasked := asked_beginResults h₃
  refine ⟨hasked.concern, hasked.generation, hasked.context.trans ?_⟩
  rw [hs₂, (chores_beginAutoLoad s₁).listening, hs₁, (chores_beginCounts s).listening]

theorem asked_changed {u : Update} {f : Fetch Bool} (h : changed s = (.ok u, s'))
    (hf : u.results = some f) : s.Asked s' f := by
  obtain ⟨_, s₁, hemit, hupdate⟩ := Call.of_bind_ok h
  obtain ⟨-, rfl⟩ := Prod.mk.inj hemit
  have hasked := asked_beginUpdate hupdate hf
  exact ⟨hasked.concern, hasked.generation, hasked.context⟩

end Session

namespace Call

variable {α β : Type} {s s' : Session}

/-- What the call hands out are requests for results as a session issues them. -/
def Asks (c : Call α) (hand : α → Handed) (s : Session) : Prop :=
  ∀ a s', c s = (.ok a, s') → ∀ f ∈ (hand a).flags, s.Asked s' f

theorem asks_of_no_flags {c : Call α} {hand : α → Handed} (h : ∀ a, (hand a).flags = []) :
    c.Asks hand s := by
  intro a s' _ f hf
  rw [h] at hf
  cases hf

theorem Asks.bind {c : Call α} {g : α → Call β} {hand : β → Handed}
    (h : ∀ a s', c s = (.ok a, s') → s'.listening = s.listening ∧ (g a).Asks hand s') :
    (c >>= g).Asks hand s := by
  intro b s₂ hb f hf
  obtain ⟨a, s₁, ha, hg⟩ := of_bind_ok hb
  obtain ⟨hlistening, hasks⟩ := h a s₁ ha
  have hasked := hasks b s₂ hg f hf
  exact ⟨hasked.concern, hasked.generation, hasked.context.trans hlistening⟩

theorem Asks.onDiagram_bind {h : Diagram → Except GraphError α × Diagram} {g : α → Call β}
    {hand : β → Handed} (hg : ∀ a s', (g a).Asks hand s') :
    (onDiagram h >>= g).Asks hand s :=
  Asks.bind fun a s' ha => by
    obtain ⟨-, rfl⟩ := of_onDiagram_ok ha
    exact ⟨rfl, hg a _⟩

theorem asks_pure {b : β} {hand : β → Handed} (h : (hand b).flags = []) :
    (Pure.pure b : Call β).Asks hand s := by
  intro b' s' hb f hf
  obtain ⟨rfl, rfl⟩ := of_pure_ok hb
  rw [h] at hf
  cases hf

/-- An update asks, and hands out what it asks. -/
theorem asks_update {c : Call Update} {g : Update → β} {hand : β → Handed}
    (hc : ∀ u s', c s = (.ok u, s') → ∀ f, u.results = some f → s.Asked s' f)
    (hg : ∀ u, (hand (g u)).flags = u.results.toList) :
    (c >>= fun u => Pure.pure (g u)).Asks hand s := by
  intro b s₂ hb f hf
  obtain ⟨u, s₁, hu, hpure⟩ := of_bind_ok hb
  obtain ⟨rfl, rfl⟩ := of_pure_ok hpure
  rw [hg, Option.mem_toList] at hf
  exact hc u _ hu f hf

end Call

namespace Session

variable {s s' : Session} {α : Type}

theorem asks_changed {g : Update → α} {hand : α → Handed}
    (hg : ∀ u, (hand (g u)).flags = u.results.toList) :
    (changed >>= fun u => Pure.pure (g u)).Asks hand s :=
  Call.asks_update (fun _ _ hu _ hf => asked_changed hu hf) hg

theorem flags_ofDiscovery (d : Discovery) : (Handed.ofDiscovery d).flags = [] := by
  cases d <;> rfl

theorem asks_beginExpand (id : NodeId) (index : Nat) (s : Session) :
    (beginExpand id index).Asks
      (fun a => (Handed.ofDiscovery a.2.1).append (.ofUpdate a.2.2)) s := by
  refine Call.Asks.bind fun p s₁ hp => ?_
  obtain ⟨-, rfl⟩ := Prod.mk.inj hp
  refine ⟨rfl, Call.Asks.onDiagram_bind fun child s₂ => Call.Asks.bind fun _ s₃ he => ?_⟩
  obtain ⟨-, rfl⟩ := Prod.mk.inj he
  refine ⟨rfl, Call.Asks.bind fun d s₄ hd => ⟨?_, ?_⟩⟩
  · have hkept := (chores_beginDiscovery child
      { s₂ with events := s₂.events ++ [.graphChanged] }).listening
    rwa [hd] at hkept
  · exact Call.asks_update (fun _ _ hu _ hf => asked_beginUpdate hu hf) fun u => by
      simp [Handed.append, flags_ofDiscovery, Handed.ofUpdate]

theorem asks_changedIf {h : Diagram → Except GraphError Bool × Diagram} (s : Session) :
    (do
      if ← Call.onDiagram h then return (true, ← changed)
      else return (false, {}) : Call (Bool × Update)).Asks (fun a => .ofUpdate a.2) s := by
  refine Call.Asks.onDiagram_bind fun did s' => ?_
  cases did with
  | true => exact asks_changed fun _ => rfl
  | false => exact Call.asks_pure rfl

theorem asks_beginRemoveNode (id : NodeId) (s : Session) :
    (beginRemoveNode id).Asks (fun a => .ofUpdate a.2) s := by
  refine Call.Asks.onDiagram_bind fun held s₁ => Call.Asks.bind fun p s₂ hp => ?_
  obtain ⟨-, rfl⟩ := Prod.mk.inj hp
  refine ⟨rfl, ?_⟩
  split
  · refine Call.Asks.bind fun _ s₃ hr => ⟨?_, Call.asks_pure rfl⟩
    obtain ⟨-, rfl⟩ := Prod.mk.inj hr
    rfl
  · exact asks_changed fun _ => rfl

/-- Requests for results that a move hands out have just been issued. -/
theorem asked_move {m : Move} {s : Session} {f : Fetch Bool} (hf : f ∈ (m.perform s).1.flags) :
    s.Asked (m.perform s).2 f := by
  have handing {α : Type} {c : Call α} {hand : α → Handed} (hc : c.Asks hand s)
      (hf : f ∈ (Move.handing c hand s).1.flags) : s.Asked (Move.handing c hand s).2 f :=
    of_handing (P := fun g t => ∀ f ∈ g.flags, s.Asked t f) hc (fun _ _ _ => nofun) f hf
  cases m with
  | beginResults =>
    refine handing (fun fetch s' hb g hg => ?_) hf
    obtain rfl := Option.mem_toList.1 hg
    exact asked_beginResults hb
  | beginUpdate =>
    refine handing (fun u s' hb g hg => ?_) hf
    exact asked_beginUpdate hb (Option.mem_toList.1 hg)
  | beginExpand id index => exact handing (asks_beginExpand id index s) hf
  | beginSelectValue id =>
    exact handing (Call.Asks.onDiagram_bind fun _ _ => asks_changed fun _ => rfl) hf
  | beginRemoveValue id value => exact handing (asks_changedIf s) hf
  | beginNegate id => exact handing (asks_changedIf s) hf
  | beginRemoveNode id => exact handing (asks_beginRemoveNode id s) hf
  | beginDiscovery id => exact handing (Call.asks_of_no_flags flags_ofDiscovery) hf
  | listen | unlisten | settle | wait | drop => cases hf
  | _ => exact handing (Call.asks_of_no_flags fun _ => rfl) hf

/-! ## What moves leave -/

/-- Besides rows, only the record of the request is touched. -/
theorem applyResults_frame (r : Fetched Bool) (s : Session) :
    (applyResults r s).2.listening = s.listening ∧
      (applyResults r s).2.requests = (s.requests.accept r).2 := by
  cases h : (s.requests.accept r).1 with
  | false =>
    rw [applyResults_of_rejected h, Lifecycle.accept_of_rejected h]
    exact ⟨rfl, rfl⟩
  | true =>
    rw [applyResults, Call.bind_ok (onRequests_of_accept h)]
    cases r.context <;> exact ⟨rfl, rfl⟩

theorem applyUpdate_frame (r : UpdateFetched) (s : Session) :
    (applyUpdate r s).2.listening = s.listening := by
  rw [applyUpdate_snd, ← (chores_beforeResults r s).listening]
  cases r.results with
  | none => rfl
  | some f => exact (applyResults_frame f _).1

theorem listening_beginRemoveNode (id : NodeId) (s : Session) :
    (beginRemoveNode id s).2.listening = s.listening := by
  rcases Call.onDiagram_cases (s := s) (f := Diagram.removeNode id) (.removeNode id) rfl with
    ⟨e, he⟩ | ⟨held, -, hheld⟩
  · rw [beginRemoveNode, Call.bind_error he]
  · rw [beginRemoveNode, Call.bind_ok hheld, Call.get_bind]
    split
    · rfl
    · exact (chores_changed (.removeNode id) (held, ·) s).listening

theorem listening_move {m : Move} (hm : m ≠ .unlisten) (h : s.listening = true) :
    (m.perform s).2.listening = true := by
  have handing {α : Type} {c : Call α} (hc : (c s).2.listening = s.listening) (hand : α → Handed) :
      (Move.handing c hand s).2.listening = true := by
    rw [handing_snd, hc, h]
  have placing (f : Diagram → NodeId × Diagram) :
      (replaceDiagram f s).2.listening = s.listening := by
    rw [replaceDiagram, Call.get_bind]
    split <;> rfl
  cases m with
  | reset => exact handing rfl _
  | listen => rfl
  | unlisten => exact absurd rfl hm
  | placeRoot label anchor => exact handing (placing _) _
  | placeSchema schema anchor => exact handing (placing _) _
  | beginRemoveNode id => exact handing (listening_beginRemoveNode id s) _
  | applyResults r => exact handing (applyResults_frame r s).1 _
  | applyUpdate r => exact handing (applyUpdate_frame r s) _
  | _ => rw [(chores_move rfl s).listening, h]

/-- What is merged is live before, and nothing is live for its concern after it. -/
theorem slots_of_merged {m : Move} {r : Fetched Bool} (hs : s.requests.Bounded)
    (hr : m.merged? s = some r) (hg : r.generation ≤ s.requests.generation) :
    s.requests.slots.get r.concern = some r.generation ∧
      (m.perform s).2.requests.slots.get r.concern = none := by
  cases m with
  | applyResults f =>
    obtain ⟨haccept, rfl⟩ : (s.requests.accept f).1 = true ∧ f = r := by
      simpa [Move.merged?] using hr
    refine ⟨Lifecycle.live_of_accept haccept, ?_⟩
    show (Move.silent (applyResults f) s).2.requests.slots.get f.concern = none
    rw [Move.silent, handing_snd, (applyResults_frame f s).2]
    exact Lifecycle.get_of_accept haccept
  | applyUpdate u =>
    obtain ⟨hu, haccept⟩ : u.results = some r ∧
        ((s.beforeResults u).requests.accept r).1 = true := by
      simpa [Move.merged?, Option.filter_eq_some_iff] using hr
    refine ⟨((chores_beforeResults u s).deeds.later hs).live _ _ hg
      (Lifecycle.live_of_accept haccept), ?_⟩
    show (Move.silent (applyUpdate u) s).2.requests.slots.get r.concern = none
    rw [Move.silent, handing_snd, applyUpdate_snd, hu, applyIfAny, (applyResults_frame r _).2]
    exact Lifecycle.get_of_accept haccept
  | _ => cases hr

end Session

/-! ## As long as someone listens -/

namespace World

/-- Nobody stops listening, and what is merged answers requests that were handed out. -/
def Attended : World → List Move → Prop
  | _, [] => True
  | w, m :: rest => m ≠ .unlisten ∧ (∀ r, m.merged? w.session = some r → Awaits w.handed.flags r) ∧
    Attended (w.act m) rest

/-- Since the first request for rows in graph mode someone listens, and when there are such rows, no
request without them is live any more. -/
structure Heard (w : World) : Prop where
  bounded : w.session.requests.Bounded
  concern : ∀ f ∈ w.handed.flags, f.concern = .results
  generation : ∀ f ∈ w.handed.flags, f.generation ≤ w.session.requests.generation
  asked : ∀ f ∈ w.handed.flags, f.context = true → w.session.listening = true
  listening : w.session.graphResults ≠ [] → w.session.listening = true
  superseded : w.session.graphResults ≠ [] → ∀ f ∈ w.handed.flags, f.context = false →
    w.session.requests.slots.results ≠ some f.generation

variable {w : World}

theorem Heard.new (provider : Provider) (settings : QuerySettings) :
    (World.new provider settings).Heard where
  bounded := by simp [Lifecycle.Bounded, World.new, Session.new]
  concern := nofun
  generation := nofun
  asked := nofun
  listening h := absurd rfl h
  superseded h := absurd rfl h

/-- An answer that is merged is one to a live request for results. -/
theorem Heard.slots (h : w.Heard) {m : Move} {r : Fetched Bool}
    (hr : m.merged? w.session = some r) (ha : Awaits w.handed.flags r) :
    ∃ f ∈ w.handed.flags, f.context = r.context ∧
      w.session.requests.slots.results = some f.generation ∧
      (w.act m).session.requests.slots.results = none := by
  obtain ⟨f, hf, hanswers⟩ := ha
  have hg := h.generation f hf
  rw [← hanswers.generation] at hg
  obtain ⟨hlive, hdone⟩ := slots_of_merged h.bounded hr hg
  rw [hanswers.concern, h.concern f hf] at hlive hdone
  exact ⟨f, hf, hanswers.context.symm, by rw [← hanswers.generation]; exact hlive, hdone⟩

theorem Heard.not_leavesBehind (h : w.Heard) {m : Move}
    (ha : ∀ r, m.merged? w.session = some r → Awaits w.handed.flags r) :
    m.leavesBehind w.session = false := by
  cases hr : m.merged? w.session with
  | none => rw [Move.leavesBehind, hr]; rfl
  | some r =>
    obtain ⟨f, hf, hcontext, hlive, -⟩ := h.slots hr (ha r hr)
    rw [Move.leavesBehind, hr]
    refine Bool.eq_false_iff.2 fun hleft => ?_
    obtain ⟨hflat, hrows⟩ : r.context = false ∧ w.session.graphResults ≠ [] := by simpa using hleft
    exact h.superseded hrows f hf (hcontext.trans hflat) hlive

/-- Someone listens already before there are rows in graph mode. -/
theorem Heard.listening_before (h : w.Heard) {m : Move}
    (ha : ∀ r, m.merged? w.session = some r → Awaits w.handed.flags r)
    (hrows : (w.act m).session.graphResults ≠ []) : w.session.listening = true := by
  cases rowStep_move m w.session with
  | merge r hr _ hmerge =>
    cases hcontext : r.context with
    | false =>
      refine h.listening fun hnone => hrows ?_
      exact hmerge.graphResults.trans (by rw [hcontext]; exact hnone)
    | true =>
      obtain ⟨f, hf, hfetch, -, -⟩ := h.slots hr (ha r hr)
      exact h.asked f hf (hfetch.trans hcontext)
  | reset _ _ hnone => exact absurd hnone.graphResults hrows
  | aside _ _ hsame => exact h.listening fun hnone => hrows (hsame.graphResults.trans hnone)

theorem Heard.act (h : w.Heard) {m : Move} (hm : m ≠ .unlisten)
    (ha : ∀ r, m.merged? w.session = some r → Awaits w.handed.flags r) : (w.act m).Heard := by
  have hlater := (deeds_move m w.session).later h.bounded
  have hflags {f : Fetch Bool} (hf : f ∈ (w.act m).handed.flags) :
      f ∈ w.handed.flags ∨ w.session.Asked (w.act m).session f :=
    (List.mem_append.1 hf).imp_right asked_move
  refine ⟨hlater.bounded, fun f hf => ?_, fun f hf => ?_, fun f hf hcontext => ?_,
    fun hrows => listening_move hm (h.listening_before ha hrows), fun hrows f hf hflat hlive => ?_⟩
  · exact (hflags hf).elim (h.concern f) Asked.concern
  · exact (hflags hf).elim (fun hold => Nat.le_trans (h.generation f hold) hlater.generation)
      Asked.generation
  · refine listening_move hm ?_
    rcases hflags hf with hold | hnew
    · exact h.asked f hold hcontext
    · exact hnew.context.symm.trans hcontext
  · rcases hflags hf with hold | hnew
    · have hbefore := hlater.live .results _ (h.generation f hold) hlive
      cases rowStep_move m w.session with
      | merge r hr _ _ =>
        obtain ⟨-, -, -, -, hdone⟩ := h.slots hr (ha r hr)
        rw [hdone] at hlive
        cases hlive
      | reset _ _ hnone => exact hrows hnone.graphResults
      | aside _ _ hsame =>
        refine h.superseded (fun hnone => hrows ?_) f hold hflat hbefore
        exact hsame.graphResults.trans hnone
    · rw [hnew.context, h.listening_before ha hrows] at hflat
      cases hflat

theorem Heard.noneLeavesBehind (h : w.Heard) {moves : List Move} (ha : w.Attended moves) :
    noneLeavesBehind moves w.session = true := by
  induction moves generalizing w with
  | nil => rfl
  | cons m rest ih =>
    obtain ⟨hm, hawaits, hrest⟩ := ha
    rw [Session.noneLeavesBehind, h.not_leavesBehind hawaits]
    exact ih (h.act hm hawaits) hrest

end World

/-- As long as nobody stops to listen, the rows in both modes come from the same answer. -/
theorem Chronicle.together_of_attended {provider : Provider} {settings : QuerySettings}
    {moves : List Move} (h : (World.new provider settings).Attended moves) :
    ((Chronicle.new provider settings).follow moves).Together :=
  (together_throughout_from ⟨rfl, rfl⟩ moves).2
    ((World.Heard.new provider settings).noneLeavesBehind h) moves (List.prefix_refl moves)

/-- Someone listens, asks for the result and gets an answer. -/
theorem Chronicle.together_of_first_answer :
    let moves : List Move :=
      [.listen, .placeSchema (.node "Person" [] [] false) none, .beginResults,
        .applyResults ⟨.results, 1, true, .completed [[Table.empty], [Table.empty]]⟩]
    (World.new .plain {}).Attended moves ∧
      ((Chronicle.new .plain {}).follow moves).session.graphResults = [Table.empty] ∧
      ((Chronicle.new .plain {}).follow moves).Together := by
  intro moves
  have hattended : (World.new .plain {}).Attended moves := by
    refine ⟨nofun, nofun, nofun, nofun, nofun, nofun, nofun, fun r hr => ?_, trivial⟩
    obtain ⟨-, rfl⟩ : _ ∧ (⟨.results, 1, true, .completed [[Table.empty], [Table.empty]]⟩ :
        Fetched Bool) = r := by
      simpa only [Move.merged?, Option.ite_none_right_eq_some, Option.some.injEq] using hr
    exact ⟨⟨.results, 1, true, false⟩, by decide +kernel, rfl, rfl, rfl⟩
  exact ⟨hattended, by decide +kernel, together_of_attended hattended⟩

end PatternQuery
