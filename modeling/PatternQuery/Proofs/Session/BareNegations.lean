import PatternQuery.Proofs.Session.Growth

/-!
# Bare negations over the life of a session

A `Session.Action` is anything that can happen to a session, with arbitrary arguments: a move, or a
call that waits for answers. Relations lead away from a bare negation some time during a sequence of
actions if and only if one of the actions lets one grow (`Session.severed_throughout_iff`): by
adding a child to it, or by expanding relations that were asked for before it was negated.
-/

namespace PatternQuery

open Diagram

/-! ## Calls that wait -/

namespace Run

open Session

variable {α β κ : Type} {s : Session} {grown : Bool}

theorem ofCall_snd (c : Call α) (s : Session) : (ofCall c s).2 = (c s).2 := by
  rcases hc : c s with ⟨r, s'⟩
  cases r with
  | ok a => rw [ofCall_ok hc]
  | error e => rw [ofCall_error hc]

theorem bind_assoc {γ : Type} (r : Run α) (f : α → Run β) (g : β → Run γ) :
    (r >>= f) >>= g = r >>= fun a => f a >>= g := by
  funext s
  rcases hr : r s with ⟨res, s'⟩
  cases res with
  | error e => rw [bind_error (bind_error hr), bind_error hr]
  | ok a =>
    rw [bind_ok hr]
    rcases hf : f a s' with ⟨res', s''⟩
    have hrf : (r >>= f) s = (res', s'') := (bind_ok hr).trans hf
    cases res' with
    | error e => rw [bind_error hrf, bind_error hf]
    | ok b => rw [bind_ok hrf, bind_ok hf]

theorem yields_bind {r : Run α} {f : α → Run β} (hs : s.diagram.Orderly)
    (hr : s.Yields (r s).2 grown)
    (hf : ∀ a s', r s = (.ok a, s') → s'.diagram.Orderly → s'.SameGrowth (f a s').2) :
    s.Yields ((r >>= f) s).2 grown := by
  rcases hres : r s with ⟨res, s'⟩
  rw [hres] at hr
  cases res with
  | error e => rwa [bind_error hres]
  | ok a =>
    rw [bind_ok hres]
    exact hr.after (hf a s' hres (hr.orderly hs))

theorem sameGrowth_bind {r : Run α} {f : α → Run β} (hs : s.diagram.Orderly)
    (hr : s.SameGrowth (r s).2)
    (hf : ∀ a s', r s = (.ok a, s') → s'.diagram.Orderly → s'.SameGrowth (f a s').2) :
    s.SameGrowth ((r >>= f) s).2 := by
  rcases hres : r s with ⟨res, s'⟩
  rw [hres] at hr
  cases res with
  | error e => rwa [bind_error hres]
  | ok a =>
    rw [bind_ok hres]
    exact hr.trans (hf a s' hres (hr.orderly hs))

/-- Waiting has to do with requests only. -/
theorem sameDiagram_await (e : Endpoint) (f : Fetch κ) (s : Session) :
    s.SameDiagram (await e f s).2 := by
  unfold await
  split <;> exact ⟨rfl, rfl⟩

theorem sameGrowth_awaitIfAny (e : Endpoint) (o : Option (Fetch κ)) (hs : s.diagram.Orderly) :
    s.SameGrowth (awaitIfAny e o s).2 := by
  cases o with
  | none => exact .refl s
  | some f =>
    exact sameGrowth_bind hs (sameDiagram_await e f s).sameGrowth fun _ s' _ _ => .refl s'

end Run

namespace Session

variable {s : Session} {grown : Bool} {id : NodeId}

/-! ## Updates -/

theorem sameGrowth_finishUpdate (e : Endpoint) (u : Update) (hs : s.diagram.Orderly) :
    s.SameGrowth (finishUpdate e u s).2 := by
  unfold finishUpdate
  split
  · exact .refl s
  · refine Run.sameGrowth_bind hs (Run.sameGrowth_awaitIfAny e u.counts hs) fun counts s₁ _ h₁ => ?_
    refine Run.sameGrowth_bind h₁ (Run.sameGrowth_awaitIfAny e u.autoLoad h₁)
      fun autoLoad s₂ _ h₂ => ?_
    refine Run.sameGrowth_bind h₂ (Run.sameGrowth_awaitIfAny e u.results h₂)
      fun results s₃ _ _ => ?_
    rw [Run.ofCall_snd]
    exact sameGrowth_applyUpdate _ s₃

theorem sameGrowth_update (e : Endpoint) (hs : s.diagram.Orderly) :
    s.SameGrowth (update e s).2 := by
  refine Run.sameGrowth_bind hs ?_ fun u s₁ _ h₁ =>
    Run.sameGrowth_bind h₁ (sameGrowth_finishUpdate e u h₁) fun _ s₂ _ _ => .refl s₂
  rw [Run.ofCall_snd]
  exact keepsDiagram_beginUpdate.sameGrowth s

theorem yields_runChange {α : Type} {c : Call (α × Update)} (e : Endpoint)
    (hs : s.diagram.Orderly) (hc : s.Yields (c s).2 grown) :
    s.Yields (runChange e c s).2 grown := by
  refine Run.yields_bind hs ?_ fun a s₁ _ h₁ =>
    Run.sameGrowth_bind h₁ (sameGrowth_finishUpdate e a.2 h₁) fun _ s₂ _ _ => .refl s₂
  rwa [Run.ofCall_snd]

/-! ## Relations -/

/-- Loads the relations of one node. -/
def loadOne (e : Endpoint) (id : NodeId) : Run (List NodeId) := do
  match ← Run.ofCall (beginDiscovery id) with
  | .loaded children => return children
  | .pending f =>
    let r ← Run.await e f
    Run.ofCall (applyDiscovery r)

theorem loadAll_cons (e : Endpoint) (fuel : Nat) (id : NodeId) (rest : List NodeId) :
    loadAll e (fuel + 1) (id :: rest) =
      (loadOne e id >>= fun children => loadAll e fuel (children.reverse ++ rest)) := by
  rw [loadAll, loadOne, Run.bind_assoc]
  congr 1
  funext d
  cases d with
  | loaded children => rfl
  | pending f => exact (Run.bind_assoc _ _ _).symm

/-- Loading the relations of the node would let a bare negation grow, once it is answered. -/
def loadGrows (s : Session) (e : Endpoint) (id : NodeId) : Bool :=
  match beginDiscovery id s with
  | (.ok (.pending f), s₁) =>
    match Run.await e f s₁ with
    | (.ok r, s₂) => s₂.answerGrows r
    | (.error _, _) => false
  | _ => s.discoveryGrows id

theorem yields_loadOne (e : Endpoint) (id : NodeId) (s : Session) :
    s.Yields (loadOne e id s).2 (s.loadGrows e id) := by
  have hbegin := yields_beginDiscovery id s
  rw [loadOne, loadGrows]
  rcases hd : beginDiscovery id s with ⟨res, s₁⟩
  rw [hd] at hbegin
  cases res with
  | error h => rwa [Run.bind_error (Run.ofCall_error hd)]
  | ok d =>
    rw [Run.bind_ok (Run.ofCall_ok hd)]
    cases d with
    | loaded children => exact hbegin
    | pending f =>
      have hsame := (sameDiagram_of_pending hd).sameGrowth
      have hawait := (Run.sameDiagram_await e f s₁).sameGrowth
      dsimp only
      rcases hr : Run.await e f s₁ with ⟨res, s₂⟩
      rw [hr] at hawait
      cases res with
      | error h =>
        rw [Run.bind_error hr]
        exact (hsame.trans hawait).yields
      | ok r =>
        rw [Run.bind_ok hr, Run.ofCall_snd]
        exact (hsame.trans hawait).yields.trans (yields_applyDiscovery r s₂)

/-- What is loaded for a node are nodes that are not negated. -/
theorem noneBare_loadOne {e : Endpoint} (hs : s.diagram.Orderly) {children : List NodeId}
    {s' : Session} (h : loadOne e id s = (.ok children, s')) : s'.NoneBare children := by
  rw [loadOne] at h
  rcases hd : beginDiscovery id s with ⟨res, s₁⟩
  cases res with
  | error _ =>
    rw [Run.bind_error (Run.ofCall_error hd)] at h
    cases h
  | ok d =>
    rw [Run.bind_ok (Run.ofCall_ok hd)] at h
    cases d with
    | loaded added =>
      obtain ⟨hchildren, rfl⟩ := Prod.mk.inj h
      obtain rfl : added = children := Except.ok.inj hchildren
      exact noneBare_beginDiscovery hs hd
    | pending f =>
      have h₁ := (sameDiagram_of_pending hd).sameGrowth.orderly hs
      have hawait := (Run.sameDiagram_await e f s₁).sameGrowth
      dsimp only at h
      rcases hr : Run.await e f s₁ with ⟨res, s₂⟩
      rw [hr] at hawait
      cases res with
      | error _ =>
        rw [Run.bind_error hr] at h
        cases h
      | ok r =>
        rw [Run.bind_ok hr] at h
        exact noneBare_applyDiscovery (hawait.orderly h₁) (Run.of_ofCall_ok h)

theorem sameGrowth_loadOne (e : Endpoint) (hs : s.diagram.Orderly)
    (hid : s.diagram.isBareAt id = false) : s.SameGrowth (loadOne e id s).2 := by
  have hbegin := sameGrowth_beginDiscovery hs hid
  refine Run.sameGrowth_bind hs (by rwa [Run.ofCall_snd]) fun d s₁ hd h₁ => ?_
  have hd := Run.of_ofCall_ok hd
  cases d with
  | loaded children => exact .refl s₁
  | pending f =>
    refine Run.sameGrowth_bind h₁ (Run.sameDiagram_await e f s₁).sameGrowth fun r s₂ hr h₂ => ?_
    rw [Run.ofCall_snd]
    refine sameGrowth_applyDiscovery h₂ ?_
    obtain ⟨ha, hdiagram⟩ := World.of_await_ok hr
    rw [ha.context, context_of_beginDiscovery hd, hdiagram, (sameDiagram_of_pending hd).diagram,
      hid]

/-- Children that are not negated are loaded without anything growing from a bare negation, and so
are the children that come of it. -/
theorem sameGrowth_loadAll (e : Endpoint) (fuel : Nat) {ids : List NodeId}
    (hs : s.diagram.Orderly) (hids : s.NoneBare ids) : s.SameGrowth (loadAll e fuel ids s).2 := by
  induction fuel generalizing s ids with
  | zero => cases ids <;> exact .refl s
  | succ fuel ih =>
    cases ids with
    | nil => exact .refl s
    | cons id rest =>
      have hone := sameGrowth_loadOne e hs (hids id (by simp))
      have hrest : s.NoneBare rest := fun x hx => hids x (by simp [hx])
      rw [loadAll_cons]
      refine Run.sameGrowth_bind hs hone fun children s₁ hc h₁ => ih h₁ fun x hx => ?_
      rcases List.mem_append.1 hx with hx | hx
      · exact noneBare_loadOne hs hc x (List.mem_reverse.1 hx)
      · rw [hc] at hone
        exact hrest.keeps hs hone x hx

theorem yields_load (e : Endpoint) (fuel : Nat) (id : NodeId) (hs : s.diagram.Orderly) :
    s.Yields (loadAll e fuel [id] s).2 (decide (0 < fuel) && s.loadGrows e id) := by
  cases fuel with
  | zero => exact (SameGrowth.refl s).yields
  | succ fuel =>
    rw [loadAll_cons]
    simp only [Nat.zero_lt_succ, decide_true, Bool.true_and, List.append_nil]
    refine Run.yields_bind hs (yields_loadOne e id s) fun children s₁ hc h₁ => ?_
    exact sameGrowth_loadAll e fuel h₁ fun x hx =>
      noneBare_loadOne hs hc x (List.mem_reverse.1 hx)

/-! ## New queries and children -/

theorem yields_reset (s : Session) : s.Yields (reset s).2 false :=
  Yields.after (Call.yields_onDiagram .clear (f := fun d => (.ok (), d.clear)) rfl)
    (SameDiagram.sameGrowth ⟨rfl, rfl⟩)

theorem yields_replaceDiagram {s : Session} {f : Diagram → NodeId × Diagram} (o : Operation)
    (hf : ∀ d, (f d).2 = (o.run s.compiler.provider d).2) (ho : ∀ d, o.growsBare d = false) :
    s.Yields (replaceDiagram f s).2 false := by
  obtain ⟨s₁, hs₁, he⟩ := replaceDiagram_eq f s
  have h₁ : s.Yields s₁ false ∧ s₁.compiler = s.compiler := by
    rcases hs₁ with rfl | ⟨rfl, -⟩
    · exact ⟨yields_reset s, rfl⟩
    · exact ⟨(SameGrowth.refl _).yields, rfl⟩
  have hplace := Call.yields_onDiagram (s := s₁) o
    (f := fun d => (Except.ok (f d).1, (f d).2)) (by rw [h₁.2]; exact hf s₁.diagram)
  rw [ho] at hplace
  rw [he]
  exact h₁.1.trans (hplace.after (SameDiagram.sameGrowth ⟨rfl, rfl⟩))

theorem yields_addChild (id : NodeId) (index : Nat) (s : Session) :
    s.Yields (addChild id index s).2
      ((Operation.expandRelationship id index).growsBare s.diagram) := by
  rw [addChild, Call.get_bind]
  exact Call.yields_bind_keeps (Call.yields_onDiagram (.expandRelationship id index) rfl)
    fun _ => (Call.keepsDiagram_emit _).bind fun _ => Call.keepsDiagram_pure _

theorem isBareAt_expandRelationship {p : Provider} {d d' : Diagram} {index : Nat} {child : NodeId}
    (hd : d.Orderly) (h : d.expandRelationship p id index = (.ok child, d')) :
    d'.isBareAt child = false := by
  cases hn : d.node? id with
  | none => simp [Diagram.expandRelationship, hn] at h
  | some n =>
    cases hs : n.relationships[index]? with
    | none => simp [Diagram.expandRelationship, hn, hs] at h
    | some s =>
      rw [expandRelationship_eq p hn hs] at h
      obtain ⟨hchild, rfl⟩ := Prod.mk.inj h
      obtain rfl := Except.ok.inj hchild
      rw [isBareAt_attachChild, hd.isBareAt_nextNode]

theorem yields_beginExpand (id : NodeId) (index : Nat) (hs : s.diagram.Orderly) :
    s.Yields (Session.beginExpand id index s).2
      ((Operation.expandRelationship id index).growsBare s.diagram) := by
  unfold Session.beginExpand
  rw [Call.get_bind]
  have hadd : s.Yields (Call.onDiagram
      (Diagram.expandRelationship s.compiler.provider id index) s).2 _ :=
    Call.yields_onDiagram (.expandRelationship id index) rfl
  refine Call.yields_bind hadd fun child s₁ hc => ?_
  rw [hc] at hadd
  have h₁ := hadd.orderly hs
  have hchild : s₁.diagram.isBareAt child = false := by
    obtain ⟨hok, rfl⟩ := Call.of_onDiagram_ok hc
    exact isBareAt_expandRelationship hs (Prod.ext hok rfl)
  refine Call.sameGrowth_bind ((Call.keepsDiagram_emit _).sameGrowth s₁) fun _ s₂ he => ?_
  obtain ⟨-, rfl⟩ := Prod.mk.inj he
  exact Call.sameGrowth_bind (sameGrowth_beginDiscovery h₁ hchild) fun _ s₃ _ =>
    (keepsDiagram_beginUpdate.bind fun _ => Call.keepsDiagram_pure _).sameGrowth s₃

theorem yields_expand (e : Endpoint) (fuel : Nat) (id : NodeId) (index : Nat)
    (hs : s.diagram.Orderly) : s.Yields (Session.expand e fuel id index s).2
      ((Operation.expandRelationship id index).growsBare s.diagram) := by
  show s.Yields ((Run.ofCall (addChild id index) >>= fun child => do
    loadAll e fuel [child]
    update e
    return child) s).2 _
  have hadd := yields_addChild id index s
  refine Run.yields_bind hs (by rwa [Run.ofCall_snd]) fun child s₁ hc h₁ => ?_
  have hchild : s₁.NoneBare [child] := by
    have hadded := Run.of_ofCall_ok hc
    rw [addChild, Call.get_bind] at hadded
    obtain ⟨added, s₂, hexpand, hemit⟩ := Call.of_bind_ok hadded
    obtain ⟨hok, rfl⟩ := Call.of_onDiagram_ok hexpand
    obtain ⟨hresult, rfl⟩ := Prod.mk.inj hemit
    obtain rfl : added = child := Except.ok.inj hresult
    intro x hx
    rw [List.mem_singleton.1 hx]
    exact isBareAt_expandRelationship hs (Prod.ext hok rfl)
  refine Run.sameGrowth_bind h₁ (sameGrowth_loadAll e fuel h₁ hchild) fun _ s₂ _ h₂ => ?_
  exact Run.sameGrowth_bind h₂ (sameGrowth_update e h₂) fun _ s₃ _ _ => .refl s₃

theorem yields_start (e : Endpoint) (fuel : Nat) (label : String) (anchor : Option Position)
    (hs : s.diagram.Orderly) : s.Yields (Session.start e fuel label anchor s).2 false := by
  show s.Yields ((Run.ofCall
    (replaceDiagram (Diagram.addRoot s.compiler.provider label anchor)) >>= fun root => do
      loadAll e fuel [root]
      update e
      return root) s).2 _
  have hplace := yields_replaceDiagram (s := s) (.addRoot label anchor) (fun _ => rfl) fun _ => rfl
  refine Run.yields_bind hs (by rw [Run.ofCall_snd]; exact hplace) fun root s₁ hr h₁ => ?_
  have hroot : s₁.NoneBare [root] := by
    obtain ⟨d, -, hd⟩ := of_replaceDiagram_ok (Run.of_ofCall_ok hr)
    intro x _
    rw [hd]
    refine Bool.eq_false_iff.2 fun hbare => ?_
    obtain ⟨n, hn, hb⟩ := Option.any_eq_true _ _ |>.1 hbare
    simp [Node.isBare, positive_addRoot _ label anchor d n (mem_of_node? hn)] at hb
  refine Run.sameGrowth_bind h₁ (sameGrowth_loadAll e fuel h₁ hroot) fun _ s₂ _ h₂ => ?_
  exact Run.sameGrowth_bind h₂ (sameGrowth_update e h₂) fun _ s₃ _ _ => .refl s₃

theorem yields_startSchema (e : Endpoint) (schema : Schema) (anchor : Option Position)
    (hs : s.diagram.Orderly) : s.Yields (Session.startSchema e schema anchor s).2 false := by
  show s.Yields ((Run.ofCall
    (replaceDiagram (Diagram.addSchema s.compiler.provider schema anchor)) >>= fun root => do
      update e
      return root) s).2 _
  have hplace := yields_replaceDiagram (s := s) (.addSchema schema anchor) (fun _ => rfl)
    fun _ => rfl
  refine Run.yields_bind hs (by rw [Run.ofCall_snd]; exact hplace) fun _ s₁ _ h₁ => ?_
  exact Run.sameGrowth_bind h₁ (sameGrowth_update e h₁) fun _ s₂ _ _ => .refl s₂

/-! ## Changes -/

theorem yields_moved {f : Diagram → Except GraphError Bool × Diagram} (o : Operation)
    (hf : (f s.diagram).2 = (o.run s.compiler.provider s.diagram).2) : s.Yields ((do
      let moved ← Call.onDiagram f
      if moved then Call.emit .graphChanged
      return moved : Call Bool) s).2 (o.growsBare s.diagram) := by
  refine Call.yields_bind_keeps (Call.yields_onDiagram o hf) fun _ => ?_
  dsimp only
  split
  · exact (Call.keepsDiagram_emit _).bind fun _ => Call.keepsDiagram_pure _
  · exact Call.keepsDiagram_pure _

theorem yields_showCandidates (id : NodeId) (s : Session) :
    s.Yields (showCandidates id s).2 false :=
  Call.yields_bind_keeps (Call.yields_onDiagram (.expandValues id) rfl)
    fun _ => (Call.keepsDiagram_emit _).bind fun _ => Call.keepsDiagram_pure _

theorem yields_hideCandidates (id : NodeId) (s : Session) :
    s.Yields (hideCandidates id s).2 false :=
  Call.yields_bind_keeps (Call.yields_onDiagram (.collapseValues id) rfl)
    fun _ => (Call.keepsDiagram_emit _).bind fun _ => Call.keepsDiagram_pure _

theorem yields_beginSelectValue (id : NodeId) (s : Session) :
    s.Yields (Session.beginSelectValue id s).2 false :=
  Call.yields_bind_keeps (Call.yields_onDiagram (.selectValue id) rfl)
    fun _ => keepsDiagram_changed.bind fun _ => Call.keepsDiagram_pure _

/-- A change that may come to nothing. -/
theorem yields_changedIf {f : Diagram → Except GraphError Bool × Diagram} (o : Operation)
    (hf : (f s.diagram).2 = (o.run s.compiler.provider s.diagram).2) : s.Yields ((do
      if ← Call.onDiagram f then return (true, ← changed)
      else return (false, {}) : Call (Bool × Update)) s).2 (o.growsBare s.diagram) := by
  refine Call.yields_bind_keeps (Call.yields_onDiagram o hf) fun _ => ?_
  split
  · exact keepsDiagram_changed.bind fun _ => Call.keepsDiagram_pure _
  · exact Call.keepsDiagram_pure _

theorem yields_beginRemoveNode (id : NodeId) (s : Session) :
    s.Yields (Session.beginRemoveNode id s).2 false := by
  have hremove : s.Yields (Call.onDiagram (Diagram.removeNode id) s).2 false :=
    Call.yields_onDiagram (.removeNode id) rfl
  unfold Session.beginRemoveNode
  rcases hc : Call.onDiagram (Diagram.removeNode id) s with ⟨r, s₁⟩
  rw [hc] at hremove
  cases r with
  | error e => rwa [Call.bind_error hc]
  | ok held =>
    rw [Call.bind_ok hc, Call.get_bind]
    split
    · exact hremove.trans
        (Call.yields_bind_keeps (yields_reset s₁) fun _ => Call.keepsDiagram_pure _)
    · exact hremove.after
        ((keepsDiagram_changed.bind fun _ => Call.keepsDiagram_pure _).sameGrowth s₁)

theorem yields_choose (e : Endpoint) (id : NodeId) (hs : s.diagram.Orderly) :
    s.Yields (Session.choose e id s).2 false := by
  unfold Session.choose
  have hnode := (Call.keepsDiagram_requireNode id).sameGrowth s
  rcases hc : Call.requireNode id s with ⟨r, s₁⟩
  rw [hc] at hnode
  cases r with
  | error h =>
    rw [Run.bind_error (Run.ofCall_error hc)]
    exact hnode.yields
  | ok n =>
    rw [Run.bind_ok (Run.ofCall_ok hc)]
    refine hnode.yields.trans ?_
    have h₁ := hnode.orderly hs
    show s₁.Yields ((if n.expanded then Run.ofCall (hideCandidates id) else _ : Run _) s₁).2 false
    split
    · rw [Run.ofCall_snd]
      exact yields_hideCandidates id s₁
    split
    · exact (SameGrowth.refl s₁).yields
    split
    · rw [Run.ofCall_snd]
      exact yields_showCandidates id s₁
    split
    · exact (SameGrowth.refl s₁).yields
    refine SameGrowth.yields (Run.sameGrowth_bind h₁ ?_ fun f s₂ _ h₂ => ?_)
    · rw [Run.ofCall_snd]
      exact (keepsDiagram_beginValueFetch id).sameGrowth s₁
    refine Run.sameGrowth_bind h₂ (Run.sameDiagram_await e f s₂).sameGrowth fun r s₃ _ h₃ => ?_
    refine Run.sameGrowth_bind h₃ ?_ fun _ s₄ _ _ => .refl s₄
    rw [Run.ofCall_snd]
    exact sameGrowth_applyValueFetch r s₃

/-! ## Actions -/

/-- Anything that can happen to a session. -/
inductive Action where
  | move (m : Move)
  | run (c : WaitingCall)

namespace Action

def perform : Action → Session → Session
  | move m => fun s => (m.perform s).2
  | run c => c.perform

/-- The action lets a bare negation grow. -/
def growsBare (s : Session) : Action → Bool
  | move (.addChild id index) | move (.beginExpand id index) | run (.expand _ _ id index) =>
    (Operation.expandRelationship id index).growsBare s.diagram
  | move (.beginDiscovery id) => s.discoveryGrows id
  | move (.applyDiscovery r) => s.answerGrows r
  | run (.load e fuel id) => decide (0 < fuel) && s.loadGrows e id
  | _ => false

end Action

theorem yields_move (m : Move) (hs : s.diagram.Orderly) :
    s.Yields (m.perform s).2 (Action.growsBare s (.move m)) := by
  have handing {α : Type} {c : Call α} {grown : Bool} (hc : s.Yields (c s).2 grown)
      (hand : α → Handed) : s.Yields (Move.handing c hand s).2 grown := by
    rwa [handing_snd]
  have keeping {α : Type} {c : Call α} (hc : c.KeepsDiagram) (hand : α → Handed) :
      s.Yields (Move.handing c hand s).2 false := handing (hc.sameGrowth s).yields hand
  have asking (l : Lifecycle) : s.Yields { s with requests := l } false :=
    SameGrowth.yields (SameDiagram.sameGrowth ⟨rfl, rfl⟩)
  cases m with
  | reset => exact handing (yields_reset s) _
  | listen => exact SameGrowth.yields (SameDiagram.sameGrowth ⟨rfl, rfl⟩)
  | unlisten => exact SameGrowth.yields (SameDiagram.sameGrowth ⟨rfl, rfl⟩)
  | placeRoot label anchor =>
    exact handing (yields_replaceDiagram (.addRoot label anchor) (fun _ => rfl) fun _ => rfl) _
  | placeSchema schema anchor =>
    exact handing (yields_replaceDiagram (.addSchema schema anchor) (fun _ => rfl) fun _ => rfl) _
  | addChild id index => exact handing (yields_addChild id index s) _
  | showCandidates id => exact handing (yields_showCandidates id s) _
  | hideCandidates id => exact handing (yields_hideCandidates id s) _
  | nextPage id => exact handing (yields_moved (.nextPage id) rfl) _
  | previousPage id => exact handing (yields_moved (.previousPage id) rfl) _
  | beginCounts => exact keeping keepsDiagram_beginCounts _
  | beginAutoLoad => exact keeping keepsDiagram_beginAutoLoad _
  | beginResults => exact keeping keepsDiagram_beginResults _
  | beginUpdate => exact keeping keepsDiagram_beginUpdate _
  | beginDiscovery id => exact handing (yields_beginDiscovery id s) _
  | beginValueFetch id => exact keeping (keepsDiagram_beginValueFetch id) _
  | beginExpand id index => exact handing (yields_beginExpand id index hs) _
  | beginSelectValue id => exact handing (yields_beginSelectValue id s) _
  | beginRemoveValue id value => exact handing (yields_changedIf (.removeValue id value) rfl) _
  | beginNegate id => exact handing (yields_changedIf (.negate id) rfl) _
  | beginRemoveNode id => exact handing (yields_beginRemoveNode id s) _
  | applyCounts r => exact handing (sameGrowth_applyCounts r s).yields _
  | applyAutoLoad r => exact handing (sameGrowth_applyAutoLoad r s).yields _
  | applyResults r => exact keeping (keepsDiagram_applyResults r) _
  | applyUpdate r => exact handing (sameGrowth_applyUpdate r s).yields _
  | applyDiscovery r => exact handing (yields_applyDiscovery r s) _
  | applyValueFetch r => exact handing (sameGrowth_applyValueFetch r s).yields _
  | settle generation o => exact asking _
  | wait f => exact asking _
  | drop f => exact asking _

theorem yields_waitingCall (c : WaitingCall) (hs : s.diagram.Orderly) :
    s.Yields (c.perform s) (Action.growsBare s (.run c)) := by
  cases c with
  | start e fuel label anchor => exact yields_start e fuel label anchor hs
  | startSchema e schema anchor => exact yields_startSchema e schema anchor hs
  | load e fuel id => exact yields_load e fuel id hs
  | expand e fuel id index => exact yields_expand e fuel id index hs
  | update e => exact (sameGrowth_update e hs).yields
  | choose e id => exact yields_choose e id hs
  | selectValue e id => exact yields_runChange e hs (yields_beginSelectValue id s)
  | removeValue e id value =>
    exact yields_runChange e hs (yields_changedIf (.removeValue id value) rfl)
  | negate e id => exact yields_runChange e hs (yields_changedIf (.negate id) rfl)
  | removeNode e id => exact yields_runChange e hs (yields_beginRemoveNode id s)

theorem yields_perform (a : Action) (hs : s.diagram.Orderly) :
    s.Yields (a.perform s) (a.growsBare s) := by
  cases a with
  | move m => exact yields_move m hs
  | run c => exact yields_waitingCall c hs

/-! ## Sequences of actions -/

/-- What actions lead to, one after the other. -/
def performAll : List Action → Session → Session
  | [], s => s
  | a :: rest, s => performAll rest (a.perform s)

theorem performAll_append (before after : List Action) (s : Session) :
    performAll (before ++ after) s = performAll after (performAll before s) := by
  induction before generalizing s with
  | nil => rfl
  | cons a rest ih => exact ih (a.perform s)

/-- No action lets a bare negation grow when its turn comes. -/
def noneGrowsBare : List Action → Session → Bool
  | [], _ => true
  | a :: rest, s => !a.growsBare s && noneGrowsBare rest (a.perform s)

theorem severed_throughout_from (hs : s.diagram.Orderly) (hsevered : s.diagram.Severed)
    (actions : List Action) :
    (∀ taken, taken <+: actions → (performAll taken s).diagram.Severed) ↔
      noneGrowsBare actions s = true := by
  induction actions generalizing s with
  | nil => simpa [performAll, noneGrowsBare] using hsevered
  | cons a rest ih =>
    have hstep := yields_perform a hs
    rw [noneGrowsBare, Bool.and_eq_true, Bool.not_eq_true', ← hstep.severed hs hsevered]
    constructor
    · intro h
      have hnext := h [a] ⟨rest, rfl⟩
      refine ⟨hnext, (ih (hstep.orderly hs) hnext).1 fun taken ht => ?_⟩
      exact h (a :: taken) (List.cons_prefix_cons.2 ⟨rfl, ht⟩)
    · rintro ⟨hnext, hrest⟩ taken ht
      cases taken with
      | nil => exact hsevered
      | cons b more =>
        obtain ⟨rfl, hmore⟩ := List.cons_prefix_cons.1 ht
        exact (ih (hstep.orderly hs) hnext).2 hrest more hmore

/-- No relation leads away from a bare negation at any time, if and only if no action lets one
grow. -/
theorem severed_throughout_iff (provider : Provider) (settings : QuerySettings)
    (actions : List Action) :
    (∀ taken, taken <+: actions →
      (performAll taken (new provider settings)).diagram.Severed) ↔
      noneGrowsBare actions (new provider settings) = true :=
  severed_throughout_from (Orderly.new _) (severed_new _) actions

/-- Cities expand their relations on their own. -/
def expandingCities : Provider :=
  { Provider.plain with properties := fun label => { autoExpand := label == "City" } }

/-- Someone in a city, which is negated while its relations are on their way. -/
def negatedEarly : List Action :=
  [.move (.placeSchema (.node "Person" []
      [{ label := "LIVES_IN", target := .node "City" [] [] false }] false) none),
    .move (.beginDiscovery ⟨1⟩), .move (.beginNegate ⟨1⟩)]

/-- The relations arrive. -/
def arrival : Action :=
  .move (.applyDiscovery ⟨.relations, 1, ⟨1⟩, .completed
    [[Table.ofList [("label", .str "IN"), ("target", .str "Country")]]]⟩)

/-- The city of which there is none is in a country all the same. -/
theorem not_severed_of_arrival :
    noneGrowsBare negatedEarly (new expandingCities {}) = true ∧
      (performAll (negatedEarly ++ [arrival]) (new expandingCities {})).diagram.children ⟨1⟩ =
        [⟨2⟩] ∧
      ¬ ∀ actions, (performAll actions (new expandingCities {})).diagram.Severed := by
  refine ⟨by decide +kernel, by decide +kernel, fun h => ?_⟩
  have hsevered := h (negatedEarly ++ [arrival])
  revert hsevered
  decide +kernel

end Session

end PatternQuery
