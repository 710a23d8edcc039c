import Mathlib.Logic.Relation
import PatternQuery.Proofs.Session.World

/-!
# Calls that wait

A call that waits for answers is put together from moves (`World.Sound.exists_moves`), so whatever
holds after every move holds while it waits as well. `World.Reachable` is what moves and such calls
lead to from a new session, in any order.
-/

namespace PatternQuery

/-- Relations that are loaded for a node are stored on a node of the query, if they are stored at
all: at once, or when the endpoint has answered. -/
structure Session.Loads (s : Session) (e : Endpoint) (id : NodeId) : Prop where
  schema : s.SparesSchema id
  answer : ∀ f s₁ r s₂, Session.beginDiscovery id s = (.ok (.pending f), s₁) →
    Run.await e f s₁ = (.ok r, s₂) → (s₂.requests.acceptDiscovery r).1 = true → s₂.Spares r.context

/-- A call that waits for answers, the endpoint given. -/
inductive WaitingCall where
  | start (e : Endpoint) (fuel : Nat) (label : String) (anchor : Option Position)
  | startSchema (e : Endpoint) (schema : Schema) (anchor : Option Position)
  | load (e : Endpoint) (fuel : Nat) (id : NodeId)
  | expand (e : Endpoint) (fuel : Nat) (id : NodeId) (index : Nat)
  | update (e : Endpoint)
  | choose (e : Endpoint) (id : NodeId)
  | selectValue (e : Endpoint) (id : NodeId)
  | removeValue (e : Endpoint) (id value : NodeId)
  | negate (e : Endpoint) (id : NodeId)
  | removeNode (e : Endpoint) (id : NodeId)

namespace WaitingCall

def perform : WaitingCall → Session → Session
  | start e fuel label anchor => fun s => (Session.start e fuel label anchor s).2
  | startSchema e schema anchor => fun s => (Session.startSchema e schema anchor s).2
  | load e fuel id => fun s => (Session.loadAll e fuel [id] s).2
  | expand e fuel id index => fun s => (Session.expand e fuel id index s).2
  | update e => fun s => (Session.update e s).2
  | choose e id => fun s => (Session.choose e id s).2
  | selectValue e id => fun s => (Session.selectValue e id s).2
  | removeValue e id value => fun s => (Session.removeValue e id value s).2
  | negate e id => fun s => (Session.negate e id s).2
  | removeNode e id => fun s => (Session.removeNode e id s).2

/-- Relations are loaded for nodes of the query. -/
def Admissible (s : Session) : WaitingCall → Prop
  | load e _ id => s.Loads e id
  | _ => True

end WaitingCall

namespace Run

variable {α β : Type} {s s' : Session}

theorem bind_ok {r : Run α} {f : α → Run β} {a : α} (h : r s = (.ok a, s')) :
    (r >>= f) s = f a s' := by
  show Run.bind r f s = _
  rw [Run.bind, h]

theorem bind_error {r : Run α} {f : α → Run β} {e : Halt} (h : r s = (.error e, s')) :
    (r >>= f) s = (.error e, s') := by
  show Run.bind r f s = _
  rw [Run.bind, h]

theorem ofCall_ok {c : Call α} {a : α} (h : c s = (.ok a, s')) : ofCall c s = (.ok a, s') := by
  rw [ofCall, h]

theorem ofCall_error {c : Call α} {e : GraphError} (h : c s = (.error e, s')) :
    ofCall c s = (.error (.refused e), s') := by
  rw [ofCall, h]

theorem of_ofCall_ok {c : Call α} {a : α} (h : ofCall c s = (.ok a, s')) : c s = (.ok a, s') := by
  rcases hc : c s with ⟨r, s₁⟩
  cases r with
  | error e =>
    rw [ofCall_error hc] at h
    cases h
  | ok b =>
    rw [ofCall_ok hc] at h
    cases h
    rfl

end Run

namespace World

open Session

variable {w w' w'' : World} {α β κ : Type}

/-- One move after another. -/
def MovesTo : World → World → Prop :=
  Relation.ReflTransGen fun w w' => ∃ m : Move, m.Admissible w ∧ w' = w.act m

theorem MovesTo.refl (w : World) : w.MovesTo w := Relation.ReflTransGen.refl

theorem MovesTo.trans (h : w.MovesTo w') (h' : w'.MovesTo w'') : w.MovesTo w'' :=
  Relation.ReflTransGen.trans h h'

theorem MovesTo.act (h : w.MovesTo w') (m : Move) (hm : m.Admissible w') : w.MovesTo (w'.act m) :=
  Relation.ReflTransGen.tail h ⟨m, hm, rfl⟩

theorem MovesTo.sound (h : w.MovesTo w') (hw : w.Sound) :
    w'.Sound ∧ w.session.Evolves w'.session := by
  induction h with
  | refl => exact ⟨hw, .refl hw.valid⟩
  | tail _ hstep ih =>
    obtain ⟨m, hm, rfl⟩ := hstep
    exact ⟨ih.1.act m hm, ih.2.trans (ih.1.leadsTo m hm).evolves⟩

/-- What was handed out stays so. -/
theorem MovesTo.handed (h : w.MovesTo w') : w.handed.lists ⊆ w'.handed.lists ∧
    w.handed.flags ⊆ w'.handed.flags ∧ w.handed.nodes ⊆ w'.handed.nodes := by
  induction h with
  | refl => exact ⟨fun _ h => h, fun _ h => h, fun _ h => h⟩
  | tail _ hstep ih =>
    obtain ⟨m, -, rfl⟩ := hstep
    obtain ⟨hlists, hflags, hnodes⟩ := ih
    exact ⟨fun f hf => List.mem_append_left _ (hlists hf),
      fun f hf => List.mem_append_left _ (hflags hf),
      fun f hf => List.mem_append_left _ (hnodes hf)⟩

theorem Awaits.mono {fs gs : List (Fetch κ)} {r : Fetched κ} (h : Awaits fs r) (hs : fs ⊆ gs) :
    Awaits gs r := by
  obtain ⟨f, hf, ha⟩ := h
  exact ⟨f, hs hf, ha⟩

/-! ## Runs as moves -/

/-- Moves lead from a world to where an operation that waits leads, and `Q` holds there unless it
was given up. -/
def Through (w : World) (r : Run α) (Q : α → World → Prop) : Prop :=
  ∃ w', w.MovesTo w' ∧ w'.session = (r w.session).2 ∧ ∀ a, (r w.session).1 = .ok a → Q a w'

theorem Through.pure {a : α} {Q : α → World → Prop} (h : Q a w) : w.Through (Pure.pure a) Q := by
  refine ⟨w, .refl w, rfl, fun b hb => ?_⟩
  rwa [← Except.ok.inj hb]

theorem Through.halt {Q : α → World → Prop} (h : Halt) : w.Through (Run.halt h) Q :=
  ⟨w, .refl w, rfl, fun _ hb => by simp [Run.halt] at hb⟩

theorem Through.bind {r : Run α} {f : α → Run β} {Q : α → World → Prop} {Q' : β → World → Prop}
    (h : w.Through r Q) (hf : ∀ a w', w.MovesTo w' → Q a w' → w'.Through (f a) Q') :
    w.Through (r >>= f) Q' := by
  obtain ⟨w', hm, hs, hq⟩ := h
  rcases hr : r w.session with ⟨res, s'⟩
  rw [hr] at hs hq
  cases res with
  | error e =>
    have he : (r >>= f) w.session = (.error e, s') := Run.bind_error hr
    refine ⟨w', hm, by rw [he, hs], fun b hb => ?_⟩
    rw [he] at hb
    simp at hb
  | ok a =>
    have he : (r >>= f) w.session = f a w'.session := by
      rw [Run.bind_ok hr, hs]
    obtain ⟨w'', hm', hs', hq'⟩ := hf a w' hm (hq a rfl)
    refine ⟨w'', hm.trans hm', by rw [he, hs'], fun b hb => ?_⟩
    rw [he] at hb
    exact hq' b hb

theorem Through.imp {r : Run α} {Q Q' : α → World → Prop} (h : w.Through r Q)
    (hq : ∀ a w', w.MovesTo w' → Q a w' → Q' a w') : w.Through r Q' := by
  obtain ⟨w', hm, hs, h⟩ := h
  exact ⟨w', hm, hs, fun a ha => hq a w' hm (h a ha)⟩

theorem Through.result {r : Run α} {Q : α → World → Prop} (h : w.Through r Q) :
    w.Through r fun a w' => Q a w' ∧ r w.session = (.ok a, w'.session) := by
  obtain ⟨w', hm, hs, h⟩ := h
  exact ⟨w', hm, hs, fun a ha => ⟨h a ha, Prod.ext ha hs.symm⟩⟩

theorem Through.get_bind {f : Session → Run β} {Q : β → World → Prop}
    (h : w.Through (f w.session) Q) : w.Through (Run.ofCall Call.get >>= f) Q := h

theorem Through.requireNode_bind {id : NodeId} {f : Node → Run β} {Q : β → World → Prop}
    (h : ∀ n, w.session.diagram.node? id = some n → w.Through (f n) Q) :
    w.Through (Run.ofCall (Call.requireNode id) >>= f) Q := by
  cases hn : w.session.diagram.node? id with
  | some n =>
    unfold Through
    rw [Run.bind_ok (Run.ofCall_ok (Call.requireNode_eq hn))]
    exact h n hn
  | none =>
    have he : (Run.ofCall (Call.requireNode id) >>= f) w.session =
        (.error (.refused (.nodeNotFound id)), w.session) :=
      Run.bind_error (Run.ofCall_error (by rw [Call.requireNode, hn]))
    refine ⟨w, .refl w, by rw [he], fun b hb => ?_⟩
    rw [he] at hb
    simp at hb

/-- A call that is a move. -/
theorem Through.ofCall {c : Call α} (m : Move) {hand : α → Handed} (hm : m.Admissible w)
    (hp : m.perform w.session = Move.handing c hand w.session) :
    w.Through (Run.ofCall c) fun a w' => c w.session = (.ok a, w'.session) ∧
      w'.handed = w.handed.append (hand a) := by
  refine ⟨w.act m, (MovesTo.refl w).act m hm, ?_, fun a ha => ?_⟩
  · rcases hc : c w.session with ⟨res, s'⟩
    cases res with
    | error e => simp [act, hp, Move.handing, Run.ofCall, hc]
    | ok a => simp [act, hp, Move.handing, Run.ofCall, hc]
  · have hc := Run.of_ofCall_ok (Prod.ext ha rfl)
    simp [act, hp, Move.handing, hc]

/-! ## Waiting -/

theorem movesTo_consult (w : World) (e : Endpoint) (g : Nat) : ∃ w', w.MovesTo w' ∧
    w'.session = { w.session with requests := w.session.requests.consult e g } := by
  unfold Lifecycle.consult
  split
  · split
    · rename_i o _
      exact ⟨w.act (.settle g o), (MovesTo.refl w).act _ trivial, rfl⟩
    · exact ⟨w, .refl w, rfl⟩
  · exact ⟨w, .refl w, rfl⟩

/-- A request about nothing in particular under the generation of another one. -/
def bare (f : Fetch κ) : Fetch NodeId :=
  { concern := f.concern, generation := f.generation, context := ⟨0⟩, guarded := f.guarded }

theorem wait_bare (f : Fetch κ) (l : Lifecycle) : (l.wait (bare f)).2 = (l.wait f).2 := by
  cases h : (l.flight? f.generation).bind Flight.outcome with
  | none => simp [Lifecycle.wait, bare, h]
  | some o =>
    simp only [Lifecycle.wait, bare, h]
    rfl

theorem answers_of_wait {f : Fetch κ} {r : Fetched κ} {l l' : Lifecycle}
    (h : l.wait f = (some r, l')) : r.Answers f := by
  unfold Lifecycle.wait at h
  split at h
  · simp at h
  · obtain ⟨hr, -⟩ := Prod.mk.inj h
    rw [← Option.some.inj hr]
    exact ⟨rfl, rfl, rfl⟩

theorem Through.await (w : World) (e : Endpoint) (f : Fetch κ) :
    w.Through (Run.await e f) fun r _ => r.Answers f := by
  obtain ⟨w₁, hm₁, hs₁⟩ := movesTo_consult w e f.generation
  have hm₂ := hm₁.act (.wait (bare f)) trivial
  have hs₂ : (w₁.act (.wait (bare f))).session = { w.session with
      requests := ((w.session.requests.consult e f.generation).wait f).2 } := by
    show { w₁.session with requests := (w₁.session.requests.wait (bare f)).2 } = _
    rw [wait_bare, hs₁]
  rcases hr : (w.session.requests.consult e f.generation).wait f with ⟨r, l⟩
  rw [hr] at hs₂
  cases r with
  | some r =>
    refine ⟨_, hm₂, by rw [hs₂]; simp [Run.await, hr], fun a ha => ?_⟩
    obtain rfl : r = a := by simpa [Run.await, hr] using ha
    exact answers_of_wait hr
  | none =>
    refine ⟨_, hm₂.act (.drop (bare f)) trivial, ?_, fun a ha => by simp [Run.await, hr] at ha⟩
    show Session.mk _ _ ((w₁.act (.wait (bare f))).session.requests.drop (bare f)) _ _ _ _ _ = _
    rw [hs₂]
    simp [Run.await, hr]
    rfl

theorem Through.awaitIfAny (w : World) (e : Endpoint) (o : Option (Fetch κ)) :
    w.Through (Run.awaitIfAny e o) fun a _ => ∀ r, a = some r → ∃ f, o = some f ∧ r.Answers f := by
  cases o with
  | none => exact Through.pure (by simp)
  | some f =>
    refine (Through.await w e f).bind fun r w' _ hr => Through.pure fun r' hr' => ?_
    obtain rfl := Option.some.inj hr'
    exact ⟨f, rfl, hr⟩

/-! ## Updates -/

/-- The parts of an update were handed out. -/
structure Hands (w : World) (u : Update) : Prop where
  counts : ∀ f, u.counts = some f → f ∈ w.handed.lists
  autoLoad : ∀ f, u.autoLoad = some f → f ∈ w.handed.lists
  results : ∀ f, u.results = some f → f ∈ w.handed.flags

theorem hands_of_append {u : Update} {h : Handed} (hw : w'.handed = h.append (.ofUpdate u)) :
    w'.Hands u := by
  constructor
  · intro f hf
    simp [hw, Handed.append, Handed.ofUpdate, hf]
  · intro f hf
    simp [hw, Handed.append, Handed.ofUpdate, hf]
  · intro f hf
    simp [hw, Handed.append, Handed.ofUpdate, hf]

theorem Through.finishUpdate (w : World) (e : Endpoint) {u : Update} (hu : w.Hands u) :
    w.Through (Session.finishUpdate e u) fun _ _ => True := by
  unfold Session.finishUpdate
  split
  · exact Through.pure trivial
  · refine (Through.awaitIfAny w e u.counts).bind fun counts w₁ hm₁ hcounts => ?_
    refine (Through.awaitIfAny w₁ e u.autoLoad).bind fun autoLoad w₂ hm₂ hautoLoad => ?_
    refine (Through.awaitIfAny w₂ e u.results).bind fun results w₃ hm₃ hresults => ?_
    obtain ⟨hlists, hflags, -⟩ := ((hm₁.trans hm₂).trans hm₃).handed
    refine (Through.ofCall (.applyUpdate ⟨counts, autoLoad, results⟩) ⟨?_, ?_, ?_⟩ rfl).imp
      fun _ _ _ _ => trivial
    · intro r hr
      obtain ⟨f, hf, ha⟩ := hcounts r hr
      exact ⟨f, hlists (hu.counts f hf), ha⟩
    · intro r hr
      obtain ⟨f, hf, ha⟩ := hautoLoad r hr
      exact ⟨f, hlists (hu.autoLoad f hf), ha⟩
    · intro r hr
      obtain ⟨f, hf, ha⟩ := hresults r hr
      exact ⟨f, hflags (hu.results f hf), ha⟩

theorem Through.update (w : World) (e : Endpoint) :
    w.Through (Session.update e) fun _ _ => True := by
  refine (Through.ofCall .beginUpdate trivial rfl).bind fun u w₁ _ ⟨_, hw₁⟩ => ?_
  exact (Through.finishUpdate w₁ e (hands_of_append hw₁)).bind fun _ _ _ _ => Through.pure trivial

/-- A change is followed by its update. -/
theorem Through.runChange (w : World) (e : Endpoint) {c : Call (α × Update)} (m : Move)
    (hm : m.Admissible w)
    (hp : m.perform w.session = Move.handing c (fun a => .ofUpdate a.2) w.session) :
    w.Through (Session.runChange e c) fun _ _ => True := by
  refine (Through.ofCall m hm hp).bind fun a w₁ _ ⟨_, hw₁⟩ => ?_
  exact (Through.finishUpdate w₁ e (hands_of_append hw₁)).bind fun _ _ _ _ => Through.pure trivial

/-! ## Relations -/

theorem of_await_ok {e : Endpoint} {f : Fetch κ} {r : Fetched κ} {s s' : Session}
    (h : Run.await e f s = (.ok r, s')) : r.Answers f ∧ s'.diagram = s.diagram := by
  unfold Run.await at h
  split at h
  · rename_i hwait
    obtain ⟨hr, rfl⟩ := Prod.mk.inj h
    rw [← Except.ok.inj hr]
    exact ⟨answers_of_wait hwait, rfl⟩
  · simp at h

/-- Relations may be loaded for every node that is known to be one of the query. -/
theorem loads_of_knows {s : Session} (hs : s.Valid) {id : NodeId} (hid : s.diagram.Knows id)
    (e : Endpoint) : s.Loads e id where
  schema := (spares_of_knows hid).schema
  answer f s₁ r s₂ hbegin hawait _ := by
    have he := hs.evolves_beginDiscovery (spares_of_knows hid).schema
    rw [hbegin] at he
    obtain ⟨ha, hd⟩ := of_await_ok hawait
    rw [ha.context, context_of_beginDiscovery hbegin]
    refine spares_of_knows ?_
    rw [hd]
    exact he.diagram.knows hid

theorem Through.loadAll {w : World} (hw : w.Sound) {e : Endpoint} {fuel : Nat} {id : NodeId}
    {rest : List NodeId} (hid : w.session.Loads e id) (hrest : w.session.KnowsAll rest) :
    w.Through (Session.loadAll e fuel (id :: rest)) fun _ _ => True := by
  induction fuel generalizing w id rest with
  | zero => exact Through.halt _
  | succ fuel ih =>
    have hnext {w' : World} (hm : w.MovesTo w') {children : List NodeId}
        (hc : w'.session.KnowsAll children) :
        w'.Through (Session.loadAll e fuel (children.reverse ++ rest)) fun _ _ => True := by
      obtain ⟨hw', he⟩ := hm.sound hw
      have hall : w'.session.KnowsAll (children.reverse ++ rest) := by
        intro x hx
        rcases List.mem_append.1 hx with hx | hx
        · exact hc x (List.mem_reverse.1 hx)
        · exact he.diagram.knows (hrest x hx)
      cases hids : children.reverse ++ rest with
      | nil => 
        rw [Session.loadAll]
        exact Through.pure trivial
      | cons x xs =>
        rw [hids] at hall
        have hx := loads_of_knows hw'.valid (hall x (by simp)) e
        exact ih hw' hx fun y hy => hall y (by simp [hy])
    rw [Session.loadAll]
    refine (Through.ofCall (.beginDiscovery id) hid.schema rfl).bind fun d w₁ hm₁ ⟨hd, hw₁⟩ => ?_
    cases d with
    | loaded children =>
      exact hnext hm₁ ((hasAll_beginDiscovery hd).knowsAll (hm₁.sound hw).1.valid)
    | pending f =>
      refine (Through.await w₁ e f).result.bind fun r w₂ hm₂ ⟨ha, hr⟩ => ?_
      obtain ⟨hw₂, -⟩ := (hm₁.trans hm₂).sound hw
      have haccept := hid.answer f w₁.session r w₂.session hd hr
      have hnodes : f ∈ w₂.handed.nodes := hm₂.handed.2.2 (by
        rw [hw₁]
        exact List.mem_append_right _ (List.mem_singleton.2 rfl))
      refine (Through.ofCall (.applyDiscovery r) ⟨⟨f, hnodes, ha⟩, haccept⟩ rfl).bind
        fun children w₃ hm₃ ⟨hc, _⟩ => ?_
      have hm := (hm₁.trans hm₂).trans hm₃
      exact hnext hm ((hasAll_applyDiscovery hc).knowsAll (hm.sound hw).1.valid)

/-! ## New queries and children -/

theorem Through.start {w : World} (hw : w.Sound) (e : Endpoint) (fuel : Nat) (label : String)
    (anchor : Option Position) : w.Through (Session.start e fuel label anchor) fun _ _ => True := by
  refine Through.get_bind ?_
  refine (Through.ofCall (.placeRoot label anchor) trivial rfl).bind
    fun root w₂ hm₂ ⟨hroot, _⟩ => ?_
  obtain ⟨hw₂, -⟩ := hm₂.sound hw
  obtain ⟨d, rfl, hd⟩ := of_replaceDiagram_ok hroot
  have hknows : w₂.session.diagram.Knows _ := (hd ▸ Diagram.isQueryNode_addRoot
    w.session.compiler.provider label anchor d).knows hw₂.valid.diagram.toNumbered
  refine (Through.loadAll hw₂ (loads_of_knows hw₂.valid hknows e) (knowsAll_nil _)).bind
    fun _ w₃ _ _ => ?_
  exact (Through.update w₃ e).bind fun _ _ _ _ => Through.pure trivial

theorem Through.startSchema (w : World) (e : Endpoint) (schema : Schema)
    (anchor : Option Position) :
    w.Through (Session.startSchema e schema anchor) fun _ _ => True := by
  refine Through.get_bind ?_
  refine (Through.ofCall (.placeSchema schema anchor) trivial rfl).bind fun root w₂ _ _ => ?_
  exact (Through.update w₂ e).bind fun _ _ _ _ => Through.pure trivial

theorem Through.expand {w : World} (hw : w.Sound) (e : Endpoint) (fuel : Nat) (id : NodeId)
    (index : Nat) : w.Through (Session.expand e fuel id index) fun _ _ => True := by
  refine Through.get_bind ?_
  refine (Through.ofCall (.addChild id index) trivial rfl).bind fun child w₂ hm₂ ⟨hchild, _⟩ => ?_
  obtain ⟨hw₂, -⟩ := hm₂.sound hw
  have hknows := (isQueryNode_addChild hchild).knows hw₂.valid.diagram.toNumbered
  refine (Through.loadAll hw₂ (loads_of_knows hw₂.valid hknows e) (knowsAll_nil _)).bind
    fun _ w₃ _ _ => ?_
  exact (Through.update w₃ e).bind fun _ _ _ _ => Through.pure trivial

/-! ## Candidates -/

theorem Through.choose {w : World} (hw : w.Sound) (e : Endpoint) (id : NodeId) :
    w.Through (Session.choose e id) fun _ _ => True := by
  refine Through.requireNode_bind fun node hnode => ?_
  refine Through.get_bind ?_
  split
  · exact (Through.ofCall (.hideCandidates id) trivial rfl).imp fun _ _ _ _ => trivial
  split
  · exact Through.pure trivial
  rename_i hkind
  split
  · exact (Through.ofCall (.showCandidates id) trivial rfl).imp fun _ _ _ _ => trivial
  split
  · exact Through.pure trivial
  have hquery : w.session.diagram.IsQueryNode id := by
    refine ⟨node, Diagram.mem_of_node? hnode, Diagram.id_of_node? hnode, fun hk => hkind ?_⟩
    simp [hk]
  have hknows := hquery.knows hw.valid.diagram.toNumbered
  refine (Through.ofCall (.beginValueFetch id) trivial rfl).bind fun f w₂ hm₂ ⟨hf, hw₂⟩ => ?_
  refine (Through.await w₂ e f).bind fun r w₃ hm₃ ha => ?_
  have hnodes : f ∈ w₃.handed.nodes := hm₃.handed.2.2 (by
    rw [hw₂]
    exact List.mem_append_right _ (List.mem_singleton.2 rfl))
  have hspares : w₃.session.Spares r.context := by
    rw [ha.context, context_of_beginValueFetch hf]
    exact spares_of_knows (((hm₂.trans hm₃).sound hw).2.diagram.knows hknows)
  exact (Through.ofCall (.applyValueFetch r) ⟨⟨f, hnodes, ha⟩, fun _ => hspares⟩ rfl).bind
    fun _ _ _ _ => Through.pure trivial

/-! ## All calls that wait -/

theorem Through.exists_moves {r : Run α} {Q : α → World → Prop} (h : w.Through r Q) :
    ∃ w', w.MovesTo w' ∧ w'.session = (r w.session).2 := by
  obtain ⟨w', hm, hs, -⟩ := h
  exact ⟨w', hm, hs⟩

/-- A call that waits is made of moves, so what holds after every move holds all the time. -/
theorem Sound.exists_moves (hw : w.Sound) (c : WaitingCall) (hc : c.Admissible w.session) :
    ∃ w', w.MovesTo w' ∧ w'.session = c.perform w.session := by
  cases c with
  | start e fuel label anchor => exact (Through.start hw e fuel label anchor).exists_moves
  | startSchema e schema anchor => exact (Through.startSchema w e schema anchor).exists_moves
  | load e fuel id => exact (Through.loadAll hw hc (knowsAll_nil _)).exists_moves
  | expand e fuel id index => exact (Through.expand hw e fuel id index).exists_moves
  | update e => exact (Through.update w e).exists_moves
  | choose e id => exact (Through.choose hw e id).exists_moves
  | selectValue e id =>
    exact (Through.runChange w e (.beginSelectValue id) trivial rfl).exists_moves
  | removeValue e id value =>
    exact (Through.runChange w e (.beginRemoveValue id value) trivial rfl).exists_moves
  | negate e id => exact (Through.runChange w e (.beginNegate id) trivial rfl).exists_moves
  | removeNode e id => exact (Through.runChange w e (.beginRemoveNode id) trivial rfl).exists_moves

/-! ## Reachable worlds -/

/-- A move, or a call that waits. What such a call issues and gives up is handed to no one. -/
inductive Step : World → World → Prop where
  | move {w : World} (m : Move) (hm : m.Admissible w) : Step w (w.act m)
  | run {w : World} (c : WaitingCall) (hc : c.Admissible w.session) :
    Step w { w with session := c.perform w.session }

/-- One step after another. -/
def Leads : World → World → Prop := Relation.ReflTransGen Step

theorem MovesTo.leads (h : w.MovesTo w') : w.Leads w' := by
  induction h with
  | refl => exact .refl
  | tail _ hstep ih =>
    obtain ⟨m, hm, rfl⟩ := hstep
    exact .tail ih (.move m hm)

/-- A world that steps lead to from a new session. -/
def Reachable (w : World) : Prop := ∃ provider settings, (World.new provider settings).Leads w

theorem Step.sound (h : w.Step w') (hw : w.Sound) : w'.Sound ∧ w.session.Evolves w'.session := by
  cases h with
  | move m hm => exact ⟨hw.act m hm, (hw.leadsTo m hm).evolves⟩
  | run c hc =>
    obtain ⟨w₁, hm, hs⟩ := hw.exists_moves c hc
    obtain ⟨hw₁, he⟩ := hm.sound hw
    rw [hs] at he
    exact ⟨⟨he.valid, hw.backs.evolves hw.valid he⟩, he⟩

theorem Leads.sound (h : w.Leads w') (hw : w.Sound) : w'.Sound ∧ w.session.Evolves w'.session := by
  induction h with
  | refl => exact ⟨hw, .refl hw.valid⟩
  | tail _ hstep ih =>
    obtain ⟨hsound, he⟩ := hstep.sound ih.1
    exact ⟨hsound, ih.2.trans he⟩

theorem Reachable.sound (h : w.Reachable) : w.Sound := by
  obtain ⟨provider, settings, h⟩ := h
  exact (h.sound (.new provider settings)).1

theorem Reachable.leads (h : w.Reachable) (h' : w.Leads w') : w'.Reachable := by
  obtain ⟨provider, settings, h⟩ := h
  exact ⟨provider, settings, h.trans h'⟩

theorem Reachable.act (h : w.Reachable) (m : Move) (hm : m.Admissible w) : (w.act m).Reachable :=
  h.leads (.single (.move m hm))

end World

end PatternQuery
