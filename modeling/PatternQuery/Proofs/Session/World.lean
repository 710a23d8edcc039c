import PatternQuery.Proofs.Session.Changing

/-!
# Runs of a session

A `World` is a session with all requests that it has handed out. A `Move` is a call of a session,
one of the pieces that calls which wait are put together from, or what the endpoint does; answers
are merged in any order, any number of times, and whatever came of them. Every request that was
handed out is backed by the session (`Session.Backs`), and moves keep that (`World.Sound.act`).
-/

namespace PatternQuery

/-! ## Requests that were handed out -/

/-- Requests that a session handed out, by what they were issued for. -/
structure Handed where
  updates : List Update := []
  lists : List (Fetch (List NodeId)) := []
  flags : List (Fetch Bool) := []
  nodes : List (Fetch NodeId) := []

namespace Handed

def append (g h : Handed) : Handed where
  updates := g.updates ++ h.updates
  lists := g.lists ++ h.lists
  flags := g.flags ++ h.flags
  nodes := g.nodes ++ h.nodes

/-- What an update hands out, part by part too. -/
def ofUpdate (u : Update) : Handed where
  updates := [u]
  lists := u.counts.toList ++ u.autoLoad.toList
  flags := u.results.toList

def ofDiscovery : Discovery → Handed
  | .loaded _ => {}
  | .pending f => { nodes := [f] }

end Handed

/-- An answer to a request, whatever came of it. -/
structure Fetched.Answers {κ : Type} (r : Fetched κ) (f : Fetch κ) : Prop where
  concern : r.concern = f.concern
  generation : r.generation = f.generation
  context : r.context = f.context

/-! ## Moves -/

/-- Adds a child along a segment, without any request. -/
def Session.addChild (id : NodeId) (index : Nat) : Call NodeId := do
  let s ← Call.get
  let child ← Call.onDiagram (Diagram.expandRelationship s.compiler.provider id index)
  Call.emit .graphChanged
  return child

inductive Move where
  | reset
  | listen
  | unlisten
  | placeRoot (label : String) (anchor : Option Position)
  | placeSchema (schema : Schema) (anchor : Option Position)
  | addChild (id : NodeId) (index : Nat)
  | showCandidates (id : NodeId)
  | hideCandidates (id : NodeId)
  | nextPage (id : NodeId)
  | previousPage (id : NodeId)
  | beginCounts
  | beginAutoLoad
  | beginResults
  | beginUpdate
  | beginDiscovery (id : NodeId)
  | beginValueFetch (id : NodeId)
  | beginExpand (id : NodeId) (index : Nat)
  | beginSelectValue (id : NodeId)
  | beginRemoveValue (id value : NodeId)
  | beginNegate (id : NodeId)
  | beginRemoveNode (id : NodeId)
  | applyCounts (r : Fetched (List NodeId))
  | applyAutoLoad (r : Fetched (List NodeId))
  | applyResults (r : Fetched Bool)
  | applyUpdate (r : UpdateFetched)
  | applyDiscovery (r : Fetched NodeId)
  | applyValueFetch (r : Fetched NodeId)
  /-- The endpoint is done with a batch. -/
  | settle (generation : Nat) (o : Outcome)
  /-- A request is waited for; this matters to those that hold the guard only. -/
  | wait (f : Fetch NodeId)
  | drop (f : Fetch NodeId)

namespace Move

variable {α : Type}

/-- A call and what it hands out, nothing if it is refused. -/
def handing (c : Call α) (hand : α → Handed) (s : Session) : Handed × Session :=
  match c s with
  | (.ok a, s) => (hand a, s)
  | (.error _, s) => ({}, s)

/-- A call that hands out nothing. -/
def silent (c : Call α) : Session → Handed × Session := handing c fun _ => {}

def perform : Move → Session → Handed × Session
  | reset => silent Session.reset
  | listen => fun s => ({}, s.listen)
  | unlisten => fun s => ({}, s.unlisten)
  | placeRoot label anchor => fun s =>
    silent (Session.replaceDiagram (Diagram.addRoot s.compiler.provider label anchor)) s
  | placeSchema schema anchor => fun s =>
    silent (Session.replaceDiagram (Diagram.addSchema s.compiler.provider schema anchor)) s
  | addChild id index => silent (Session.addChild id index)
  | showCandidates id => silent (Session.showCandidates id)
  | hideCandidates id => silent (Session.hideCandidates id)
  | nextPage id => silent (Session.nextPage id)
  | previousPage id => silent (Session.previousPage id)
  | beginCounts => handing Session.beginCounts fun f => { lists := f.toList }
  | beginAutoLoad => handing Session.beginAutoLoad fun f => { lists := f.toList }
  | beginResults => handing Session.beginResults fun f => { flags := f.toList }
  | beginUpdate => handing Session.beginUpdate Handed.ofUpdate
  | beginDiscovery id => handing (Session.beginDiscovery id) Handed.ofDiscovery
  | beginValueFetch id => handing (Session.beginValueFetch id) fun f => { nodes := [f] }
  | beginExpand id index => handing (Session.beginExpand id index) fun (_, discovery, u) =>
    (Handed.ofDiscovery discovery).append (.ofUpdate u)
  | beginSelectValue id => handing (Session.beginSelectValue id) fun (_, u) => .ofUpdate u
  | beginRemoveValue id value =>
    handing (Session.beginRemoveValue id value) fun (_, u) => .ofUpdate u
  | beginNegate id => handing (Session.beginNegate id) fun (_, u) => .ofUpdate u
  | beginRemoveNode id => handing (Session.beginRemoveNode id) fun (_, u) => .ofUpdate u
  | applyCounts r => silent (Session.applyCounts r)
  | applyAutoLoad r => silent (Session.applyAutoLoad r)
  | applyResults r => silent (Session.applyResults r)
  | applyUpdate r => silent (Session.applyUpdate r)
  | applyDiscovery r => silent (Session.applyDiscovery r)
  | applyValueFetch r => silent (Session.applyValueFetch r)
  | settle generation o => fun s => ({}, { s with requests := s.requests.settle generation o })
  | wait f => fun s => ({}, { s with requests := (s.requests.wait f).2 })
  | drop f => fun s => ({}, { s with requests := s.requests.drop f })

end Move

/-- A session with what it has handed out so far. -/
structure World where
  session : Session
  handed : Handed := {}

namespace World

def new (provider : Provider) (settings : QuerySettings) : World :=
  { session := .new provider settings }

def act (w : World) (m : Move) : World :=
  let (handed, session) := m.perform w.session
  { session, handed := w.handed.append handed }

/-- An answer to a request for a list of nodes that was handed out, and so on. -/
def Awaits {κ : Type} (fetches : List (Fetch κ)) (r : Fetched κ) : Prop :=
  ∃ f ∈ fetches, r.Answers f

end World

/-- Answers belong to requests that were handed out, and relations and candidates are stored on
nodes of the query alone. -/
def Move.Admissible (w : World) : Move → Prop
  | beginDiscovery id => w.session.SparesSchema id
  | applyCounts r | applyAutoLoad r => World.Awaits w.handed.lists r
  | applyResults r => World.Awaits w.handed.flags r
  | applyUpdate r => (∀ f, r.counts = some f → World.Awaits w.handed.lists f) ∧
    (∀ f, r.autoLoad = some f → World.Awaits w.handed.lists f) ∧
    ∀ f, r.results = some f → World.Awaits w.handed.flags f
  | applyDiscovery r => World.Awaits w.handed.nodes r ∧
    ((w.session.requests.acceptDiscovery r).1 = true → w.session.Spares r.context)
  | applyValueFetch r => World.Awaits w.handed.nodes r ∧
    ((w.session.requests.accept r).1 = true → w.session.Spares r.context)
  | _ => True

/-! ## What was handed out is backed -/

namespace Session

/-- A request for counts or for candidates of nodes on their own. If it is live and for counts, it
asks what the diagram asks. -/
structure BacksList (s : Session) (f : Fetch (List NodeId)) : Prop where
  concern : f.concern = .count ∨ f.concern = .autoLoad
  generation : f.generation ≤ s.requests.generation
  knows : ∀ id ∈ f.context, s.diagram.Knows id
  current : s.compiler.provider.Local → f.concern = .count →
    s.requests.slots.count = some f.generation → s.CountsCurrent f.generation f.context

/-- A request for results. If it is live, it asks what the diagram asks. -/
structure BacksFlag (s : Session) (f : Fetch Bool) : Prop where
  concern : f.concern = .results
  generation : f.generation ≤ s.requests.generation
  current : s.compiler.provider.Local → s.requests.slots.results = some f.generation →
    s.ResultsCurrent f.generation f.context

/-- What was handed out is backed, and so are the parts of updates, each for its concern. -/
structure Backs (s : Session) (h : Handed) : Prop where
  lists : ∀ f ∈ h.lists, s.BacksList f
  flags : ∀ f ∈ h.flags, s.BacksFlag f
  counts : ∀ u ∈ h.updates, ∀ f, u.counts = some f → f.concern = .count ∧ f ∈ h.lists
  autoLoad : ∀ u ∈ h.updates, ∀ f, u.autoLoad = some f → f.concern = .autoLoad ∧ f ∈ h.lists
  results : ∀ u ∈ h.updates, ∀ f, u.results = some f → f ∈ h.flags

variable {s s' : Session} {g h : Handed}

theorem BacksList.evolves {f : Fetch (List NodeId)} (hf : s.BacksList f) (hv : s.Valid)
    (he : s.Evolves s') : s'.BacksList f where
  concern := hf.concern
  generation := Nat.le_trans hf.generation he.requests.generation
  knows id hid := he.diagram.knows (hf.knows id hid)
  current hp hc hlive := by
    rw [he.compiler] at hp
    have hlive' := he.requests.live .count f.generation hf.generation hlive
    exact (hf.current hp hc hlive').evolves hv he hp hf.generation hlive hf.knows

theorem BacksFlag.evolves {f : Fetch Bool} (hf : s.BacksFlag f) (hv : s.Valid)
    (he : s.Evolves s') : s'.BacksFlag f where
  concern := hf.concern
  generation := Nat.le_trans hf.generation he.requests.generation
  current hp hlive := by
    rw [he.compiler] at hp
    have hlive' := he.requests.live .results f.generation hf.generation hlive
    exact (hf.current hp hlive').evolves hv he hp hf.generation hlive

theorem Backs.evolves (hb : s.Backs h) (hv : s.Valid) (he : s.Evolves s') : s'.Backs h :=
  ⟨fun f hf => (hb.lists f hf).evolves hv he, fun f hf => (hb.flags f hf).evolves hv he, hb.counts,
    hb.autoLoad, hb.results⟩

theorem Backs.append (hg : s.Backs g) (hh : s.Backs h) : s.Backs (g.append h) where
  lists f hf := (List.mem_append.1 hf).elim (hg.lists f) (hh.lists f)
  flags f hf := (List.mem_append.1 hf).elim (hg.flags f) (hh.flags f)
  counts u hu f hf := by
    rcases List.mem_append.1 hu with hu | hu
    · exact (hg.counts u hu f hf).imp_right (List.mem_append_left _)
    · exact (hh.counts u hu f hf).imp_right (List.mem_append_right _)
  autoLoad u hu f hf := by
    rcases List.mem_append.1 hu with hu | hu
    · exact (hg.autoLoad u hu f hf).imp_right (List.mem_append_left _)
    · exact (hh.autoLoad u hu f hf).imp_right (List.mem_append_right _)
  results u hu f hf := by
    rcases List.mem_append.1 hu with hu | hu
    · exact List.mem_append_left _ (hg.results u hu f hf)
    · exact List.mem_append_right _ (hh.results u hu f hf)

/-- Requests about single nodes need no backing. -/
theorem backs_nodes (s : Session) (nodes : List (Fetch NodeId)) : s.Backs { nodes } := by
  constructor <;> simp

theorem backs_ofDiscovery (s : Session) (d : Discovery) : s.Backs (.ofDiscovery d) := by
  cases d with
  | loaded children => exact backs_nodes s []
  | pending f => exact backs_nodes s [f]

/-- An update backs what it hands out. -/
theorem Updates.backs {u : Update} (h : s.Updates u s') : s'.Backs (.ofUpdate u) where
  lists f hf := by
    simp only [Handed.ofUpdate, List.mem_append, Option.mem_toList] at hf
    rcases hf with hf | hf
    · obtain ⟨hc, hg, hknows, hcurrent⟩ := h.counts f hf
      exact ⟨.inl hc, hg, hknows, fun _ _ _ => hcurrent⟩
    · obtain ⟨hc, hg, hknows⟩ := h.autoLoad f hf
      refine ⟨.inr hc, hg, hknows, fun _ hc' => ?_⟩
      rw [hc] at hc'
      simp at hc'
  flags f hf := by
    simp only [Handed.ofUpdate, Option.mem_toList] at hf
    obtain ⟨hc, hg, hcurrent⟩ := h.results f hf
    exact ⟨hc, hg, fun _ _ => hcurrent⟩
  counts u' hu f hf := by
    obtain rfl := List.mem_singleton.1 hu
    exact ⟨(h.counts f hf).1, by simp [Handed.ofUpdate, hf]⟩
  autoLoad u' hu f hf := by
    obtain rfl := List.mem_singleton.1 hu
    exact ⟨(h.autoLoad f hf).1, by simp [Handed.ofUpdate, hf]⟩
  results u' hu f hf := by
    obtain rfl := List.mem_singleton.1 hu
    simp [Handed.ofUpdate, hf]

/-! ## What moves lead to -/

/-- The session evolves and backs what it hands out. -/
structure LeadsTo (s : Session) (r : Handed × Session) : Prop where
  evolves : s.Evolves r.2
  backs : r.2.Backs r.1

theorem handing_ok {α : Type} {c : Call α} {a : α} (hc : c s = (.ok a, s')) (hand : α → Handed) :
    Move.handing c hand s = (hand a, s') := by
  rw [Move.handing, hc]

theorem handing_error {α : Type} {c : Call α} {e : GraphError} (hc : c s = (.error e, s'))
    (hand : α → Handed) : Move.handing c hand s = ({}, s') := by
  rw [Move.handing, hc]

/-- A call that is refused hands out nothing. -/
theorem of_handing {α : Type} {c : Call α} {hand : α → Handed} {P : Handed → Session → Prop}
    (hok : ∀ a s', c s = (.ok a, s') → P (hand a) s')
    (herror : ∀ e s', c s = (.error e, s') → P {} s') :
    P (Move.handing c hand s).1 (Move.handing c hand s).2 := by
  rcases hc : c s with ⟨r, s'⟩
  cases r with
  | ok a =>
    rw [handing_ok hc]
    exact hok a s' hc
  | error e =>
    rw [handing_error hc]
    exact herror e s' hc

theorem LeadsTo.nothing (he : s.Evolves s') : s.LeadsTo ({}, s') := ⟨he, backs_nodes s' []⟩

theorem LeadsTo.ok {α : Type} {c : Call α} {a : α} {hand : α → Handed} (hc : c s = (.ok a, s'))
    (he : s.Evolves s') (hb : s'.Backs (hand a)) : s.LeadsTo (Move.handing c hand s) := by
  rw [handing_ok hc]
  exact ⟨he, hb⟩

theorem LeadsTo.error {α : Type} {c : Call α} {e : GraphError} {hand : α → Handed}
    (hc : c s = (.error e, s')) (he : s.Evolves s') : s.LeadsTo (Move.handing c hand s) := by
  rw [handing_error hc]
  exact .nothing he

/-- Requests about single nodes may be handed out at any time. -/
theorem LeadsTo.handing_nodes {α : Type} {c : Call α} {hand : α → Handed} (he : s.Evolves (c s).2)
    (hh : ∀ a, ∃ nodes, hand a = { nodes }) : s.LeadsTo (Move.handing c hand s) := by
  rcases hc : c s with ⟨r, s'⟩
  rw [hc] at he
  cases r with
  | ok a =>
    obtain ⟨nodes, hnodes⟩ := hh a
    refine .ok hc he ?_
    rw [hnodes]
    exact backs_nodes s' nodes
  | error e => exact .error hc he

theorem LeadsTo.silent {α : Type} {c : Call α} (he : s.Evolves (c s).2) :
    s.LeadsTo (Move.silent c s) :=
  .handing_nodes he fun _ => ⟨[], rfl⟩

theorem Valid.leadsTo_beginCounts (h : s.Valid) : s.LeadsTo (Move.beginCounts.perform s) := by
  obtain ⟨f, s', hf, hi, -, hcurrent⟩ := h.beginCounts
  refine .ok hf hi.evolves ⟨fun f' hf' => ?_, by simp, by simp, by simp, by simp⟩
  obtain rfl := Option.mem_toList.1 hf'
  obtain ⟨hc, -, hg⟩ := hi.fetch f' rfl
  obtain ⟨hquery, hasks⟩ := hcurrent f' rfl
  refine ⟨.inl hc, hg, fun id hid => ?_, fun _ _ _ => hasks⟩
  exact hi.evolves.diagram.knows ((hquery id hid).knows h.diagram.toNumbered)

theorem Valid.leadsTo_beginAutoLoad (h : s.Valid) : s.LeadsTo (Move.beginAutoLoad.perform s) := by
  obtain ⟨f, s', hf, hi, -, hquery⟩ := h.beginAutoLoad
  refine .ok hf hi.evolves ⟨fun f' hf' => ?_, by simp, by simp, by simp, by simp⟩
  obtain rfl := Option.mem_toList.1 hf'
  obtain ⟨hc, -, hg⟩ := hi.fetch f' rfl
  refine ⟨.inr hc, hg, fun id hid => ?_, fun _ hc' => ?_⟩
  · exact hi.evolves.diagram.knows ((hquery f' rfl id hid).knows h.diagram.toNumbered)
  · rw [hc] at hc'
    simp at hc'

theorem Valid.leadsTo_beginResults (h : s.Valid) : s.LeadsTo (Move.beginResults.perform s) := by
  obtain ⟨f, s', hf, hi, -, hcurrent⟩ := h.beginResults
  refine .ok hf hi.evolves ⟨by simp, fun f' hf' => ?_, by simp, by simp, by simp⟩
  obtain rfl := Option.mem_toList.1 hf'
  obtain ⟨hc, -, hg⟩ := hi.fetch f' rfl
  exact ⟨hc, hg, fun _ _ => hcurrent f' rfl⟩

theorem Valid.leadsTo_beginUpdate (h : s.Valid) : s.LeadsTo (Move.beginUpdate.perform s) := by
  obtain ⟨u, s', hu, hupdates, -⟩ := h.beginUpdate
  exact .ok hu hupdates.evolves hupdates.backs

theorem Valid.leadsTo_beginExpand (h : s.Valid) (id : NodeId) (index : Nat) :
    s.LeadsTo ((Move.beginExpand id index).perform s) := by
  rcases h.beginExpand id index with ⟨e, -, he⟩ | ⟨child, d, u, s', -, hu, hupdates⟩
  · exact .error he (.refl h)
  · exact .ok hu hupdates.evolves ((backs_ofDiscovery s' d).append hupdates.backs)

theorem Valid.leadsTo_beginSelectValue (h : s.Valid) (id : NodeId) :
    s.LeadsTo ((Move.beginSelectValue id).perform s) := by
  rcases h.beginSelectValue id with ⟨e, -, he⟩ | ⟨p, u, s', -, hu, hupdates⟩
  · exact .error he (.refl h)
  · exact .ok hu hupdates.evolves hupdates.backs

/-- An update that asks nothing backs what it hands out. -/
theorem backs_emptyUpdate (s : Session) : s.Backs (.ofUpdate {}) := by
  constructor <;> simp [Handed.ofUpdate]

theorem Valid.leadsTo_beginRemoveValue (h : s.Valid) (id value : NodeId) :
    s.LeadsTo ((Move.beginRemoveValue id value).perform s) := by
  rcases h.beginRemoveValue id value with ⟨e, -, he⟩ | ⟨-, hu⟩ | ⟨u, s', -, hu, hupdates⟩
  · exact .error he (.refl h)
  · exact .ok hu (.refl h) (backs_emptyUpdate s)
  · exact .ok hu hupdates.evolves hupdates.backs

theorem Valid.leadsTo_beginNegate (h : s.Valid) (id : NodeId) :
    s.LeadsTo ((Move.beginNegate id).perform s) := by
  rcases h.beginNegate id with ⟨e, -, he⟩ | ⟨-, hu⟩ | ⟨u, s', -, hu, hupdates⟩
  · exact .error he (.refl h)
  · exact .ok hu (.refl h) (backs_emptyUpdate s)
  · exact .ok hu hupdates.evolves hupdates.backs

theorem Valid.leadsTo_beginRemoveNode (h : s.Valid) (id : NodeId) :
    s.LeadsTo ((Move.beginRemoveNode id).perform s) := by
  rcases h.beginRemoveNode id with ⟨e, -, he⟩ | ⟨held, u, s', -, hu, hupdates⟩
  · exact .error he (.refl h)
  · exact .ok hu hupdates.evolves hupdates.backs

theorem isQueryNode_addChild {id : NodeId} {index : Nat} {child : NodeId}
    (h : addChild id index s = (.ok child, s')) : s'.diagram.IsQueryNode child := by
  rw [addChild, Call.get_bind] at h
  obtain ⟨added, s₁, hexpand, hemit⟩ := Call.of_bind_ok h
  obtain ⟨hok, rfl⟩ := Call.of_onDiagram_ok hexpand
  obtain ⟨hc, rfl⟩ := Prod.mk.inj hemit
  obtain rfl : added = child := Except.ok.inj hc
  exact Diagram.isQueryNode_expandRelationship (Prod.ext hok rfl)

theorem Valid.evolves_addChild (h : s.Valid) (id : NodeId) (index : Nat) :
    s.Evolves (addChild id index s).2 := by
  have hd := h.diagram.refines_expandRelationship s.compiler.provider id index
  rw [addChild, Call.get_bind]
  exact Call.evolves_bind (Call.evolves_onDiagram h hd) fun _ _ _ h₁ => Call.evolves_tell h₁ _ _

end Session

namespace World

open Session

/-- The session is valid and backs everything that was handed out. -/
structure Sound (w : World) : Prop where
  valid : w.session.Valid
  backs : w.session.Backs w.handed

variable {w : World}

theorem Sound.new (provider : Provider) (settings : QuerySettings) :
    (new provider settings).Sound where
  valid := ⟨.new settings.pageSize, by simp [Lifecycle.Bounded, World.new, Session.new],
    fun _ => ⟨rfl, rfl, rfl⟩⟩
  backs := backs_nodes _ []

/-- Answers to what was handed out are about numbers that are known. -/
theorem Sound.knows (h : w.Sound) {r : Fetched (List NodeId)} (hr : Awaits w.handed.lists r) :
    ∀ id ∈ r.context, w.session.diagram.Knows id := by
  obtain ⟨f, hf, ha⟩ := hr
  rw [ha.context]
  exact (h.backs.lists f hf).knows

theorem Sound.leadsTo (h : w.Sound) (m : Move) (hm : m.Admissible w) :
    w.session.LeadsTo (m.perform w.session) := by
  have hv := h.valid
  cases m with
  | reset => exact .silent hv.evolves_reset
  | listen => exact .nothing (Evolves.modify (f := Session.listen) (.refl hv) rfl rfl rfl)
  | unlisten => exact .nothing (Evolves.modify (f := Session.unlisten) (.refl hv) rfl rfl rfl)
  | placeRoot label anchor =>
    exact .silent (hv.evolves_replaceDiagram (fun _ hd => hd.addRoot _ label anchor)
      (Diagram.continues_addRoot _ label anchor))
  | placeSchema schema anchor =>
    exact .silent (hv.evolves_replaceDiagram (fun _ hd => hd.addSchema _ schema anchor)
      (Diagram.continues_addSchema _ schema anchor))
  | addChild id index => exact .silent (hv.evolves_addChild id index)
  | showCandidates id => exact .silent (hv.evolves_showCandidates id)
  | hideCandidates id => exact .silent (hv.evolves_hideCandidates id)
  | nextPage id => exact .silent (hv.evolves_nextPage id)
  | previousPage id => exact .silent (hv.evolves_previousPage id)
  | beginCounts => exact hv.leadsTo_beginCounts
  | beginAutoLoad => exact hv.leadsTo_beginAutoLoad
  | beginResults => exact hv.leadsTo_beginResults
  | beginUpdate => exact hv.leadsTo_beginUpdate
  | beginDiscovery id =>
    refine .handing_nodes (hv.evolves_beginDiscovery hm) fun d => ?_
    cases d with
    | loaded children => exact ⟨[], rfl⟩
    | pending f => exact ⟨[f], rfl⟩
  | beginValueFetch id =>
    exact .handing_nodes (hv.evolves_beginValueFetch id) fun f => ⟨[f], rfl⟩
  | beginExpand id index => exact hv.leadsTo_beginExpand id index
  | beginSelectValue id => exact hv.leadsTo_beginSelectValue id
  | beginRemoveValue id value => exact hv.leadsTo_beginRemoveValue id value
  | beginNegate id => exact hv.leadsTo_beginNegate id
  | beginRemoveNode id => exact hv.leadsTo_beginRemoveNode id
  | applyCounts r => exact .silent (hv.evolves_applyCounts r)
  | applyAutoLoad r => exact .silent (hv.evolves_applyAutoLoad r (h.knows hm))
  | applyResults r => exact .silent (hv.evolves_applyResults r)
  | applyUpdate r =>
    exact .silent (hv.evolves_applyUpdate r fun f hf => h.knows (hm.2.1 f hf))
  | applyDiscovery r => exact .silent (hv.evolves_applyDiscovery r hm.2)
  | applyValueFetch r => exact .silent (hv.evolves_applyValueFetch r hm.2)
  | settle generation o =>
    exact .nothing (hv.evolves_requests (hv.requests.later_settle generation o) hv.quiet)
  | wait f =>
    refine .nothing (hv.evolves_requests (hv.requests.later_wait f) fun hd => ?_)
    exact (hv.quiet hd).of_slots fun c => .inl (by rw [Lifecycle.wait_slots])
  | drop f =>
    refine .nothing (hv.evolves_requests (hv.requests.later_drop f) fun hd => ?_)
    exact (hv.quiet hd).of_slots fun c => .inl (by rw [Lifecycle.drop_slots])

theorem Sound.act (h : w.Sound) (m : Move) (hm : m.Admissible w) : (w.act m).Sound := by
  have hl := h.leadsTo m hm
  exact ⟨hl.evolves.valid, (h.backs.evolves h.valid hl.evolves).append hl.backs⟩

end World

end PatternQuery
