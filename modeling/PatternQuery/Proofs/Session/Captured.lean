import PatternQuery.Proofs.Diagram.Making
import PatternQuery.Proofs.Session.Deeds
import PatternQuery.Proofs.Session.Informing

/-!
# Requests and later nodes

A request captures the numbers of the nodes it is about (`Handed.captured`), all of them there when
it is handed out (`Session.captured_live`). Numbers are never used again, so whatever is found under
such a number when the answer comes is a node that was asked about, and no later one
(`Session.numbers_never_reused`).
-/

namespace PatternQuery

open Diagram

/-- The nodes that the requests are about, as far as they are about nodes. -/
def Handed.captured (h : Handed) : List NodeId :=
  h.lists.flatMap Fetch.context ++ h.nodes.map Fetch.context

namespace Call

variable {α : Type}

/-- The requests about single nodes that a call hands out are about nodes that it leaves behind. -/
def AsksAbout (c : Call α) (hand : α → Handed) : Prop :=
  ∀ s a s', c s = (.ok a, s') → ∀ f ∈ (hand a).nodes, ∃ n, s'.diagram.node? f.context = some n

theorem asksAbout_of_nil (c : Call α) {hand : α → Handed} (h : ∀ a, (hand a).nodes = []) :
    c.AsksAbout hand := by
  intro s a s' _ f hf
  simp [h] at hf

end Call

namespace Session

variable {s s' : Session} {id : NodeId}

theorem asksAbout_beginDiscovery (id : NodeId) : (beginDiscovery id).AsksAbout .ofDiscovery := by
  intro s d s' h f hf
  cases d with
  | loaded children => simp [Handed.ofDiscovery] at hf
  | pending g =>
    obtain rfl := List.mem_singleton.1 hf
    obtain ⟨n, hn, -⟩ := of_beginDiscovery_ok h
    rw [context_of_beginDiscovery h]
    rcases beginDiscovery_cases id s with ⟨_, schema, -, -, he⟩ | ⟨-, hsame⟩
    · -- What a schema says is loaded at once.
      rw [he] at h
      cases hstored : (storeRelations id schema.segments s).1 <;> simp [hstored, Except.map] at h
    · rw [h] at hsame
      exact ⟨n, by rw [hsame.diagram, hn]⟩

theorem asksAbout_beginValueFetch (id : NodeId) :
    (beginValueFetch id).AsksAbout fun f => { nodes := [f] } := by
  intro s f s' h g hg
  obtain rfl := List.mem_singleton.1 hg
  have hd := (keepsDiagram_beginValueFetch id s).diagram
  rw [h] at hd
  rw [context_of_beginValueFetch h, hd]
  obtain ⟨n, s₁, hnode, -⟩ := Call.of_bind_ok h
  exact ⟨n, (Call.of_requireNode_ok hnode).1⟩

/-- The update that is asked for last leaves the diagram to the discovery. -/
theorem asksAbout_beginExpand (id : NodeId) (index : Nat) : (beginExpand id index).AsksAbout
    fun (_, discovery, u) => (Handed.ofDiscovery discovery).append (.ofUpdate u) := by
  intro s a s' h f hf
  obtain ⟨_, _, -, h⟩ := Call.of_bind_ok h
  obtain ⟨child, _, -, h⟩ := Call.of_bind_ok h
  obtain ⟨_, s₁, -, h⟩ := Call.of_bind_ok h
  obtain ⟨discovery, s₂, hdiscovery, h⟩ := Call.of_bind_ok h
  obtain ⟨u, s₃, hupdate, h⟩ := Call.of_bind_ok h
  obtain ⟨rfl, rfl⟩ := Call.of_pure_ok h
  have hd := (keepsDiagram_beginUpdate s₂).diagram
  rw [hupdate] at hd
  rw [hd]
  refine asksAbout_beginDiscovery child s₁ discovery s₂ hdiscovery f ?_
  simpa [Handed.append, Handed.ofUpdate] using hf

theorem live_handing {α : Type} {c : Call α} {hand : α → Handed} (h : c.AsksAbout hand)
    (s : Session) : ∀ f ∈ (Move.handing c hand s).1.nodes,
      ∃ n, (Move.handing c hand s).2.diagram.node? f.context = some n :=
  of_handing (P := fun g t => ∀ f ∈ g.nodes, ∃ n, t.diagram.node? f.context = some n) (h s)
    fun _ _ _ => nofun

theorem live_perform (m : Move) (s : Session) :
    ∀ f ∈ (m.perform s).1.nodes, ∃ n, (m.perform s).2.diagram.node? f.context = some n := by
  have silent {α : Type} (c : Call α) {hand : α → Handed} (h : ∀ a, (hand a).nodes = []) :
      ∀ f ∈ (Move.handing c hand s).1.nodes,
        ∃ n, (Move.handing c hand s).2.diagram.node? f.context = some n :=
    live_handing (Call.asksAbout_of_nil c h) s
  cases m with
  | beginDiscovery id => exact live_handing (asksAbout_beginDiscovery id) s
  | beginValueFetch id => exact live_handing (asksAbout_beginValueFetch id) s
  | beginExpand id index => exact live_handing (asksAbout_beginExpand id index) s
  | listen | unlisten | settle | wait | drop => exact nofun
  | _ => exact silent _ fun _ => rfl

/-- Nobody asks about a node that is not there. -/
theorem captured_live (m : Move) (s : Session) :
    ∀ x ∈ (m.perform s).1.captured, ∃ n, (m.perform s).2.diagram.node? x = some n := by
  intro x hx
  rcases List.mem_append.1 hx with hx | hx
  · obtain ⟨f, hf, hx⟩ := List.mem_flatMap.1 hx
    have hcounted := (about_perform m s f hf).subset hx
    obtain ⟨n, hn, hid, -⟩ := isQueryNode_of_counted hcounted
    exact Option.isSome_iff_exists.1 (node?_isSome_iff.2 ⟨n, hn, hid⟩)
  · obtain ⟨f, hf, rfl⟩ := List.mem_map.1 hx
    exact live_perform m s f hf

/-- The nodes were there in `s`, and what is there under one of their numbers after the actions is
the node that was there then and at any time since. -/
def Recalls (s : Session) (nodes : List NodeId) (actions : List Action) : Prop :=
  ∀ x ∈ nodes, (∃ n, s.diagram.node? x = some n) ∧
    ∀ before after n', actions = before ++ after →
      (performAll actions s).diagram.node? x = some n' →
        ∃ n, (performAll before s).diagram.node? x = some n ∧ n'.origin = n.origin

theorem recalls_performAll (hs : s.diagram.Orderly) {nodes : List NodeId}
    (hlive : ∀ x ∈ nodes, ∃ n, s.diagram.node? x = some n) (actions : List Action) :
    s.Recalls nodes actions := by
  intro x hx
  refine ⟨hlive x hx, fun before after n' hsplit hn' => ?_⟩
  obtain ⟨m, hm⟩ := hlive x hx
  have hknown : x.number < s.diagram.nextNode := by
    have hbound := hs.bounded m (mem_of_node? hm)
    rwa [id_of_node? hm] at hbound
  have hbefore := deeds_performAll before s
  rw [hsplit, performAll_append] at hn'
  exact (deeds_performAll after _).continues.origin_of_node? (hbefore.orderly hs).toNumbered
    (Nat.lt_of_lt_of_le hknown hbefore.continues.nextNode) hn'

/-- No number is ever used again, neither in a run of operations nor while a request is on its way:
the nodes that it asks about stay the only ones that their numbers stand for, whatever a session
does until the answer comes. -/
theorem numbers_never_reused (p : Provider) :
    (∀ pageSize ops, (Operation.runAll p ops (.new pageSize)).nextNode < 2 ^ 64 →
      (Operation.runAll p ops (.new pageSize)).nextLink < 2 ^ 64 →
        Operation.NeverReuses p ops (.new pageSize) (Operation.runAll p ops (.new pageSize))) ∧
    ∀ settings before (m : Move) after,
      let issued := m.perform (performAll before (.new p settings))
      issued.2.Recalls issued.1.captured after := by
  refine ⟨fun pageSize ops => Operation.neverReuses p pageSize ops, ?_⟩
  intro settings before m after issued
  have hbefore : (performAll before (.new p settings)).diagram.Orderly :=
    (deeds_performAll before _).orderly (.new _)
  have hissued : issued.2.diagram.Orderly := (deeds_move m _).orderly hbefore
  exact recalls_performAll hissued (captured_live m _) after

/-- A row is selected from the start and another one later on, then one query after the other is put
in place of it. While candidates of the first root are on their way, it is removed. -/
theorem numbers_never_reused_of_restart :
    let ops : List Operation := [.addSchema (.node "Person" [Table.empty] [] false) none,
      .setData ⟨0⟩ [Table.empty], .expandValues ⟨0⟩, .selectValue ⟨2⟩, .addRoot "City" none,
      .removeNode ⟨3⟩, .addRoot "City" none]
    let d := Operation.runAll .plain ops (.new 10)
    let issued := (Move.beginValueFetch ⟨0⟩).perform
      (performAll [.move (.placeRoot "Person" none)] (.new .plain {}))
    let after : List Action := [.move (.beginRemoveNode ⟨0⟩), .move (.placeRoot "City" none)]
    ((d.nextNode < 2 ^ 64 ∧ d.nextLink < 2 ^ 64 ∧ Operation.NeverReuses .plain ops (.new 10) d) ∧
      (Operation.allMade .plain ops (.new 10)).map Node.numbers =
        [[⟨0⟩, ⟨1⟩], [⟨2⟩], [⟨3⟩], [⟨4⟩]]) ∧
    (issued.1.captured = [⟨0⟩] ∧
      (performAll after issued.2).diagram.nodes.map Node.id = [⟨1⟩]) ∧
      issued.2.Recalls issued.1.captured after := by
  intro ops d issued after
  have hnodes : d.nextNode < 2 ^ 64 := by decide +kernel
  have hlinks : d.nextLink < 2 ^ 64 := by decide +kernel
  refine ⟨⟨⟨hnodes, hlinks, ?_⟩, by decide +kernel⟩, by decide +kernel, ?_⟩
  · exact (numbers_never_reused .plain).1 10 ops hnodes hlinks
  · exact (numbers_never_reused .plain).2 {} _ _ _

end Session

end PatternQuery
