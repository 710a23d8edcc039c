import PatternQuery.Proofs.Session.Deeds

/-!
# What requests are about

A world goes through any actions whatever (`World.takeAll`). Each request for a list of nodes that
was handed out on the way is about nodes which the diagram counted at that time, in their order
(`Handed.About`). So their numbers were given out before, and no node that is made later has one of
them (`World.Informed`).
-/

namespace PatternQuery

open Diagram

/-- What an action makes of a world. A call that waits hands out nothing. -/
def World.take (w : World) : Session.Action → World
  | .move m => w.act m
  | .run c => { w with session := c.perform w.session }

/-- What actions lead to, one after the other. -/
def World.takeAll : List Session.Action → World → World
  | [], w => w
  | a :: rest, w => takeAll rest (w.take a)

/-- Requests for lists of nodes are about nodes that are counted, in the order of the diagram. -/
def Handed.About (h : Handed) (d : Diagram) : Prop :=
  ∀ f ∈ h.lists, f.context.Sublist (Session.countedNodes d)

namespace Call

variable {α β : Type}

/-- The requests that a call hands out are about nodes of the diagram that it leaves behind. -/
def HandsOut (c : Call α) (hand : α → Handed) : Prop :=
  ∀ s a s', c s = (.ok a, s') → (hand a).About s'.diagram

theorem handsOut_of_nil (c : Call α) {hand : α → Handed} (h : ∀ a, (hand a).lists = []) :
    c.HandsOut hand := by
  intro s a s' _ f hf
  simp [h] at hf

theorem HandsOut.bind (c : Call α) {f : α → Call β} {hand : β → Handed}
    (hf : ∀ a, (f a).HandsOut hand) : (c >>= f).HandsOut hand := by
  intro s b s' h
  obtain ⟨a, s₁, -, hb⟩ := of_bind_ok h
  exact hf a s₁ b s' hb

theorem HandsOut.bind_pure {c : Call α} {g : α → β} {hand : β → Handed}
    (hc : c.HandsOut fun a => hand (g a)) :
    (c >>= fun a => Pure.pure (g a)).HandsOut hand := by
  intro s b s' h
  obtain ⟨a, s₁, ha, hb⟩ := of_bind_ok h
  obtain ⟨rfl, rfl⟩ := of_pure_ok hb
  exact hc s a _ ha

end Call

namespace Session

variable {s s' : Session}

theorem context_of_issueForNodes {c : Concern} {nodes : List NodeId}
    {statement : NodeId → Except GraphError Statement} {f : Fetch (List NodeId)}
    (h : issueForNodes c nodes statement s = (.ok (some f), s')) : f.context = nodes := by
  unfold issueForNodes at h
  split at h
  · obtain ⟨hnone, -⟩ := Call.of_pure_ok h
    cases hnone
  · obtain ⟨batch, s₁, -, hissue⟩ := Call.of_bind_ok h
    obtain ⟨fetch, s₂, hfetch, hpure⟩ := Call.of_bind_ok hissue
    obtain ⟨hf, -⟩ := Call.of_onRequests_ok hfetch
    obtain ⟨hsome, -⟩ := Call.of_pure_ok hpure
    rw [Option.some.inj hsome, ← hf, Lifecycle.issue_fst]

/-- Nodes that load their candidates on their own are counted, too. -/
theorem autoLoadNodes_sublist (d : Diagram) : (autoLoadNodes d).Sublist (countedNodes d) := by
  have hfilter : d.nodes.filter (fun n => n.isCountable && n.autoLoad) =
      (d.nodes.filter Node.isCountable).filter Node.autoLoad := by
    rw [List.filter_filter]
    exact List.filter_congr fun n _ => Bool.and_comm ..
  rw [autoLoadNodes, hfilter]
  exact List.filter_sublist.map _

theorem handsOut_beginCounts : beginCounts.HandsOut fun f => { lists := f.toList } := by
  intro s f s' h g hg
  obtain rfl := Option.mem_toList.1 hg
  have hd := (keepsDiagram_beginCounts s).diagram
  rw [h] at hd
  rw [hd]
  rw [beginCounts, Call.get_bind] at h
  rw [context_of_issueForNodes h]

theorem handsOut_beginAutoLoad : beginAutoLoad.HandsOut fun f => { lists := f.toList } := by
  intro s f s' h g hg
  obtain rfl := Option.mem_toList.1 hg
  have hd := (keepsDiagram_beginAutoLoad s).diagram
  rw [h] at hd
  rw [hd]
  rw [beginAutoLoad, Call.get_bind] at h
  rw [context_of_issueForNodes h]
  exact autoLoadNodes_sublist s.diagram

theorem handsOut_beginUpdate : beginUpdate.HandsOut .ofUpdate := by
  intro s u s' h g hg
  obtain ⟨counts, s₁, hcounts, h⟩ := Call.of_bind_ok h
  obtain ⟨autoLoad, s₂, hautoLoad, h⟩ := Call.of_bind_ok h
  obtain ⟨results, s₃, hresults, h⟩ := Call.of_bind_ok h
  obtain ⟨rfl, rfl⟩ := Call.of_pure_ok h
  have hd₂ := (keepsDiagram_beginAutoLoad s₁).diagram
  have hd₃ := (keepsDiagram_beginResults s₂).diagram
  rw [hautoLoad] at hd₂
  rw [hresults] at hd₃
  rw [hd₃]
  rcases List.mem_append.1 hg with hg | hg
  · rw [hd₂]
    exact handsOut_beginCounts s counts s₁ hcounts g hg
  · exact handsOut_beginAutoLoad s₁ autoLoad s₂ hautoLoad g hg

/-- An update is handed out together with what has no lists. -/
theorem handsOut_changed {α : Type} {g : Update → α} {hand : α → Handed}
    (h : ∀ u, (hand (g u)).lists = (Handed.ofUpdate u).lists) :
    (changed >>= fun u => Pure.pure (g u)).HandsOut hand := by
  refine Call.HandsOut.bind_pure fun s u s' hu f hf => ?_
  rw [h] at hf
  obtain ⟨_, s₁, -, hu⟩ := Call.of_bind_ok hu
  exact handsOut_beginUpdate s₁ u s' hu f hf

theorem lists_ofDiscovery (d : Discovery) : (Handed.ofDiscovery d).lists = [] := by
  cases d <;> rfl

theorem handsOut_beginExpand (id : NodeId) (index : Nat) : (beginExpand id index).HandsOut
    fun (_, discovery, u) => (Handed.ofDiscovery discovery).append (.ofUpdate u) := by
  refine Call.HandsOut.bind _ fun s => Call.HandsOut.bind _ fun child =>
    Call.HandsOut.bind _ fun _ => Call.HandsOut.bind _ fun discovery => ?_
  refine Call.HandsOut.bind_pure fun s u s' hu f hf => ?_
  refine handsOut_beginUpdate s u s' hu f ?_
  simpa [Handed.append, lists_ofDiscovery] using hf

theorem handsOut_beginSelectValue (id : NodeId) :
    (beginSelectValue id).HandsOut fun (_, u) => .ofUpdate u :=
  Call.HandsOut.bind _ fun parent => handsOut_changed (g := (parent, ·)) fun _ => rfl

theorem handsOut_changedIf (f : Diagram → Except GraphError Bool × Diagram) :
    Call.HandsOut (do
      if ← Call.onDiagram f then return (true, ← changed)
      else return (false, {})) fun (_, u) => .ofUpdate u := by
  refine Call.HandsOut.bind _ fun did => ?_
  cases did with
  | true => exact handsOut_changed (g := (true, ·)) fun _ => rfl
  | false =>
    intro s a s' h g hg
    obtain ⟨rfl, -⟩ := Call.of_pure_ok h
    simp [Handed.ofUpdate] at hg

theorem handsOut_beginRemoveNode (id : NodeId) :
    (beginRemoveNode id).HandsOut fun (_, u) => .ofUpdate u := by
  refine Call.HandsOut.bind _ fun held => Call.HandsOut.bind _ fun s => ?_
  split
  · refine Call.HandsOut.bind _ fun _ s₁ a s' h g hg => ?_
    obtain ⟨rfl, -⟩ := Call.of_pure_ok h
    simp [Handed.ofUpdate] at hg
  · exact handsOut_changed (g := (held, ·)) fun _ => rfl

theorem about_handing {α : Type} {c : Call α} {hand : α → Handed} (h : c.HandsOut hand)
    (s : Session) : (Move.handing c hand s).1.About (Move.handing c hand s).2.diagram :=
  of_handing (P := fun g t => g.About t.diagram) (h s) fun _ _ _ => nofun

theorem about_perform (m : Move) (s : Session) :
    (m.perform s).1.About (m.perform s).2.diagram := by
  have silent {α : Type} (c : Call α) {hand : α → Handed} (h : ∀ a, (hand a).lists = []) :
      (Move.handing c hand s).1.About (Move.handing c hand s).2.diagram :=
    about_handing (Call.handsOut_of_nil c h) s
  cases m with
  | beginCounts => exact about_handing handsOut_beginCounts s
  | beginAutoLoad => exact about_handing handsOut_beginAutoLoad s
  | beginUpdate => exact about_handing handsOut_beginUpdate s
  | beginExpand id index => exact about_handing (handsOut_beginExpand id index) s
  | beginSelectValue id => exact about_handing (handsOut_beginSelectValue id) s
  | beginRemoveValue id value => exact about_handing (handsOut_changedIf _) s
  | beginNegate id => exact about_handing (handsOut_changedIf _) s
  | beginRemoveNode id => exact about_handing (handsOut_beginRemoveNode id) s
  | beginDiscovery id => exact silent _ lists_ofDiscovery
  | listen | unlisten | settle | wait | drop => exact nofun
  | _ => exact silent _ fun _ => rfl

end Session

namespace World

variable {w : World}

/-- The diagram is in order, and its numbers go beyond those that requests were handed out about. -/
structure Informed (w : World) : Prop where
  orderly : w.session.diagram.Orderly
  known : ∀ f ∈ w.handed.lists, ∀ id ∈ f.context, id.number < w.session.diagram.nextNode

theorem Informed.take (h : w.Informed) (a : Session.Action) : (w.take a).Informed := by
  have horderly : (a.perform w.session).diagram.Orderly :=
    (Session.yields_perform a h.orderly).orderly h.orderly
  have hnext := (Session.deeds_perform a w.session).continues.nextNode
  cases a with
  | run c => exact ⟨horderly, fun f hf id hid => Nat.lt_of_lt_of_le (h.known f hf id hid) hnext⟩
  | move m =>
    refine ⟨horderly, fun f hf id hid => ?_⟩
    rcases List.mem_append.1 hf with hf | hf
    · exact Nat.lt_of_lt_of_le (h.known f hf id hid) hnext
    · have hcounted := (Session.about_perform m w.session f hf).subset hid
      obtain ⟨n, hn, rfl, -⟩ := Session.isQueryNode_of_counted hcounted
      exact horderly.bounded n hn

theorem Informed.takeAll (h : w.Informed) (actions : List Session.Action) :
    (takeAll actions w).Informed := by
  induction actions generalizing w with
  | nil => exact h
  | cons a rest ih => exact ih (h.take a)

theorem informed_new (provider : Provider) (settings : QuerySettings) :
    (new provider settings).Informed :=
  ⟨.new _, nofun⟩

end World

end PatternQuery
