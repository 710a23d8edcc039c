import Mathlib.Data.Finset.Card
import PatternQuery.Proofs.Diagram.Prolonging
import PatternQuery.Proofs.Session.Completion
import PatternQuery.Proofs.Session.Deeds

/-!
# Nodes that unfold on their own

A node whose label asks for it expands all its relations as soon as they are loaded, the relations
of its children are loaded then, and so on. If the relations lead to finitely many labels, this
comes to an end (`Session.loading_ends`): a node whose label occurs above it already does not
unfold, so there are fewer and fewer labels left on the way down (`Session.room`).
-/

namespace PatternQuery

open Diagram

/-! ## What a node that expands itself adds -/

namespace Diagram

variable {d d' : Diagram} {L : Finset String} {id : NodeId} {n : Node}

/-- Children along some segments of a node get the next numbers, and hang from the node with the
labels that the segments lead to. -/
theorem prolongs_expandSegments (p : Provider) (hn : d.node? id = some n)
    (hL : ∀ s ∈ n.relationships, s.target ∈ L) {index count : Nat}
    (hc : index + count ≤ n.relationships.length) :
    ∃ new, d.Prolongs (Operation.runAll p
        ((List.range' index count).map (.expandRelationship id)) d) new ∧
      new.map Node.id = (List.range count).map (fun i => ⟨d.nextNode + i⟩) ∧
      ∀ m ∈ new, m.label ∈ L ∧ m.parent = some id := by
  induction count generalizing d index with
  | zero => exact ⟨[], .refl d, rfl, by simp⟩
  | succ count ih =>
    have hindex : index < n.relationships.length := by omega
    obtain ⟨child, d₁, hd, hn₁⟩ := expandRelationship_ok p hn hindex
    have hs : n.relationships[index] ∈ n.relationships := List.getElem_mem hindex
    have heq := expandRelationship_eq p hn (List.getElem?_eq_getElem hindex)
    generalize n.relationships[index] = s at hs heq
    obtain ⟨-, rfl⟩ := Prod.mk.inj (hd.symm.trans heq)
    have hrest : index + 1 + count ≤ n.relationships.length := by omega
    obtain ⟨new, hnew, hids, hchildren⟩ := ih hn₁ hrest
    have hrun : (Operation.run p (.expandRelationship id index) d).2 =
        (d.attachChild p id s .choose).2 := congrArg Prod.snd hd
    rw [List.range'_succ, List.map_cons, Operation.runAll, hrun]
    refine ⟨childNode p id s .choose d :: new,
      (prolongs_attachChild p id s .choose d).trans hnew, ?_, fun m hm => ?_⟩
    · have hnext : (d.attachChild p id s .choose).2.nextNode = d.nextNode + 1 := rfl
      rw [List.map_cons, hids, List.range_succ_eq_map, List.map_cons, List.map_map, hnext]
      simp only [Nat.add_assoc, Nat.add_comm 1]
      rfl
    · rcases List.mem_cons.1 hm with rfl | hm
      · exact ⟨hL s hs, rfl⟩
      · exact hchildren m hm

end Diagram

namespace Session

variable {s s' s'' : Session} {L : Finset String} {id c : NodeId} {n : Node}

theorem hasAncestorLabeled_eq (d : Diagram) (id : NodeId) (l : String) :
    hasAncestorLabeled d id l = decide (some l ∈ d.labelsAbove id) := by
  rw [Bool.eq_iff_iff, decide_eq_true_iff, hasAncestorLabeled, List.any_eq_true, labelsAbove,
    List.mem_map]
  refine exists_congr fun a => and_congr_right fun _ => ?_
  rw [label?]
  cases d.node? a <;> simp

theorem expandsItself_iff : s.expandsItself id = true ↔ ∃ l, s.diagram.label? id = some l ∧
    (s.properties l).autoExpand = true ∧ some l ∉ s.diagram.labelsAbove id := by
  rw [expandsItself, label?]
  cases s.diagram.node? id <;> simp [hasAncestorLabeled_eq]

/-- New nodes carry labels of `L` and hang from nodes that expand themselves. -/
structure Unfolds (L : Finset String) (s s' : Session) : Prop where
  compiler : s'.compiler = s.compiler
  new : ∃ new, s.diagram.Prolongs s'.diagram new ∧
    ∀ n ∈ new, n.label ∈ L ∧ ∃ p, n.parent = some p ∧ s'.expandsItself p = true

/-- Whether a node expands itself is settled once it is there. -/
theorem expandsItself_of_prolongs {new : List Node} (h : s.diagram.Prolongs s'.diagram new)
    (hc : s'.compiler = s.compiler) (hs : s.diagram.Numbered) (hid : s.expandsItself id = true) :
    s'.expandsItself id = true := by
  obtain ⟨l, hl, hauto, habove⟩ := expandsItself_iff.1 hid
  have hlt := hs.number_lt_of_label? hl
  refine expandsItself_iff.2 ⟨l, (h.label?_eq hlt).trans hl, ?_, ?_⟩
  · rwa [properties, hc]
  · rwa [h.labelsAbove_eq hlt]

theorem Unfolds.refl (L : Finset String) (s : Session) : s.Unfolds L s :=
  ⟨rfl, [], .refl s.diagram, by simp⟩

theorem Unfolds.of_diagram (hc : s'.compiler = s.compiler) (hd : s'.diagram = s.diagram) :
    s.Unfolds L s' := by
  refine ⟨hc, [], ?_, by simp⟩
  rw [hd]
  exact .refl s.diagram

theorem Unfolds.trans (h : s.Unfolds L s') (h' : s'.Unfolds L s'') (hs : s'.diagram.Numbered) :
    s.Unfolds L s'' := by
  obtain ⟨hc, new, hnew, hgrown⟩ := h
  obtain ⟨hc', more, hmore, hgrown'⟩ := h'
  refine ⟨hc'.trans hc, new ++ more, hnew.trans hmore, fun n hn => ?_⟩
  rcases List.mem_append.1 hn with hn | hn
  · obtain ⟨hl, p, hp, hself⟩ := hgrown n hn
    exact ⟨hl, p, hp, expandsItself_of_prolongs hmore hc' hs hself⟩
  · exact hgrown' n hn

theorem Unfolds.label?_eq (h : s.Unfolds L s') (hlt : id.number < s.diagram.nextNode) :
    s'.diagram.label? id = s.diagram.label? id := by
  obtain ⟨-, new, hnew, -⟩ := h
  exact hnew.label?_eq hlt

theorem Unfolds.labelsAbove_eq (h : s.Unfolds L s') (hlt : id.number < s.diagram.nextNode) :
    s'.diagram.labelsAbove id = s.diagram.labelsAbove id := by
  obtain ⟨-, new, hnew, -⟩ := h
  exact hnew.labelsAbove_eq hlt

/-- A node with a label of `L` that hangs from a node that expands itself. -/
structure IsSprout (s : Session) (L : Finset String) (id c : NodeId) : Prop where
  label : ∃ l ∈ L, s.diagram.label? c = some l
  parent : s.diagram.HangsFrom c id
  unfolds : s.expandsItself id = true

/-- Children of a node that expands itself. -/
theorem isSprout_of_prolongs {new : List Node} (hs : s.diagram.Numbered)
    (h : s.diagram.Prolongs s'.diagram new) (hc : s'.compiler = s.compiler)
    (hs' : s'.diagram.Numbered) (hself : s.expandsItself id = true)
    (hnew : ∀ m ∈ new, m.label ∈ L ∧ m.parent = some id) :
    s.Unfolds L s' ∧ ∀ c ∈ new.map Node.id, s'.IsSprout L id c := by
  have hself' := expandsItself_of_prolongs h hc hs hself
  refine ⟨⟨hc, new, h, fun m hm => ?_⟩, fun c hcm => ?_⟩
  · obtain ⟨hl, hp⟩ := hnew m hm
    exact ⟨hl, id, hp, hself'⟩
  · obtain ⟨m, hm, rfl⟩ := List.mem_map.1 hcm
    obtain ⟨hl, hp⟩ := hnew m hm
    obtain ⟨m', hm', ho⟩ := h.exists_of_mem_new hm
    have hid := Node.id_of_origin ho
    refine ⟨⟨m.label, hl, ?_⟩, ⟨m', hm', hid, (Node.parent_of_origin ho).trans hp⟩, hself'⟩
    rw [label?, ← hid, hs'.node?_of_mem hm', Option.map_some, Node.label_of_origin ho]

/-- The call expands all segments of the node, or none. -/
def AddsSprouts (c : Call (List NodeId)) (s : Session) (L : Finset String) (id : NodeId) : Prop :=
  ∃ children s', c s = (.ok children, s') ∧ s.Unfolds L s' ∧ ∀ c ∈ children, s'.IsSprout L id c

theorem sprouts_autoExpand (hs : s.diagram.Orderly) (hn : s.diagram.node? id = some n)
    (hL : ∀ seg ∈ n.relationships, seg.target ∈ L) : AddsSprouts (autoExpand id) s L id := by
  have hrun := (chores_autoExpand id s).deeds
  unfold AddsSprouts
  rw [autoExpand, Call.bind_ok (Call.requireNode_eq hn), Call.get_bind] at hrun ⊢
  split
  · exact ⟨[], s, rfl, .refl L s, by simp⟩
  · rename_i hall
    rw [if_neg hall] at hrun
    have hself : s.expandsItself id = true := by
      simpa [expandsItself, hn] using hall
    have hcount : 0 + n.relationships.length ≤ n.relationships.length := by omega
    obtain ⟨new, hnew, hids, hchildren⟩ :=
      prolongs_expandSegments s.compiler.provider hn hL hcount
    rw [Call.bind_ok (expandSegments_eq hn hcount), ← hids] at hrun ⊢
    dsimp only at hrun ⊢
    split at hrun
    · rename_i hne
      rw [if_pos hne]
      exact ⟨_, _, rfl, isSprout_of_prolongs hs.toNumbered hnew rfl (hrun.orderly hs).toNumbered
        hself hchildren⟩
    · rename_i hnil
      rw [if_neg hnil]
      exact ⟨_, _, rfl, isSprout_of_prolongs hs.toNumbered hnew rfl (hrun.orderly hs).toNumbered
        hself hchildren⟩

theorem target_place (slice : Double) (i : Nat) (seg : Segment) :
    (seg.place slice i).target = seg.target :=
  rfl

theorem target_of_mem_layout {segments : List Segment} (hL : ∀ seg ∈ segments, seg.target ∈ L) :
    ∀ seg ∈ Segment.layout segments, seg.target ∈ L := by
  intro seg hseg
  obtain ⟨i, hi, rfl⟩ := List.mem_mapIdx.1 hseg
  rw [target_place]
  exact hL segments[i] (List.getElem_mem hi)

theorem sprouts_storeRelations (hs : s.diagram.Orderly) (hn : s.diagram.node? id = some n)
    {segments : List Segment} (hL : ∀ seg ∈ segments, seg.target ∈ L) :
    AddsSprouts (storeRelations id segments) s L id := by
  have hset := setRelationships_eq hn segments
  let s₁ : Session := { s with
    diagram := (s.diagram.setRelationships id segments).2
    events := s.events ++ [.relationsLoaded id] }
  have hs₁ : s₁.diagram.Orderly := hs.run s.compiler.provider (.setRelationships id segments)
  have hn₁ : s₁.diagram.node? id = some (n.withSegments segments) := by
    show (s.diagram.setRelationships id segments).2.node? id = _
    rw [hset, node?_modify_of_some (f := Node.withSegments segments) (fun _ => rfl) hn,
      if_pos (id_of_node? hn)]
  obtain ⟨children, s', hs', hunfolds, hsprouts⟩ :=
    sprouts_autoExpand hs₁ hn₁ (target_of_mem_layout hL)
  have hfirst : s.Unfolds L s₁ :=
    ⟨rfl, [], prolongs_setRelationships id segments s.diagram, by simp⟩
  refine ⟨children, s', ?_, hfirst.trans hunfolds hs₁.toNumbered, hsprouts⟩
  have hcall : Call.onDiagram (Diagram.setRelationships id segments) s =
      (.ok (), { s with diagram := (s.diagram.setRelationships id segments).2 }) :=
    Call.onDiagram_eq (Prod.ext (by rw [hset]) rfl)
  rw [storeRelations, Call.bind_ok hcall]
  exact hs'

/-- Relations that are not stored in the end add nothing. -/
theorem sprouts_applyDiscovery (hs : s.diagram.Orderly) {r : Fetched NodeId}
    (hL : ∀ seg ∈ discoveredSegments r.outcome, seg.target ∈ L) :
    AddsSprouts (applyDiscovery r) s L r.context := by
  obtain ⟨s₁, hd, hc, hcase⟩ := applyDiscovery_cases r s
  have hsame : s.Unfolds L s₁ := .of_diagram hc hd
  unfold AddsSprouts
  rcases hcase with ⟨-, ⟨n, hn⟩, he⟩ | ⟨-, he⟩
  · rw [← hd] at hs hn
    obtain ⟨children, s', hs', hunfolds, hsprouts⟩ := sprouts_storeRelations hs hn hL
    exact ⟨children, s', he.trans hs', hsame.trans hunfolds hs.toNumbered, hsprouts⟩
  · exact ⟨[], s₁, he, hsame, by simp⟩

end Session

/-! ## Relations that lead to finitely many labels -/

/-- All relations lead to labels of `L`, those of schemas and those in the answers to discoveries,
and every discovery is answered. -/
structure Endpoint.Confines (e : Endpoint) (c : Compiler) (L : Finset String) : Prop where
  schemas : ∀ label schema, (c.properties label).schema = some schema →
    ∀ seg ∈ schema.segments, seg.target ∈ L
  answers : ∀ d id statement generation, c.relationQuery d id = .ok statement →
    ∃ o, e { generation, batch := [statement] } = some o ∧
      ∀ seg ∈ Session.discoveredSegments o, seg.target ∈ L

namespace Session

variable {s s' : Session} {e : Endpoint} {L : Finset String} {id c : NodeId}

/-- A session whose relations lead to finitely many labels. -/
structure Charted (s : Session) (e : Endpoint) (L : Finset String) : Prop where
  confines : e.Confines s.compiler L
  orderly : s.diagram.Orderly
  bounded : s.requests.Bounded

theorem Charted.deeds (h : s.Charted e L) (hs : s.Deeds s') : s'.Charted e L :=
  ⟨by rw [hs.compiler]; exact h.confines, hs.orderly h.orderly, (hs.later h.bounded).bounded⟩

/-- What came of loading the relations of a node: this was refused, or children of the node are
given back. -/
inductive LoadsFrom (s : Session) (L : Finset String) (id : NodeId) :
    Except Halt (List NodeId) × Session → Prop where
  | refused (g : GraphError) {after : Session} (ha : s.Unfolds L after) :
    LoadsFrom s L id (.error (.refused g), after)
  | loaded {children : List NodeId} {after : Session} (ha : s.Unfolds L after)
    (hc : ∀ c ∈ children, after.IsSprout L id c) : LoadsFrom s L id (.ok children, after)

/-- Where there is no schema, the relations are asked for, and the answer is merged. -/
theorem loadsFrom_pending (hs : s.Charted e L) {statement : Statement}
    (hq : s.compiler.relationQuery s.diagram id = .ok statement)
    (hbegin : beginDiscovery id s = (.ok (.pending (s.requests.issueDiscovery id [statement]).1),
      { s with requests := (s.requests.issueDiscovery id [statement]).2 })) :
    s.LoadsFrom L id (loadOne e id s) := by
  obtain ⟨o, ho, hL⟩ := hs.confines.answers s.diagram id statement (s.requests.generation + 1) hq
  obtain ⟨l, hl⟩ := hs.bounded.wait_issueDiscovery id ho
  let r : Fetched NodeId := ⟨.relations, s.requests.generation + 1, id, o⟩
  have hawait : Run.await e (s.requests.issueDiscovery id [statement]).1
      { s with requests := (s.requests.issueDiscovery id [statement]).2 } =
        (.ok r, { s with requests := l }) := by
    rw [Run.await, Lifecycle.issueDiscovery_fst]
    rw [Lifecycle.issueDiscovery_fst] at hl
    rw [hl]
  obtain ⟨children, s', hs', hunfolds, hsprouts⟩ :=
    sprouts_applyDiscovery (s := { s with requests := l }) (r := r) hs.orderly hL
  have hsame : s.Unfolds L { s with requests := l } := .of_diagram rfl rfl
  rw [loadOne, Run.bind_ok (Run.ofCall_ok hbegin)]
  dsimp only
  rw [Run.bind_ok hawait, Run.ofCall_ok hs']
  exact .loaded (hsame.trans hunfolds hs.orderly.toNumbered) hsprouts

theorem loadsFrom_loadOne (hs : s.Charted e L) (id : NodeId) :
    s.LoadsFrom L id (loadOne e id s) := by
  have refused {g : GraphError} (hg : beginDiscovery id s = (.error g, s)) :
      s.LoadsFrom L id (loadOne e id s) := by
    rw [loadOne, Run.bind_error (Run.ofCall_error hg)]
    exact .refused g (.refl L s)
  cases hn : s.diagram.node? id with
  | none => exact refused (Call.bind_error (by rw [Call.requireNode, hn]))
  | some n =>
    have hbegin : beginDiscovery id s = _ := Call.bind_ok (Call.requireNode_eq hn)
    rw [Call.get_bind] at hbegin
    cases hschema : (s.properties n.label).schema with
    | some schema =>
      obtain ⟨children, s', hs', hunfolds, hsprouts⟩ :=
        sprouts_storeRelations hs.orderly hn (hs.confines.schemas n.label schema hschema)
      rw [hschema] at hbegin
      dsimp only at hbegin
      rw [Call.bind_ok hs'] at hbegin
      rw [loadOne, Run.bind_ok (Run.ofCall_ok hbegin)]
      exact .loaded hunfolds hsprouts
    | none =>
      rw [hschema] at hbegin
      dsimp only at hbegin
      cases hq : s.compiler.relationQuery s.diagram id with
      | error g => exact refused (by rw [hbegin, hq]; rfl)
      | ok statement => exact loadsFrom_pending hs hq (by rw [hbegin, hq]; rfl)

/-! ## Labels that are left -/

/-- A node's label is in `L`, and fewer than `k` labels of `L` do not occur above it. -/
structure Within (s : Session) (L : Finset String) (k : Nat) (id : NodeId) : Prop where
  label : ∃ l ∈ L, s.diagram.label? id = some l
  room : (L.filter fun l => some l ∉ s.diagram.labelsAbove id).card < k

theorem Within.number_lt {k : Nat} (h : s.Within L k id) (hs : s.diagram.Numbered) :
    id.number < s.diagram.nextNode := by
  obtain ⟨l, -, hl⟩ := h.label
  exact hs.number_lt_of_label? hl

theorem Within.unfolds {k : Nat} (h : s.Within L k id) (hs : s.diagram.Numbered)
    (hu : s.Unfolds L s') : s'.Within L k id := by
  have hlt := h.number_lt hs
  refine ⟨?_, ?_⟩
  · rw [hu.label?_eq hlt]
    exact h.label
  · rw [hu.labelsAbove_eq hlt]
    exact h.room

/-- There is one label less below a node that expands itself. -/
theorem IsSprout.within {k : Nat} (hs : s.diagram.Numbered) (h : s.IsSprout L id c)
    (hid : s.Within L (k + 1) id) : s.Within L k c := by
  refine ⟨h.label, Nat.lt_of_lt_of_le ?_ (Nat.le_of_lt_succ hid.room)⟩
  obtain ⟨l, hl, -, habove⟩ := expandsItself_iff.1 h.unfolds
  obtain ⟨l', hmem, hl'⟩ := hid.label
  obtain rfl : l' = l := Option.some.inj (hl'.symm.trans hl)
  rw [hs.labelsAbove_eq_cons h.parent, hl]
  -- the label of the parent is one that is not left any more
  refine Finset.card_lt_card ⟨fun x hx => ?_, fun hback => ?_⟩
  · obtain ⟨hx, hnot⟩ := Finset.mem_filter.1 hx
    exact Finset.mem_filter.2 ⟨hx, fun hin => hnot (List.mem_cons_of_mem _ hin)⟩
  · have hin := hback (Finset.mem_filter.2 ⟨hmem, habove⟩)
    simp at hin

theorem IsSprout.within_all (h : s.IsSprout L id c) : s.Within L (L.card + 1) c :=
  ⟨h.label, Nat.lt_succ_of_le (Finset.card_filter_le _ _)⟩

/-! ## The end of a load -/

theorem unfolds_loadAll (hs : s.Charted e L) (fuel : Nat) (ids : List NodeId) :
    s.Unfolds L (loadAll e fuel ids s).2 := by
  induction fuel generalizing s ids with
  | zero => cases ids <;> exact .refl L s
  | succ fuel ih =>
    cases ids with
    | nil => exact .refl L s
    | cons id rest =>
      have hload := loadsFrom_loadOne hs id
      have hdeeds := deeds_loadOne e id s
      rw [loadAll_cons]
      rcases hr : loadOne e id s with ⟨res, s₁⟩
      rw [hr] at hload hdeeds
      cases hload with
      | refused g ha => rwa [Run.bind_error hr]
      | loaded ha hc =>
        rw [Run.bind_ok hr]
        have hs₁ := hs.deeds hdeeds
        exact ha.trans (ih hs₁ _) hs₁.orderly.toNumbered

/-- After some nodes have been taken up, what is left of the fuel goes to those that come next. -/
theorem loadAll_append (rest : List NodeId) {fuel : Nat} {ids : List NodeId}
    (h : (loadAll e fuel ids s).1 ≠ .error .unfinished) : ∃ used ≤ fuel, ∀ more,
      loadAll e (used + more) (ids ++ rest) s =
        (loadAll e fuel ids >>= fun _ => loadAll e more rest) s := by
  induction fuel generalizing s ids with
  | zero =>
    cases ids with
    | nil => exact ⟨0, Nat.le_refl 0, fun more => by rw [Nat.zero_add]; rfl⟩
    | cons id ids => exact absurd rfl h
  | succ fuel ih =>
    cases ids with
    | nil => exact ⟨0, Nat.zero_le _, fun more => by rw [Nat.zero_add]; rfl⟩
    | cons id ids =>
      rw [loadAll_cons] at h ⊢
      rcases hr : loadOne e id s with ⟨res, s₁⟩
      cases res with
      | error g =>
        refine ⟨1, by omega, fun more => ?_⟩
        rw [Nat.add_comm 1, List.cons_append, loadAll_cons, Run.bind_error hr,
          Run.bind_error (Run.bind_error hr)]
      | ok children =>
        rw [Run.bind_ok hr] at h
        obtain ⟨used, hused, heq⟩ := ih h
        refine ⟨used + 1, by omega, fun more => ?_⟩
        rw [Nat.add_right_comm, List.cons_append, loadAll_cons, Run.bind_ok hr,
          ← List.append_assoc, heq, Run.bind_assoc, Run.bind_ok hr]

/-- More fuel than is needed makes no difference. -/
theorem loadAll_of_le {fuel : Nat} {ids : List NodeId}
    (h : (loadAll e fuel ids s).1 ≠ .error .unfinished) {more : Nat} (hle : fuel ≤ more) :
    loadAll e more ids s = loadAll e fuel ids s := by
  obtain ⟨used, hused, heq⟩ := loadAll_append [] h
  have hmore := heq (more - used)
  rw [List.append_nil, Nat.add_sub_cancel' (Nat.le_trans hused hle)] at hmore
  rw [hmore]
  rcases hr : loadAll e fuel ids s with ⟨res, s₁⟩
  cases res with
  | error g => rw [Run.bind_error hr]
  | ok _ =>
    rw [Run.bind_ok hr]
    cases more - used <;> rfl

/-- It was not given up. -/
def Returns (r : Except Halt Unit) : Prop := ∀ h, r = .error h → ∃ g, h = .refused g

/-- With enough fuel, all nodes are taken up that there are and that come of them, unless this is
refused. -/
def Ends (s : Session) (e : Endpoint) (ids : List NodeId) : Prop :=
  ∃ fuel, Returns (loadAll e fuel ids s).1

theorem Returns.finished {r : Except Halt Unit} (h : Returns r) : r ≠ .error .unfinished := by
  intro he
  obtain ⟨g, hg⟩ := h _ he
  cases hg

theorem Returns.ok {r : Run Unit} (h : Returns (r s).1) (hr : r.Unrefused s) :
    (r s).1 = .ok () := by
  cases hres : (r s).1 with
  | ok a => rfl
  | error g =>
    obtain ⟨g', rfl⟩ := h g hres
    exact (hr g' (r s).2 (Prod.ext hres rfl)).elim

theorem Ends.append {ids rest : List NodeId} (h : s.Ends e ids)
    (hrest : ∀ fuel s₁, loadAll e fuel ids s = (.ok (), s₁) → s₁.Ends e rest) :
    s.Ends e (ids ++ rest) := by
  obtain ⟨fuel, hfuel⟩ := h
  obtain ⟨used, -, heq⟩ := loadAll_append rest hfuel.finished
  rcases hr : loadAll e fuel ids s with ⟨res, s₁⟩
  cases res with
  | error g =>
    refine ⟨used + 0, ?_⟩
    rw [heq, Run.bind_error hr]
    rwa [hr] at hfuel
  | ok _ =>
    obtain ⟨more, hmore⟩ := hrest fuel s₁ hr
    refine ⟨used + more, ?_⟩
    rwa [heq, Run.bind_ok hr]

theorem Charted.ends_cons (hs : s.Charted e L) {rest : List NodeId}
    (h : ∀ children s₁, loadOne e id s = (.ok children, s₁) → s.Unfolds L s₁ → s₁.Charted e L →
      (∀ c ∈ children, s₁.IsSprout L id c) → s₁.Ends e (children.reverse ++ rest)) :
    s.Ends e (id :: rest) := by
  have hload := loadsFrom_loadOne hs id
  have hdeeds := deeds_loadOne e id s
  rcases hr : loadOne e id s with ⟨res, s₁⟩
  rw [hr] at hload hdeeds
  cases hload with
  | refused g ha =>
    refine ⟨1, fun h he => ⟨g, ?_⟩⟩
    rw [loadAll_cons, Run.bind_error hr] at he
    exact (Except.error.inj he).symm
  | loaded ha hc =>
    obtain ⟨fuel, hfuel⟩ := h _ s₁ hr ha (hs.deeds hdeeds) hc
    refine ⟨fuel + 1, ?_⟩
    rwa [loadAll_cons, Run.bind_ok hr]

/-- By induction on the labels that are left for the nodes of a list, and on the list. -/
theorem Charted.ends (k : Nat) (hs : s.Charted e L) {ids : List NodeId}
    (hids : ∀ id ∈ ids, s.Within L k id) : s.Ends e ids := by
  induction k generalizing s ids with
  | zero =>
    cases ids with
    | nil => exact ⟨0, nofun⟩
    | cons id rest => exact absurd (hids id (by simp)).room (Nat.not_lt_zero _)
  | succ k ih =>
    induction ids generalizing s with
    | nil => exact ⟨0, nofun⟩
    | cons id rest ihrest =>
      refine hs.ends_cons fun children s₁ _ ha hs₁ hc => ?_
      have hnumbered := hs.orderly.toNumbered
      have hkept {x : NodeId} (hx : x ∈ id :: rest) : s₁.Within L (k + 1) x :=
        (hids x hx).unfolds hnumbered ha
      have hchildren : s₁.Ends e children.reverse := ih hs₁ fun c hcm =>
        (hc c (List.mem_reverse.1 hcm)).within hs₁.orderly.toNumbered (hkept (by simp))
      refine hchildren.append fun fuel s₂ hr => ?_
      have hu := unfolds_loadAll hs₁ fuel children.reverse
      have hdeeds := deeds_loadAll e fuel children.reverse s₁
      rw [hr] at hu hdeeds
      exact ihrest (hs₁.deeds hdeeds) fun x hx =>
        (hkept (by simp [hx])).unfolds hs₁.orderly.toNumbered hu

theorem Charted.ends_load (hs : s.Charted e L) (id : NodeId) : s.Ends e [id] :=
  hs.ends_cons fun children s₁ _ _ hs₁ hc => by
    rw [List.append_nil]
    exact hs₁.ends (L.card + 1) fun c hcm => (hc c (List.mem_reverse.1 hcm)).within_all

/-! ## The way from a node to the root -/

/-- A new node hangs from the node. -/
def unfolded (s s' : Session) (p : NodeId) : Bool :=
  s'.diagram.nodes.any fun n => decide (s.diagram.nextNode ≤ n.id.number) && n.parent == some p

/-- The labels of nodes that unfolded do not occur above them. So those on the way from a node to
the root carry different labels, and there are not many new nodes on the way. -/
structure Lengthens (L : Finset String) (s s' : Session) : Prop where
  above : ∀ p, s.unfolded s' p = true → s'.diagram.label? p ∉ s'.diagram.labelsAbove p
  labels : ∀ x, (((x :: s'.diagram.ancestors x).filter (s.unfolded s')).map
    s'.diagram.label?).Nodup
  length : ∀ x, ((x :: s'.diagram.ancestors x).filter fun p =>
    s.diagram.nextNode ≤ p.number).length ≤ L.card + 1

theorem Unfolds.expandsItself (h : s.Unfolds L s') (hs : s.diagram.Numbered) {p : NodeId}
    (hp : s.unfolded s' p = true) : s'.expandsItself p = true := by
  obtain ⟨-, new, hnew, hgrown⟩ := h
  obtain ⟨n, hn, hcond⟩ := List.any_eq_true.1 hp
  simp only [Bool.and_eq_true, decide_eq_true_eq, beq_iff_eq] at hcond
  obtain ⟨m, hm, ho⟩ := hnew.mem_new hs hn hcond.1
  obtain ⟨-, q, hq, hself⟩ := hgrown m hm
  rw [Node.parent_of_origin ho, hcond.2] at hq
  rwa [Option.some.inj hq]

theorem Unfolds.above (h : s.Unfolds L s') (hs : s.diagram.Numbered) {p : NodeId}
    (hp : s.unfolded s' p = true) : s'.diagram.label? p ∉ s'.diagram.labelsAbove p := by
  obtain ⟨l, hl, -, habove⟩ := expandsItself_iff.1 (h.expandsItself hs hp)
  rwa [hl]

/-- What is above an unfolded node does not carry its label. -/
theorem Unfolds.labels (h : s.Unfolds L s') (hs : s.diagram.Numbered) (x : NodeId) :
    (((x :: s'.diagram.ancestors x).filter (s.unfolded s')).map s'.diagram.label?).Nodup := by
  rw [List.Nodup, List.pairwise_map, List.pairwise_filter]
  refine (pairwise_ancestors s'.diagram x).imp fun {a b} hab ha _ he => ?_
  refine h.above hs ha ?_
  rw [he]
  exact List.mem_map_of_mem hab

/-- A new node above another node has unfolded: a new node leads to it. -/
theorem unfolded_of_mem_ancestors (hs' : s'.diagram.Numbered) {x a : NodeId}
    (ha : a ∈ s'.diagram.ancestors x) (hnew : s.diagram.nextNode ≤ a.number) :
    s.unfolded s' a = true := by
  obtain ⟨b, -, n, hn, rfl, hp⟩ := Relation.TransGen.tail'_iff.1 (hs'.mem_ancestors_iff.1 ha)
  have hlt := hs'.parentBefore n hn a hp
  refine List.any_eq_true.2 ⟨n, hn, ?_⟩
  simp only [Bool.and_eq_true, decide_eq_true_eq, beq_iff_eq]
  exact ⟨by omega, hp⟩

theorem Unfolds.label_mem (h : s.Unfolds L s') (hs : s.diagram.Numbered) {p : NodeId} {l : String}
    (hp : s.diagram.nextNode ≤ p.number) (hl : s'.diagram.label? p = some l) : l ∈ L := by
  obtain ⟨-, new, hnew, hgrown⟩ := h
  obtain ⟨n, hn, rfl⟩ := Option.map_eq_some_iff.1 hl
  rw [← id_of_node? hn] at hp
  obtain ⟨m, hm, ho⟩ := hnew.mem_new hs (mem_of_node? hn) hp
  rw [← Node.label_of_origin ho]
  exact (hgrown m hm).1

/-- All new nodes but the lowest one have unfolded, so their labels are different ones of `L`. -/
theorem Unfolds.length (h : s.Unfolds L s') (hs : s.diagram.Numbered) (hs' : s'.diagram.Numbered)
    (x : NodeId) : ((x :: s'.diagram.ancestors x).filter fun p =>
      s.diagram.nextNode ≤ p.number).length ≤ L.card + 1 := by
  let new : NodeId → Bool := fun p => s.diagram.nextNode ≤ p.number
  let upper := (s'.diagram.ancestors x).filter new
  have hunfolded : ∀ a ∈ upper, s.unfolded s' a = true := fun a ha => by
    obtain ⟨ha, hnew⟩ := List.mem_filter.1 ha
    exact unfolded_of_mem_ancestors hs' ha (of_decide_eq_true hnew)
  have hnodup : (upper.map s'.diagram.label?).Nodup := by
    have hsub : upper.Sublist ((x :: s'.diagram.ancestors x).filter (s.unfolded s')) := by
      rw [← List.filter_eq_self.2 hunfolded]
      exact (List.filter_sublist.trans (List.sublist_cons_self ..)).filter _
    exact (h.labels hs x).sublist (hsub.map _)
  have hlabels : (upper.map s'.diagram.label?).toFinset ⊆ L.image some := fun o ho => by
    obtain ⟨a, ha, rfl⟩ := List.mem_map.1 (List.mem_toFinset.1 ho)
    obtain ⟨l, hl, -⟩ := expandsItself_iff.1 (h.expandsItself hs (hunfolded a ha))
    have hnew := of_decide_eq_true (List.mem_filter.1 ha).2
    rw [hl]
    exact Finset.mem_image_of_mem some (h.label_mem hs hnew hl)
  have hupper : upper.length ≤ L.card :=
    calc upper.length = (upper.map s'.diagram.label?).toFinset.card := by
          rw [List.toFinset_card_of_nodup hnodup, List.length_map]
      _ ≤ (L.image some).card := Finset.card_le_card hlabels
      _ ≤ L.card := Finset.card_image_le
  refine Nat.le_trans ?_ (Nat.succ_le_succ hupper)
  rw [List.filter_cons]
  split
  · exact Nat.le_refl _
  · exact Nat.le_succ _

theorem charted_performAll (provider : Provider) (settings : QuerySettings) (actions : List Action)
    (he : e.Confines { provider, settings } L) :
    (performAll actions (new provider settings)).Charted e L :=
  Charted.deeds ⟨he, .new _, by simp [Lifecycle.Bounded, new]⟩ (deeds_performAll actions _)

/-- Whatever happened before, a load comes to its end if relations lead to finitely many labels,
and every way to the root gets at most one node more than there are labels. For a node of the query
of a session in order it is not refused. -/
theorem loading_ends (provider : Provider) (settings : QuerySettings) (actions : List Action)
    (id : NodeId) (he : e.Confines { provider, settings } L) :
    let s := performAll actions (new provider settings)
    (∃ fuel, Returns (loadAll e fuel [id] s).1 ∧
      (∀ more ≥ fuel, loadAll e more [id] s = loadAll e fuel [id] s) ∧
      (s.Valid → s.diagram.IsQueryNode id → (loadAll e fuel [id] s).1 = .ok ())) ∧
    ∀ fuel, s.Lengthens L (loadAll e fuel [id] s).2 := by
  intro s
  have hs : s.Charted e L := charted_performAll provider settings actions he
  obtain ⟨fuel, hfuel⟩ := hs.ends_load id
  refine ⟨⟨fuel, hfuel, fun more hmore => loadAll_of_le hfuel.finished hmore, fun hv hid => ?_⟩,
    fun fuel => ?_⟩
  · have hids : s.HasAll [id] := fun x hx => by rwa [List.mem_singleton.1 hx]
    exact hfuel.ok (hv.unrefused_loadAll hids e fuel)
  · have hu := unfolds_loadAll hs fuel [id]
    have hnumbered := hs.orderly.toNumbered
    have hnumbered' := (hs.deeds (deeds_loadAll e fuel [id] s)).orderly.toNumbered
    exact ⟨fun p hp => hu.above hnumbered hp, hu.labels hnumbered,
      hu.length hnumbered hnumbered'⟩

/-- People know people and live in cities. -/
def peopleSchema : Schema :=
  .node "Person" [] [{ label := "KNOWS", target := .node "Person" [] [] false },
    { label := "LIVES_IN", target := .node "City" [] [] false }] false

/-- All nodes expand their relations, and those of people are known from a schema. -/
def roamingPeople : Provider :=
  { Provider.plain with
    properties := fun label =>
      { autoExpand := true, schema := if label = "Person" then some peopleSchema else none } }

/-- Whatever is asked, something is the home of people. -/
def homeEndpoint : Endpoint := fun _ =>
  some (.completed [[Table.ofList [("label", .str "HOME_OF"), ("target", .str "Person")]]])

/-- People lead to people and to cities, and those to people. -/
theorem loading_ends_for_people :
    let s := performAll [.move (.placeRoot "Person" none)] (new roamingPeople {})
    let s' := (loadAll homeEndpoint 4 [⟨0⟩] s).2
    homeEndpoint.Confines { provider := roamingPeople, settings := {} } {"Person", "City"} ∧
      (loadAll homeEndpoint 4 [⟨0⟩] s).1 = .ok () ∧
      s'.diagram.nodes.map (fun n => (n.label, n.parent.map NodeId.number)) =
        [("Person", none), ("Person", some 0), ("City", some 0), ("Person", some 2)] ∧
      s.Lengthens {"Person", "City"} s' := by
  intro s s'
  have he : homeEndpoint.Confines { provider := roamingPeople, settings := {} }
      {"Person", "City"} := by
    refine ⟨fun label schema hschema => ?_, fun d id statement generation _ => ?_⟩
    · have hschema : (if label = "Person" then some peopleSchema else none) = some schema := hschema
      split at hschema
      · rw [← Option.some.inj hschema]
        exact target_of_mem_layout (by decide +kernel)
      · cases hschema
    · exact ⟨_, rfl, by decide +kernel⟩
  exact ⟨he, by decide +kernel, by decide +kernel, (loading_ends roamingPeople {} _ ⟨0⟩ he).2 4⟩

end Session

end PatternQuery
