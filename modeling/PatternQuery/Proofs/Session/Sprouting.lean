import PatternQuery.Proofs.Diagram.Growth
import PatternQuery.Proofs.Session.Loading
import PatternQuery.Proofs.Statement.Mapping

/-!
# What discoveries add

Relations that a session loads for a node add children to this node alone, one for each segment if
its label asks for that and does not occur above it already, else none
(`Session.sprouts_storeRelations`). The children are not negated.
-/

namespace PatternQuery

namespace Diagram

variable {d : Diagram} {id : NodeId} {n : Node}

theorem Numbered.isBareAt_nextNode (h : d.Numbered) : d.isBareAt ⟨d.nextNode⟩ = false := by
  refine Bool.eq_false_iff.2 fun hbare => ?_
  obtain ⟨n, hn, -⟩ := Option.any_eq_true _ _ |>.1 hbare
  have := h.number_lt_of_node? hn
  simp at this

theorem ancestors_setRelationships (hn : d.node? id = some n) (segments : List Segment)
    (x : NodeId) : (d.setRelationships id segments).2.ancestors x = d.ancestors x := by
  rw [setRelationships_eq hn, modify_eq_mapNodes]
  refine ancestors_mapNodes ⟨fun n => ?_, fun n => ?_, fun n => ?_, fun n => ?_, fun n => ?_⟩ d x
  all_goals split <;> rfl

/-- One diagram comes from the other by new children of a node. -/
structure Sprouts (d d' : Diagram) (id : NodeId) (children : List NodeId) : Prop where
  orderly : d'.Orderly
  bare : ∀ x, d'.isBareAt x = d.isBareAt x
  below : d'.children id = d.children id ++ children
  elsewhere : ∀ x, x ≠ id → d'.children x = d.children x
  positive : ∀ c ∈ children, d'.isBareAt c = false

variable {d' e : Diagram} {children more : List NodeId}

theorem Sprouts.nothing (hd' : d'.Orderly) (h : d.SameGrowth d')
    (hc : ∀ x, d'.children x = d.children x) : d.Sprouts d' id [] :=
  ⟨hd', h.bare, by rw [hc, List.append_nil], fun x _ => hc x, by simp⟩

theorem Sprouts.refl (h : d.Orderly) : d.Sprouts d id [] := .nothing h (.refl d) fun _ => rfl

theorem Sprouts.trans (h : d.Sprouts d' id children) (h' : d'.Sprouts e id more) :
    d.Sprouts e id (children ++ more) where
  orderly := h'.orderly
  bare x := (h'.bare x).trans (h.bare x)
  below := by rw [h'.below, h.below, List.append_assoc]
  elsewhere x hx := (h'.elsewhere x hx).trans (h.elsewhere x hx)
  positive c hc := by
    rcases List.mem_append.1 hc with hc | hc
    · rw [h'.bare, h.positive c hc]
    · exact h'.positive c hc

/-- Children of other nodes than bare negations do not matter. -/
theorem Sprouts.sameGrowth (h : d.Sprouts d' id children)
    (hid : d.isBareAt id = false ∨ children = []) : d.SameGrowth d' where
  bare := h.bare
  children x hx := by
    by_cases hxid : x = id
    · subst hxid
      rcases hid with hid | rfl
      · rw [hid] at hx
        cases hx
      · rw [h.below, List.append_nil]
    · exact h.elsewhere x hxid

/-- New children of a bare negation, if there are any, hang from it. -/
theorem Sprouts.severed_iff (h : d.Sprouts d' id children) (hd : d.Orderly) (hs : d.Severed) :
    d'.Severed ↔ (d.isBareAt id && !children.isEmpty) = false := by
  cases hid : d.isBareAt id with
  | false =>
    rw [(h.sameGrowth (.inl hid)).severed_iff hd.toNumbered h.orderly.toNumbered]
    simp [hs]
  | true =>
    cases children with
    | nil =>
      rw [(h.sameGrowth (.inr rfl)).severed_iff hd.toNumbered h.orderly.toNumbered]
      simp [hs]
    | cons c cs =>
      have hgrowth : d'.HasGrowth := ⟨id, (h.bare id).trans hid, by rw [h.below]; simp⟩
      rw [h.orderly.severed_iff_not_hasGrowth]
      simp [hgrowth]

theorem Orderly.sprouts_expandRelationship (h : d.Orderly) (p : Provider) {index : Nat}
    (hn : d.node? id = some n) (hi : index < n.relationships.length) :
    ∃ child d', d.expandRelationship p id index = (.ok child, d') ∧ d'.node? id = some n ∧
      d.Sprouts d' id [child] := by
  have heq := expandRelationship_eq p hn (List.getElem?_eq_getElem hi)
  have horderly := h.run p (.expandRelationship id index)
  obtain ⟨child, d', hd, hn'⟩ := expandRelationship_ok p hn hi
  have horderly : d'.Orderly := by
    have : (Operation.run p (.expandRelationship id index) d).2 = d' := congrArg Prod.snd hd
    rwa [this] at horderly
  refine ⟨child, d', hd, hn', ?_⟩
  rw [heq] at hd
  obtain ⟨hchild, rfl⟩ := Prod.mk.inj hd
  obtain rfl := Except.ok.inj hchild
  refine ⟨horderly, fun x => isBareAt_attachChild p _ _, ?_, fun x hx => ?_, fun c hc => ?_⟩
  · rw [children_attachChild, if_pos rfl]
  · rw [children_attachChild, if_neg fun he => hx he.symm, List.append_nil]
  · rw [List.mem_singleton.1 hc, isBareAt_attachChild, h.isBareAt_nextNode]

end Diagram

namespace Session

open Diagram

variable {s : Session} {id : NodeId} {n : Node}

/-! ## Children of one node -/

/-- The call succeeds, and what it gives back are the new children of a node. -/
def Adds (c : Call (List NodeId)) (s : Session) (id : NodeId) (count : Nat) : Prop :=
  ∃ children s', c s = (.ok children, s') ∧ s'.compiler = s.compiler ∧
    s.diagram.Sprouts s'.diagram id children ∧ children.length = count

theorem adds_expandSegments (h : s.diagram.Orderly) (hn : s.diagram.node? id = some n)
    {index count : Nat} (hc : index + count ≤ n.relationships.length) :
    Adds (expandSegments id index count) s id count := by
  induction count generalizing s index with
  | zero => exact ⟨[], s, rfl, rfl, .refl h, rfl⟩
  | succ count ih =>
    have hindex : index < n.relationships.length := by omega
    have hrest : index + 1 + count ≤ n.relationships.length := by omega
    obtain ⟨child, d, hd, hn', hsprouts⟩ :=
      h.sprouts_expandRelationship s.compiler.provider hn hindex
    obtain ⟨children, s', hs', hcompiler, hmore, hlength⟩ :=
      ih (s := { s with diagram := d }) hsprouts.orderly hn' hrest
    refine ⟨child :: children, s', ?_, hcompiler, hsprouts.trans hmore, by simp [hlength]⟩
    rw [expandSegments, Call.get_bind, Call.bind_ok (Call.onDiagram_eq hd), Call.bind_ok hs']
    rfl

/-- The label of a node asks for its relations to be expanded, and does not occur above it. -/
def expandsItself (s : Session) (id : NodeId) : Bool :=
  (s.diagram.node? id).any fun n =>
    (s.properties n.label).autoExpand && !hasAncestorLabeled s.diagram id n.label

theorem adds_autoExpand (h : s.diagram.Orderly) (hn : s.diagram.node? id = some n) :
    Adds (autoExpand id) s id (if s.expandsItself id then n.relationships.length else 0) := by
  unfold Adds
  rw [autoExpand, Call.bind_ok (Call.requireNode_eq hn), Call.get_bind]
  have hself : s.expandsItself id = !(!(s.properties n.label).autoExpand ||
      hasAncestorLabeled s.diagram id n.label) := by
    simp [expandsItself, hn]
  rw [hself]
  split
  · rename_i hnot
    exact ⟨[], s, rfl, rfl, .refl h, by simp [hnot]⟩
  · rename_i hall
    have hall' : 0 + n.relationships.length ≤ n.relationships.length := by omega
    obtain ⟨children, s', hs', hcompiler, hsprouts, hlength⟩ := adds_expandSegments h hn hall'
    rw [Call.bind_ok hs']
    have hlength : children.length = if (!(!(s.properties n.label).autoExpand ||
        hasAncestorLabeled s.diagram id n.label)) = true then n.relationships.length else 0 := by
      rw [hlength, Bool.eq_false_iff.2 hall]
      rfl
    dsimp only
    split
    · exact ⟨children, _, rfl, hcompiler, hsprouts, hlength⟩
    · exact ⟨children, s', rfl, hcompiler, hsprouts, hlength⟩

theorem expandsItself_setRelationships (hn : s.diagram.node? id = some n)
    (segments : List Segment) (events : List EventKind) :
    expandsItself
      { s with diagram := (s.diagram.setRelationships id segments).2, events } id =
        s.expandsItself id := by
  have hnode (x : NodeId) : ((s.diagram.setRelationships id segments).2.node? x).map Node.label =
      (s.diagram.node? x).map Node.label := by
    rw [setRelationships_eq hn, node?_modify (f := Node.withSegments segments) fun _ => rfl,
      Option.map_map]
    congr 1
    funext m
    simp only [Function.comp]
    split <;> rfl
  have hlabeled (label : String) :
      hasAncestorLabeled (s.diagram.setRelationships id segments).2 id label =
        hasAncestorLabeled s.diagram id label := by
    rw [hasAncestorLabeled, hasAncestorLabeled, ancestors_setRelationships hn]
    congr 1
    funext a
    have ha := hnode a
    cases h : s.diagram.node? a <;>
      cases h' : (s.diagram.setRelationships id segments).2.node? a <;> simp_all
  have hid := hnode id
  rw [expandsItself, expandsItself]
  dsimp only
  rw [hn] at hid ⊢
  obtain ⟨m, hm, hlabel⟩ := Option.map_eq_some_iff.1 hid
  rw [hm, Option.any_some, Option.any_some, hlabel, hlabeled]
  rfl

/-- Segments that are stored are expanded all or not at all. -/
theorem adds_storeRelations (h : s.diagram.Orderly) (hn : s.diagram.node? id = some n)
    (segments : List Segment) :
    Adds (storeRelations id segments) s id
      (if s.expandsItself id then segments.length else 0) := by
  have hstore := setRelationships_eq hn segments
  have horderly : (s.diagram.setRelationships id segments).2.Orderly :=
    h.run s.compiler.provider (.setRelationships id segments)
  let s₁ : Session := { s with
    diagram := (s.diagram.setRelationships id segments).2
    events := s.events ++ [.relationsLoaded id] }
  have hself : s₁.expandsItself id = s.expandsItself id :=
    expandsItself_setRelationships hn segments _
  have hn₁ : s₁.diagram.node? id = some (n.withSegments segments) := by
    show (s.diagram.setRelationships id segments).2.node? id = _
    rw [hstore, node?_modify_of_some (f := Node.withSegments segments) (fun _ => rfl) hn,
      if_pos (id_of_node? hn)]
  obtain ⟨children, s', hs', hcompiler, hsprouts, hlength⟩ := adds_autoExpand (s := s₁) horderly hn₁
  have hfirst : s.diagram.Sprouts s₁.diagram id [] :=
    .nothing horderly (sameGrowth_setRelationships id segments _) fun x => by
      show (s.diagram.setRelationships id segments).2.children x = _
      rw [hstore]
      rfl
  refine ⟨children, s', ?_, hcompiler, hfirst.trans hsprouts, ?_⟩
  · have hset : Call.onDiagram (Diagram.setRelationships id segments) s =
        (.ok (), { s with diagram := (s.diagram.setRelationships id segments).2 }) :=
      Call.onDiagram_eq (Prod.ext (by rw [hstore]) rfl)
    rw [storeRelations, Call.bind_ok hset]
    exact hs'
  · rw [hlength, hself]
    simp [Node.withSegments, Segment.layout]

end Session

end PatternQuery
