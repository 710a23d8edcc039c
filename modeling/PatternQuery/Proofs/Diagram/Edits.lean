import Mathlib.Logic.Relation
import PatternQuery.Proofs.Diagram.Operation

/-!
# Operations as strokes

Every operation is a sequence of a few kinds of strokes (`Diagram.Linked.strokes_run`), in a diagram
that it may have cleared before (`Operation.clears`): nodes are changed without losing what they
were made with (`Node.origin`), the candidates of a node go or a node with everything below it,
nodes come, numbers are set aside. What every stroke keeps, every operation keeps. So nodes and
links run in step whatever the arguments are (`Diagram.ReachableBy.linked`).
-/

namespace PatternQuery

/-- The operation begins with an empty diagram. -/
def Operation.clears (o : Operation) (d : Diagram) : Bool :=
  match o with
  | addRoot _ _ | addSchema _ _ => !d.isEmpty
  | clear => true
  | removeNode id => (d.node? id).any Node.isRoot
  | _ => false

/-- What the strokes of an operation start from. -/
def Operation.start (o : Operation) (d : Diagram) : Diagram := if o.clears d then d.clear else d

namespace Diagram

/-- A step that operations consist of. -/
inductive Stroke (p : Provider) : Diagram → Diagram → Prop where
  | modify {d : Diagram} (id : NodeId) (f : Node → Node) (hf : ∀ n, (f n).origin = n.origin) :
    Stroke p d (d.modify id f)
  | hide {d : Diagram} (id : NodeId) : Stroke p d (d.withoutValues id)
  | cut {d : Diagram} (id : NodeId) : Stroke p d (d.removeSubtree id).2
  | addRoot {d : Diagram} (label : String) (anchor : Option Position) (h : d.isEmpty = true) :
    Stroke p d (d.addNode p .root label fun n => { n with fixed := true, position := anchor }).2
  | attachChild {d : Diagram} (id : NodeId) (s : Segment) (kind : NodeKind)
    (hk : kind = .choose ∨ kind = .group) (hid : id.number < d.nextNode) :
    Stroke p d (d.attachChild p id s kind).2
  | addValueNode {d : Diagram} (id : NodeId) (label : String) (row : Row)
    (hid : id.number < d.nextNode) : Stroke p d (d.addValueNode id label row)
  | setAside {d : Diagram} (k : Nat) : Stroke p d { d with nextNode := d.nextNode + k }

/-- `d'` comes from `d` by strokes. -/
def Strokes (p : Provider) (d d' : Diagram) : Prop := Relation.ReflTransGen (Stroke p) d d'

variable {p : Provider} {d d' : Diagram} {id : NodeId}

/-! ## What strokes keep -/

theorem Linked.stroke (h : d.Linked) (hs : Stroke p d d') : d'.Linked := by
  cases hs with
  | modify id f hf => exact h.modify fun n => Node.place_of_origin (hf n)
  | hide id => exact h.withoutValues id
  | cut id => exact h.removeSubtree id
  | addRoot label anchor he => exact h.addNode_root (List.isEmpty_iff.1 he) p label anchor
  | attachChild id s kind hk hid =>
    rw [attachChild_eq]
    refine (h.attach (n := childNode p id s kind d) (l := childLink id s d) rfl rfl ?_ ?_
      hid).withNames _
    all_goals rcases hk with rfl | rfl <;> simp [childNode, childLink, Node.edge?, Link.edge,
      NodeKind.link]
  | addValueNode id label row hid =>
    rw [addValueNode_eq]
    exact h.attach rfl rfl rfl (by simp [shownNode]) hid
  | setAside k => exact h.setAside k

theorem Linked.strokes (h : d.Linked) (hs : Strokes p d d') : d'.Linked := by
  induction hs with
  | refl => exact h
  | tail _ hlast ih => exact ih.stroke hlast

theorem Stroke.nextNode_le (h : Stroke p d d') : d.nextNode ≤ d'.nextNode := by
  cases h with
  | modify id f hf => exact Nat.le_refl _
  | hide id => exact Nat.le_refl _
  | cut id => exact Nat.le_refl _
  | addRoot label anchor _ => exact Nat.le_succ _
  | attachChild id s kind _ _ => exact Nat.le_succ _
  | addValueNode id label row _ => exact Nat.le_succ _
  | setAside k => exact Nat.le_add_right _ _

theorem Strokes.nextNode_le (h : Strokes p d d') : d.nextNode ≤ d'.nextNode := by
  induction h with
  | refl => exact Nat.le_refl _
  | tail _ hlast ih => exact Nat.le_trans ih hlast.nextNode_le

/-! ## Building -/

theorem Strokes.modify (h : Strokes p d d') {f : Node → Node}
    (hf : ∀ n, (f n).origin = n.origin) : Strokes p d (d'.modify id f) :=
  h.tail (.modify id f hf)

theorem strokes_addRoot (label : String) (anchor : Option Position) (d : Diagram) :
    Strokes p (if !d.isEmpty then d.clear else d) (d.addRoot p label anchor).2 := by
  unfold Diagram.addRoot
  cases hd : d.isEmpty with
  | true => exact .single (.addRoot label anchor hd)
  | false => exact .single (.addRoot label anchor rfl)

theorem Strokes.selectRows (h : Strokes p d d') (id : NodeId) (label : String) (rows : List Row) :
    Strokes p d (d'.selectRows id label rows) :=
  Strokes.modify (h.tail (.setAside rows.length)) fun _ => rfl

theorem Linked.strokes_addSchema (h : d.Linked) (s : Schema) (anchor : Option Position) :
    Strokes p (if !d.isEmpty then d.clear else d) (d.addSchema p s anchor).2 := by
  have hstart : (if !d.isEmpty then d.clear else d).Linked := by
    split
    · exact .clear d
    · exact h
  refine (applySchema_induction (P := Strokes p (if !d.isEmpty then d.clear else d)) p
    (fun _ id label rows h _ => h.selectRows id label rows)
    (fun _ _ _ h _ => h.modify fun _ => rfl)
    (fun e id s kind hk h hid => ?_) _ s _
    (strokes_addRoot s.label anchor d) (isQueryNode_addRoot p s.label anchor d)).1
  obtain ⟨n, hn, rfl, -⟩ := hid
  exact h.tail (.attachChild n.id s kind hk ((hstart.strokes h).bounded n hn))

theorem Numbered.number_lt_of_node? (h : d.Numbered) {n : Node} (hn : d.node? id = some n) :
    id.number < d.nextNode := by
  rw [← id_of_node? hn]
  exact h.bounded n (mem_of_node? hn)

theorem Numbered.strokes_expandRelationship (h : d.Numbered) (id : NodeId) (index : Nat) :
    Strokes p d (d.expandRelationship p id index).2 := by
  unfold Diagram.expandRelationship
  split
  · exact .refl
  · split
    · exact .refl
    · exact .single (.attachChild id _ .choose (.inl rfl) (h.number_lt_of_node? ‹_›))

theorem strokes_setRelationships (id : NodeId) (segments : List Segment) (d : Diagram) :
    Strokes p d (d.setRelationships id segments).2 := by
  unfold Diagram.setRelationships
  split
  · exact .refl
  · exact Strokes.modify .refl fun _ => rfl

/-! ## Candidates -/

theorem strokes_setData (id : NodeId) (rows : List Row) (d : Diagram) :
    Strokes p d (d.setData id rows).2 := by
  unfold Diagram.setData
  split
  · exact .refl
  · exact Strokes.modify .refl fun _ => rfl

theorem Strokes.setPinned (h : Strokes p d d') (parent : Option NodeId) (fixed : Bool) :
    Strokes p d (d'.setPinned parent fixed) := by
  cases parent with
  | none => exact h
  | some id =>
    refine Strokes.modify h fun n => ?_
    split <;> rfl

theorem Strokes.collapseValues (h : Strokes p d d') (id : NodeId) :
    Strokes p d (d'.collapseValues id).2 := by
  cases hn : d'.node? id with
  | none => rwa [collapseValues_of_collapsed (by simp [hn])]
  | some n =>
    cases he : n.expanded with
    | false => rwa [collapseValues_of_collapsed (by simp [hn, he])]
    | true =>
      rw [collapseValues_eq hn he]
      refine Strokes.setPinned ?_ _ _
      exact Strokes.modify (h.tail (.hide id)) fun _ => rfl

theorem Strokes.addValueNodes (h : Strokes p d d') (hid : id.number < d'.nextNode) (label : String)
    (rows : List Row) : Strokes p d (rows.foldl (Diagram.addValueNode id label) d') := by
  induction rows generalizing d' with
  | nil => exact h
  | cons row rows ih =>
    exact ih (h.tail (.addValueNode id label row hid)) (Nat.lt_succ_of_lt hid)

theorem Linked.strokes_expandValues (hd : d.Linked) (h : Strokes p d d') (id : NodeId) :
    Strokes p d (d'.expandValues id).2 := by
  have hc := h.collapseValues id
  cases hn : d'.node? id with
  | none => rwa [expandValues_of_none (by simp [hn])]
  | some n =>
    cases hr : n.data with
    | none => rwa [expandValues_of_none (by simp [hn, hr])]
    | some rows =>
      rw [expandValues_eq hn hr]
      have hnext : d'.nextNode ≤ (d'.collapseValues id).2.nextNode :=
        Strokes.nextNode_le (p := p) (Strokes.collapseValues .refl id)
      have hid := Nat.lt_of_lt_of_le ((hd.strokes h).number_lt_of_node? hn) hnext
      refine Strokes.setPinned ?_ _ _
      exact (hc.addValueNodes hid n.label _).modify fun _ => rfl

theorem strokes_selectValue (id : NodeId) (d : Diagram) : Strokes p d (d.selectValue id).2 := by
  unfold Diagram.selectValue
  split
  · exact .refl
  · split
    · split
      · exact .refl
      · refine Strokes.collapseValues ?_ _
        exact Strokes.modify .refl fun _ => rfl
    · exact .refl

theorem Linked.strokes_turnPage (h : d.Linked) (id : NodeId) (turn : Nat → Nat) :
    Strokes p d (d.turnPage id turn).2 := by
  rw [turnPage_snd]
  refine h.strokes_expandValues ?_ id
  exact Strokes.modify .refl fun _ => rfl

theorem Linked.strokes_nextPage (h : d.Linked) (id : NodeId) :
    Strokes p d (d.nextPage id).2 := by
  unfold Diagram.nextPage
  split
  · exact h.strokes_turnPage id _
  · exact .refl

theorem Linked.strokes_previousPage (h : d.Linked) (id : NodeId) :
    Strokes p d (d.previousPage id).2 := by
  unfold Diagram.previousPage
  split
  · exact h.strokes_turnPage id _
  · exact .refl

/-! ## Pruning -/

theorem Strokes.removeSubtrees (h : Strokes p d d') (ids : List NodeId) :
    Strokes p d (ids.foldl (fun d x => (d.removeSubtree x).2) d') :=
  List.foldlRecOn (motive := Strokes p d) ids _ h fun _ he x _ => he.tail (.cut x)

theorem Strokes.pruneNegated (h : Strokes p d d') (id : NodeId) :
    Strokes p d (d'.pruneNegated id) := by
  unfold Diagram.pruneNegated
  exact ((h.removeSubtrees _).collapseValues id).modify fun _ => rfl

theorem strokes_removeValue (id value : NodeId) (d : Diagram) :
    Strokes p d (d.removeValue id value).2 := by
  unfold Diagram.removeValue
  split
  · exact .refl
  · rename_i n hn
    dsimp only
    split
    · exact .refl
    · have hselect : Strokes p d (d.modify id fun m =>
          { m with selected := n.selected.filter fun v => v.id != value }) :=
        Strokes.modify .refl fun _ => rfl
      dsimp only
      split
      · exact hselect.pruneNegated id
      · exact hselect

theorem strokes_negate (id : NodeId) (d : Diagram) : Strokes p d (d.negate id).2 := by
  unfold Diagram.negate
  split
  · exact .refl
  · split
    · exact .refl
    · split
      · exact Strokes.modify .refl fun _ => rfl
      · dsimp only
        split
        · exact Strokes.modify .refl fun _ => rfl
        · exact (Strokes.pruneNegated .refl id).modify fun _ => rfl

theorem strokes_removeNode (id : NodeId) (d : Diagram) :
    Strokes p (if (d.node? id).any Node.isRoot then d.clear else d) (d.removeNode id).2 := by
  unfold Diagram.removeNode
  cases d.node? id with
  | none => exact .refl
  | some n =>
    cases hr : n.isRoot with
    | true => simpa [hr] using .refl
    | false => simpa [hr] using .single (.cut id)

/-- Every operation is a sequence of strokes. -/
theorem Linked.strokes_run (h : d.Linked) (o : Operation) :
    Strokes p (o.start d) (o.run p d).2 := by
  unfold Operation.start
  cases o with
  | addRoot label anchor => exact strokes_addRoot label anchor d
  | addSchema s anchor => exact h.strokes_addSchema s anchor
  | clear => exact .refl
  | expandRelationship id index => exact h.strokes_expandRelationship id index
  | setRelationships id segments => exact strokes_setRelationships id segments d
  | setData id rows => exact strokes_setData id rows d
  | expandValues id => exact h.strokes_expandValues .refl id
  | collapseValues id => exact Strokes.collapseValues .refl id
  | selectValue id => exact strokes_selectValue id d
  | removeValue id value => exact strokes_removeValue id value d
  | negate id => exact strokes_negate id d
  | removeNode id => exact strokes_removeNode id d
  | nextPage id => exact h.strokes_nextPage id
  | previousPage id => exact h.strokes_previousPage id

/-! ## Reachable diagrams -/

theorem Linked.start (h : d.Linked) (o : Operation) : (o.start d).Linked := by
  unfold Operation.start
  split
  · exact .clear d
  · exact h

theorem Linked.run (h : d.Linked) (o : Operation) : (o.run p d).2.Linked :=
  (h.start o).strokes (h.strokes_run o)

theorem Linked.runAll (h : d.Linked) (ops : List Operation) :
    (Operation.runAll p ops d).Linked := by
  induction ops generalizing d with
  | nil => exact h
  | cons o rest ih => exact ih (h.run o)

variable {admits : Operation → Diagram → Prop}

/-- Nodes and links run in step, whatever was stored on candidate values. -/
theorem ReachableBy.linked (h : d.ReachableBy p admits) : d.Linked := by
  induction h with
  | new pageSize => exact (WellFormed.new pageSize).toLinked
  | step _ o _ ih => exact ih.run o

/-- What strokes and clearing keep holds of every reachable diagram, if it holds of an empty one. -/
theorem ReachableBy.of_strokes {P : Diagram → Prop} (h : d.ReachableBy p admits)
    (hnew : ∀ pageSize, P (.new pageSize)) (hclear : ∀ d, P d → P d.clear)
    (hstroke : ∀ d d', P d → Stroke p d d' → P d') : P d := by
  induction h with
  | new pageSize => exact hnew pageSize
  | @step d h o _ ih =>
    have hstart : P (o.start d) := by
      unfold Operation.start
      split
      · exact hclear d ih
      · exact ih
    have hrun := h.linked.strokes_run (p := p) o
    generalize (o.run p d).2 = d' at hrun
    induction hrun with
    | refl => exact hstart
    | tail _ hlast ihs => exact hstroke _ _ ihs hlast

end Diagram

end PatternQuery
