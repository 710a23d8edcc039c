import PatternQuery.Proofs.Diagram.Candidates
import PatternQuery.Proofs.Diagram.Orphans
import PatternQuery.Proofs.Diagram.Refusals
import PatternQuery.Proofs.Diagram.Subtrees

/-!
# Operations attempted step by step

An operation that is carried out step by step looks its node up again after every write, and each
look-up may refuse it (`Operation.attempt`). In a diagram in which nodes and links run in step no
look-up after the first write fails, so the steps come to what the operation does at once
(`Linked.runOn_attempt`), and what is refused has changed nothing (`Diagram.attempt_refused_iff`).
-/

namespace PatternQuery

open Diagram

/-- Steps that change a diagram. Where one is refused, what the steps before it wrote stays. -/
abbrev Attempt (α : Type) := ExceptT GraphError (StateM Diagram) α

namespace Attempt

variable {α β : Type} {p : Provider} {d d' : Diagram} {id : NodeId} {n : Node} {f : Node → Node}

/-- Carries out the steps. -/
def runOn (s : Attempt α) (d : Diagram) : Except GraphError α × Diagram := s.run.run d

/-! ## Steps -/

/-- Looks a node up. -/
def require (id : NodeId) : Attempt Node := do
  match (← get).node? id with
  | none => throw (.nodeNotFound id)
  | some n => return n

/-- Changes the diagram as a whole, which is never refused. -/
def edit (g : Diagram → Diagram) : Attempt Unit := modify g

/-- Looks a node up to change it. -/
def change (id : NodeId) (f : Node → Node) : Attempt Unit := do
  let _ ← require id
  edit fun d => d.modify id f

theorem runOn_pure (a : α) (d : Diagram) : (pure a : Attempt α).runOn d = (.ok a, d) := rfl

theorem runOn_bind_of_ok {s : Attempt α} {a : α} (h : s.runOn d = (.ok a, d')) (t : α → Attempt β) :
    (s >>= t).runOn d = (t a).runOn d' := by
  simp only [runOn, ExceptT.run, StateT.run] at h ⊢
  simp only [bind, ExceptT.bind, ExceptT.mk, StateT.bind, h]
  rfl

theorem runOn_bind_of_error {s : Attempt α} {e : GraphError} (h : s.runOn d = (.error e, d'))
    (t : α → Attempt β) : (s >>= t).runOn d = (.error e, d') := by
  simp only [runOn, ExceptT.run, StateT.run] at h ⊢
  simp only [bind, ExceptT.bind, ExceptT.mk, StateT.bind, h]
  rfl

theorem runOn_get_bind (t : Diagram → Attempt β) :
    ((get : Attempt Diagram) >>= t).runOn d = (t d).runOn d :=
  rfl

theorem runOn_edit_bind (g : Diagram → Diagram) (t : Unit → Attempt β) :
    (edit g >>= t).runOn d = (t ()).runOn (g d) :=
  rfl

theorem require_eq (hn : d.node? id = some n) : (require id).runOn d = (.ok n, d) := by
  rw [require, runOn_get_bind, hn]
  rfl

theorem require_none (hn : d.node? id = none) :
    (require id).runOn d = (.error (.nodeNotFound id), d) := by
  rw [require, runOn_get_bind, hn]
  rfl

theorem change_eq (h : d.Live id) (f : Node → Node) :
    (change id f).runOn d = (.ok (), d.modify id f) := by
  obtain ⟨n, hn⟩ := Option.isSome_iff_exists.1 (node?_isSome_iff.2 h)
  rw [change, runOn_bind_of_ok (require_eq hn)]
  rfl

theorem change_none (hn : d.node? id = none) :
    (change id f).runOn d = (.error (.nodeNotFound id), d) := by
  rw [change, runOn_bind_of_error (require_none hn)]

/-! ## Operations in steps -/

def setRelationships (id : NodeId) (segments : List Segment) : Attempt Unit :=
  change id fun n =>
    { n with relationships := Segment.layout segments, relationshipsLoaded := true }

def expandRelationship (p : Provider) (id : NodeId) (index : Nat) : Attempt NodeId := do
  let node ← require id
  match node.relationships[index]? with
  | none => throw (.segmentNotFound id index)
  | some s => modifyGet fun d => d.attachChild p id s .choose

def setData (id : NodeId) (rows : List Row) : Attempt Unit :=
  change id fun n => { n with data := some rows, page := 1 }

def collapseValues (id : NodeId) : Attempt Unit := do
  let node ← require id
  if node.expanded then
    edit fun d => d.withoutValues id
    change id fun n => { n with expanded := false, fixed := n.isRoot && n.fixed }
    edit fun d => d.setPinned node.parent false

/-- Hides what is shown under a node, if anything is. -/
def hideShown (id : NodeId) : Attempt Unit := do
  let node ← require id
  if node.expanded then collapseValues id

def expandValues (id : NodeId) : Attempt Nat := do
  hideShown id
  let node ← require id
  match node.data with
  | none => return 0
  | some rows =>
    let shown := pageRows (← get).pageSize node rows
    edit fun d => shown.foldl (addValueNode id node.label) d
    change id fun n => { n with fixed := true, expanded := true }
    edit fun d => d.setPinned node.parent true
    return shown.length

def selectValue (id : NodeId) : Attempt NodeId := do
  let node ← require id
  match node.kind, node.parent with
  | .value, some parent =>
    change parent fun n => { n with selected := n.selected ++ [pickedValue node] }
    collapseValues parent
    return parent
  | _, _ => throw (.notAValueNode id)

def pruneNegated (id : NodeId) : Attempt Unit := do
  let d ← get
  forM (d.children id) fun child => edit fun d => (d.sweep child).2
  collapseValues id
  change id fun n => { n with count := 0 }

/-- The value is dropped before it is known whether it was there. -/
def removeValue (id value : NodeId) : Attempt Bool := do
  let before ← require id
  change id fun n => { n with selected := n.selected.filter fun v => v.id != value }
  let node ← require id
  if node.selected.length = before.selected.length then return false
  else if node.negative && node.selected.isEmpty then
    pruneNegated id
    return true
  else return true

def negate (id : NodeId) : Attempt Bool := do
  let node ← require id
  if node.kind != .choose then return false
  else if node.negative then
    change id fun n => { n with negative := false }
    return true
  else if node.hasValue then
    change id fun n => { n with negative := true }
    return true
  else
    pruneNegated id
    change id fun n => { n with negative := true }
    return true

def removeNode (id : NodeId) : Attempt Bool := do
  let node ← require id
  if node.isRoot then
    let d ← get
    edit clear
    return d.nodes.any constrains
  else modifyGet fun d => d.sweep id

/-- The page is turned before it is shown. -/
def turnPage (id : NodeId) (turn : Nat → Nat) : Attempt Bool := do
  change id fun n => { n with page := turn n.page }
  let _ ← expandValues id
  return true

def nextPage (id : NodeId) : Attempt Bool := do
  let d ← get
  if d.hasNextPage id then turnPage id (· + 1) else return false

def previousPage (id : NodeId) : Attempt Bool := do
  let d ← get
  if d.hasPreviousPage id then turnPage id (· - 1) else return false

/-- Only whether the steps were refused matters. -/
def done (s : Attempt α) : Attempt Unit := do
  let _ ← s

end Attempt

/-- An operation in steps. -/
def Operation.attempt (p : Provider) : Operation → Attempt Unit
  | addRoot label anchor => .edit fun d => (d.addRoot p label anchor).2
  | addSchema s anchor => .edit fun d => (d.addSchema p s anchor).2
  | clear => .edit Diagram.clear
  | expandRelationship id index => (Attempt.expandRelationship p id index).done
  | setRelationships id segments => (Attempt.setRelationships id segments).done
  | setData id rows => (Attempt.setData id rows).done
  | expandValues id => (Attempt.expandValues id).done
  | collapseValues id => (Attempt.collapseValues id).done
  | selectValue id => (Attempt.selectValue id).done
  | removeValue id value => (Attempt.removeValue id value).done
  | negate id => (Attempt.negate id).done
  | removeNode id => (Attempt.removeNode id).done
  | nextPage id => (Attempt.nextPage id).done
  | previousPage id => (Attempt.previousPage id).done

namespace Diagram

variable {d : Diagram} {id : NodeId} {n : Node}

/-! ## Nodes that are there -/

theorem live_of_node? (hn : d.node? id = some n) : d.Live id :=
  ⟨n, mem_of_node? hn, id_of_node? hn⟩

theorem exists_node? (h : d.Live id) : ∃ n, d.node? id = some n :=
  Option.isSome_iff_exists.1 (node?_isSome_iff.2 h)

theorem live_addValueNodes (hid : d.Live id) (x : NodeId) (label : String) (rows : List Row) :
    (rows.foldl (addValueNode x label) d).Live id := by
  obtain ⟨n, hn, hnid⟩ := hid
  obtain ⟨vs, -, hvs, -⟩ := addValueNodes_append x label rows d
  refine ⟨n, ?_, hnid⟩
  rw [hvs]
  exact List.mem_append_left vs hn

end Diagram

namespace Attempt

variable {α : Type} {d d' : Diagram} {id : NodeId} {n : Node}

/-! ## What the steps come to -/

theorem runOn_done {s : Attempt α} {r : Except GraphError α × Diagram} (h : s.runOn d = r) :
    s.done.runOn d = Operation.outcome r := by
  obtain ⟨a | e, d'⟩ := r
  · rw [done, runOn_bind_of_error h]
    rfl
  · rw [done, runOn_bind_of_ok h]
    rfl

theorem runOn_setData (id : NodeId) (rows : List Row) (d : Diagram) :
    (setData id rows).runOn d = d.setData id rows := by
  unfold setData Diagram.setData
  cases hn : d.node? id with
  | none => rw [change_none hn]
  | some n => rw [change_eq (live_of_node? hn)]

theorem runOn_setRelationships (id : NodeId) (segments : List Segment) (d : Diagram) :
    (setRelationships id segments).runOn d = d.setRelationships id segments := by
  unfold setRelationships Diagram.setRelationships
  cases hn : d.node? id with
  | none => rw [change_none hn]
  | some n => rw [change_eq (live_of_node? hn)]

theorem runOn_expandRelationship (p : Provider) (id : NodeId) (index : Nat) (d : Diagram) :
    (expandRelationship p id index).runOn d = d.expandRelationship p id index := by
  unfold expandRelationship Diagram.expandRelationship
  cases hn : d.node? id with
  | none => rw [runOn_bind_of_error (require_none hn)]
  | some n =>
    rw [runOn_bind_of_ok (require_eq hn)]
    cases hs : n.relationships[index]? <;> simp only [hs] <;> rfl

end Attempt

namespace Diagram.Linked

open Attempt

variable {d : Diagram}

theorem runOn_collapseValues (h : d.Linked) (id : NodeId) :
    (Attempt.collapseValues id).runOn d = d.collapseValues id := by
  unfold Attempt.collapseValues Diagram.collapseValues
  cases hn : d.node? id with
  | none => rw [runOn_bind_of_error (require_none hn)]
  | some n =>
    rw [runOn_bind_of_ok (require_eq hn)]
    cases he : n.expanded with
    | false =>
      simp only [he]
      rfl
    | true =>
      -- The links to the values lead away from the node, which is still there.
      have hlive := h.live_withoutValues (live_of_node? hn)
      simp only [he, ↓reduceIte]
      rw [runOn_edit_bind, runOn_bind_of_ok (change_eq hlive _)]
      rfl

theorem runOn_collapseValues_of_live (h : d.Linked) {id : NodeId} (hid : d.Live id) :
    (Attempt.collapseValues id).runOn d = (.ok (), (d.collapseValues id).2) := by
  obtain ⟨n, hn⟩ := exists_node? hid
  rw [h.runOn_collapseValues, ← collapseValues_fst hn]

theorem runOn_hideShown (h : d.Linked) {id : NodeId} {n : Node} (hn : d.node? id = some n) :
    (hideShown id).runOn d = (.ok (), (d.collapseValues id).2) := by
  rw [hideShown, runOn_bind_of_ok (require_eq hn)]
  cases he : n.expanded with
  | true =>
    rw [if_pos rfl, h.runOn_collapseValues_of_live (live_of_node? hn)]
  | false =>
    rw [collapseValues_of_collapsed (by simp [hn, he])]
    rfl

theorem runOn_expandValues (h : d.Linked) (id : NodeId) :
    (Attempt.expandValues id).runOn d = d.expandValues id := by
  unfold Attempt.expandValues
  cases hn : d.node? id with
  | none =>
    have hnone : (hideShown id).runOn d = (.error (.nodeNotFound id), d) := by
      rw [hideShown, runOn_bind_of_error (require_none hn)]
    rw [runOn_bind_of_error hnone]
    simp [Diagram.expandValues, hn]
  | some n =>
    obtain ⟨n', hn'⟩ := exists_node? (h.live_collapseValues (live_of_node? hn))
    -- Hiding candidates changes neither what is stored on the node nor its page.
    have hkeeps := ((Traces.refl d).collapseValues id).keeps_of_node? h.toNumbered hn
      (mem_of_node? hn') (id_of_node? hn')
    rw [runOn_bind_of_ok (h.runOn_hideShown hn), runOn_bind_of_ok (require_eq hn')]
    unfold Diagram.expandValues
    rw [hn]
    dsimp only
    rw [hkeeps.data]
    cases n.data with
    | none => rfl
    | some rows =>
      dsimp only
      rw [runOn_get_bind, hkeeps.pageRows_eq, Node.label_of_origin hkeeps.origin,
        Node.parent_of_origin hkeeps.origin, runOn_edit_bind, runOn_bind_of_ok (change_eq ?_ _)]
      · rfl
      · exact live_addValueNodes (live_of_node? hn') id n.label _

theorem runOn_selectValue (h : d.Linked) (id : NodeId) :
    (Attempt.selectValue id).runOn d = d.selectValue id := by
  unfold Attempt.selectValue Diagram.selectValue
  cases hn : d.node? id with
  | none => rw [runOn_bind_of_error (require_none hn)]
  | some n =>
    rw [runOn_bind_of_ok (require_eq hn)]
    dsimp only
    cases n.kind with
    | value =>
      cases n.parent with
      | none => rfl
      | some parent =>
        dsimp only
        cases hm : d.node? parent with
        | none => rw [runOn_bind_of_error (change_none hm)]
        | some m =>
          have hpicked : (d.pick parent (pickedValue n)).Linked := h.modify fun _ => rfl
          have hlive : (d.pick parent (pickedValue n)).Live parent := by
            refine (live_modify ?_).2 (live_of_node? hm)
            exact fun _ => rfl
          rw [runOn_bind_of_ok (change_eq (live_of_node? hm) _)]
          exact runOn_bind_of_ok (hpicked.runOn_collapseValues_of_live hlive) _
    | root | choose | group => rfl

/-! ### Pruning -/

theorem runOn_sweeps (h : d.Linked) (ids : List NodeId) :
    (forM ids fun x => edit fun d => (d.sweep x).2).runOn d =
      (.ok (), ids.foldl (fun d x => (d.removeSubtree x).2) d) := by
  induction ids generalizing d with
  | nil => rfl
  | cons x ids ih =>
    rw [List.forM_cons, runOn_edit_bind, h.sweep_eq, ih (h.removeSubtree x), List.foldl_cons]

theorem live_removeSubtrees (h : d.Linked) {id : NodeId} (hid : d.Live id) :
    ((d.children id).foldl (fun d x => (d.removeSubtree x).2) d).Live id := by
  obtain ⟨n, hn⟩ := exists_node? hid
  rw [← node?_removeSubtrees fun x hx => h.number_lt_of_mem_children hx] at hn
  exact live_of_node? hn

theorem live_pruneNegated (h : d.Linked) {id : NodeId} (hid : d.Live id) :
    (d.pruneNegated id).Live id := by
  unfold Diagram.pruneNegated
  rw [live_modify]
  · refine Linked.live_collapseValues ?_ (h.live_removeSubtrees hid)
    exact h.strokes (p := .plain) (Strokes.removeSubtrees .refl _)
  · exact fun _ => rfl

theorem runOn_pruneNegated (h : d.Linked) {id : NodeId} (hid : d.Live id) :
    (Attempt.pruneNegated id).runOn d = (.ok (), d.pruneNegated id) := by
  unfold Attempt.pruneNegated Diagram.pruneNegated
  have hpruned : ((d.children id).foldl (fun d x => (d.removeSubtree x).2) d).Linked :=
    h.strokes (p := .plain) (Strokes.removeSubtrees .refl _)
  have hlive := h.live_removeSubtrees hid
  obtain ⟨n, hn⟩ := exists_node? hlive
  rw [runOn_get_bind, runOn_bind_of_ok (h.runOn_sweeps _),
    runOn_bind_of_ok (hpruned.runOn_collapseValues_of_live hlive),
    change_eq (hpruned.live_collapseValues hlive)]

theorem runOn_removeValue (h : d.Linked) (id value : NodeId) :
    (Attempt.removeValue id value).runOn d = d.removeValue id value := by
  unfold Attempt.removeValue Diagram.removeValue
  cases hn : d.node? id with
  | none => rw [runOn_bind_of_error (require_none hn)]
  | some n =>
    have hid := live_of_node? hn
    let unselected (m : Node) : Node :=
      { m with selected := m.selected.filter fun v => v.id != value }
    have hrest : d.modify id unselected = d.modify id fun m =>
        { m with selected := n.selected.filter fun v => v.id != value } :=
      h.modify_congr hn rfl
    have hn' : (d.modify id unselected).node? id = some (unselected n) := by
      rw [node?_modify_of_some ?_ hn, if_pos (id_of_node? hn)]
      exact fun _ => rfl
    rw [runOn_bind_of_ok (require_eq hn), runOn_bind_of_ok (change_eq hid _),
      runOn_bind_of_ok (require_eq hn')]
    dsimp only [unselected]
    split
    · rename_i hlen
      have hsame : d.modify id unselected = d := by
        refine h.modify_eq_self hn ?_
        have hkept := List.filter_sublist.eq_of_length hlen
        simp only [unselected, hkept]
      exact congrArg (Except.ok false, ·) hsame
    · dsimp only [unselected] at hrest
      rw [← hrest]
      split
      · have hlinked : (d.modify id unselected).Linked := h.modify fun _ => rfl
        exact runOn_bind_of_ok (hlinked.runOn_pruneNegated (live_of_node? hn')) _
      · rfl

theorem runOn_negate (h : d.Linked) (id : NodeId) :
    (Attempt.negate id).runOn d = d.negate id := by
  unfold Attempt.negate Diagram.negate
  cases hn : d.node? id with
  | none => rw [runOn_bind_of_error (require_none hn)]
  | some n =>
    have hid := live_of_node? hn
    rw [runOn_bind_of_ok (require_eq hn)]
    dsimp only
    split
    · rfl
    · split
      · rw [runOn_bind_of_ok (change_eq hid _)]
        rfl
      · split
        · rw [runOn_bind_of_ok (change_eq hid _)]
          rfl
        · have hpruned : (d.pruneNegated id).Live id := h.live_pruneNegated hid
          rw [runOn_bind_of_ok (h.runOn_pruneNegated hid), runOn_bind_of_ok (change_eq hpruned _)]
          rfl

theorem runOn_removeNode (h : d.Linked) (id : NodeId) :
    (Attempt.removeNode id).runOn d = d.removeNode id := by
  unfold Attempt.removeNode Diagram.removeNode
  cases hn : d.node? id with
  | none => rw [runOn_bind_of_error (require_none hn)]
  | some n =>
    rw [runOn_bind_of_ok (require_eq hn)]
    dsimp only
    split
    · rfl
    · rw [← h.sweep_eq]
      rfl

/-! ### Pages -/

theorem runOn_turnPage (h : d.Linked) {id : NodeId} (hid : d.Live id) (turn : Nat → Nat) :
    (Attempt.turnPage id turn).runOn d = d.turnPage id turn := by
  have hturned : (d.modify id fun n => { n with page := turn n.page }).Linked :=
    h.modify fun _ => rfl
  rw [Attempt.turnPage, runOn_bind_of_ok (change_eq hid _)]
  unfold Diagram.turnPage
  rcases hx : (d.modify id fun n => { n with page := turn n.page }).expandValues id with ⟨r, d'⟩
  rw [← hturned.runOn_expandValues] at hx
  cases r with
  | ok shown => rw [runOn_bind_of_ok hx, runOn_pure]
  | error e => rw [runOn_bind_of_error hx]

theorem runOn_nextPage (h : d.Linked) (id : NodeId) :
    (Attempt.nextPage id).runOn d = d.nextPage id := by
  unfold Attempt.nextPage Diagram.nextPage
  rw [runOn_get_bind]
  split
  · rename_i hpage
    cases hn : d.node? id with
    | none => simp [hasNextPage, hn] at hpage
    | some n => exact h.runOn_turnPage (live_of_node? hn) _
  · rfl

theorem runOn_previousPage (h : d.Linked) (id : NodeId) :
    (Attempt.previousPage id).runOn d = d.previousPage id := by
  unfold Attempt.previousPage Diagram.previousPage
  rw [runOn_get_bind]
  split
  · rename_i hpage
    cases hn : d.node? id with
    | none => simp [hasPreviousPage, hn] at hpage
    | some n => exact h.runOn_turnPage (live_of_node? hn) _
  · rfl

/-- The steps of an operation come to the operation. -/
theorem runOn_attempt (h : d.Linked) (p : Provider) (o : Operation) :
    (o.attempt p).runOn d = o.run p d := by
  unfold Operation.attempt Operation.run
  cases o with
  | addRoot label anchor => rfl
  | addSchema s anchor => rfl
  | clear => rfl
  | expandRelationship id index =>
    exact runOn_done (runOn_expandRelationship p id index d)
  | setRelationships id segments => exact runOn_done (runOn_setRelationships id segments d)
  | setData id rows => exact runOn_done (runOn_setData id rows d)
  | expandValues id => exact runOn_done (h.runOn_expandValues id)
  | collapseValues id => exact runOn_done (h.runOn_collapseValues id)
  | selectValue id => exact runOn_done (h.runOn_selectValue id)
  | removeValue id value => exact runOn_done (h.runOn_removeValue id value)
  | negate id => exact runOn_done (h.runOn_negate id)
  | removeNode id => exact runOn_done (h.runOn_removeNode id)
  | nextPage id => exact runOn_done (h.runOn_nextPage id)
  | previousPage id => exact runOn_done (h.runOn_previousPage id)

/-- No operation makes a link that leads back to where it comes from. If there were one, a node
would be hidden with its own candidates before it is marked. -/
example :
    let d : Diagram :=
      { nodes :=
          [{ id := ⟨0⟩, kind := .root, label := "Person", var := "person", expanded := true }]
        links := [{ id := ⟨0⟩, kind := .value, source := ⟨0⟩, target := ⟨0⟩, label := "" }]
        pageSize := 1 }
    ((Operation.collapseValues ⟨0⟩).attempt .plain).runOn d =
      (.error (.nodeNotFound ⟨0⟩), { pageSize := 1 }) := by
  decide +kernel

end Diagram.Linked

namespace Diagram

/-- In a diagram that operations made, whatever their arguments were, the steps of an operation come
to what it does at once. They are refused where something is wrong with the arguments, and only
there, and then the diagram is what it was before the first step. -/
theorem attempt_refused_iff {p : Provider} {d : Diagram} (h : d.ReachableBy p fun _ _ => True)
    (o : Operation) : (o.attempt p).runOn d = o.run p d ∧
      ∀ e d', (o.attempt p).runOn d = (.error e, d') ↔ o.refusal? d = some e ∧ d' = d := by
  have hsteps := h.linked.runOn_attempt p o
  refine ⟨hsteps, fun e d' => ?_⟩
  rw [hsteps]
  exact Operation.run_eq_error_iff

/-- A candidate of a candidate stays where the latter is hidden. It cannot be selected then, since
there is nothing to select it on. -/
theorem attempt_refused_of_orphan :
    let d := Operation.runAll .plain
      [.addRoot "Person" none, .setData ⟨0⟩ [Table.empty], .expandValues ⟨0⟩,
        .setData ⟨1⟩ [Table.empty], .expandValues ⟨1⟩, .collapseValues ⟨0⟩] (.new 1)
    (d.ReachableBy .plain fun _ _ => True) ∧ d.Live ⟨2⟩ ∧
      ((Operation.selectValue ⟨2⟩).attempt .plain).runOn d = (.error (.nodeNotFound ⟨1⟩), d) := by
  intro d
  have hd : d.ReachableBy .plain fun _ _ => True := ReachableBy.runAll (.new 1) _
  refine ⟨hd, by decide +kernel, ?_⟩
  exact ((attempt_refused_iff hd (.selectValue ⟨2⟩)).2 _ d).2 ⟨by decide +kernel, rfl⟩

end Diagram

end PatternQuery
