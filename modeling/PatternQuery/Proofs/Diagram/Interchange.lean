import PatternQuery.Proofs.Diagram.Pruning

/-!
# Changes that may come before or after

Two changes of nodes commute where they commute on a single node (`Diagram.modify_comm`). Hiding
candidates and pruning a negation look at places and at what is shown only, so a change of the rest
of a node (`Node.Apart`) may be made before or after them.
-/

namespace PatternQuery

/-- A change that neither moves a node nor has a part in what it shows. -/
structure Node.Apart (g : Node → Node) : Prop where
  place : ∀ n, (g n).place = n.place
  collapse : ∀ n expanded fixed, g { n with expanded, fixed } = { g n with expanded, fixed }

namespace Node.Apart

variable {g : Node → Node}

theorem id (hg : Apart g) (n : Node) : (g n).id = n.id := (Node.place_eq_iff.1 (hg.place n)).1

theorem isRoot (hg : Apart g) (n : Node) : (g n).isRoot = n.isRoot := by
  rw [Node.isRoot, Node.isRoot, (Node.place_eq_iff.1 (hg.place n)).2.1]

theorem parent (hg : Apart g) (n : Node) : (g n).parent = n.parent :=
  (Node.place_eq_iff.1 (hg.place n)).2.2

theorem eq_collapse (hg : Apart g) (n : Node) :
    g n = { g n with expanded := n.expanded, fixed := n.fixed } :=
  hg.collapse n n.expanded n.fixed

theorem expanded (hg : Apart g) (n : Node) : (g n).expanded = n.expanded := by
  rw [hg.eq_collapse n]

theorem fixed (hg : Apart g) (n : Node) : (g n).fixed = n.fixed := by
  rw [hg.eq_collapse n]

/-- To pin a node is no part of the change either. -/
theorem pin (hg : Apart g) (n : Node) (fixed : Bool) : g { n with fixed } = { g n with fixed } := by
  refine (hg.collapse n n.expanded fixed).trans ?_
  rw [← hg.expanded n]

theorem hide (hg : Apart g) (n : Node) :
    { g n with expanded := false, fixed := (g n).isRoot && (g n).fixed } =
      g { n with expanded := false, fixed := n.isRoot && n.fixed } := by
  rw [hg.collapse n false (n.isRoot && n.fixed), hg.isRoot, hg.fixed]

end Node.Apart

namespace Diagram

variable {d : Diagram} {id x : NodeId} {f g : Node → Node}

theorem node?_modify_self (hf : ∀ n, (f n).id = n.id) {n : Node} (hn : d.node? id = some n) :
    (d.modify id f).node? id = some (f n) := by
  rw [node?_modify_of_some hf hn, if_pos (id_of_node? hn)]

theorem modify_comm (hf : ∀ n, (f n).id = n.id) (hg : ∀ n, (g n).id = n.id)
    (h : ∀ n, f (g n) = g (f n)) (d : Diagram) (id x : NodeId) :
    (d.modify x g).modify id f = (d.modify id f).modify x g := by
  have hstep (n : Node) : (fun n => if n.id = id then f n else n) (if n.id = x then g n else n) =
      (fun n => if n.id = x then g n else n) (if n.id = id then f n else n) := by
    by_cases hx : n.id = x <;> by_cases hid : n.id = id <;> simp_all
  simp only [Diagram.modify, List.map_map]
  congr 2
  funext n
  exact hstep n

theorem modify_modify (hg : ∀ n, (g n).id = n.id) (d : Diagram) (id : NodeId) :
    (d.modify id g).modify id f = d.modify id (f ∘ g) := by
  simp only [Diagram.modify, List.map_map]
  congr 2
  funext n
  by_cases hid : n.id = id <;> simp [hid, hg]

/-! ## Hiding -/

theorem setPinned_modify (hg : Node.Apart g) (parent : Option NodeId) (fixed : Bool) (d : Diagram)
    (x : NodeId) :
    (d.modify x g).setPinned parent fixed = (d.setPinned parent fixed).modify x g := by
  cases parent with
  | none => rfl
  | some id =>
    refine modify_comm (fun n => ?_) hg.id (fun n => ?_) d id x
    · split <;> rfl
    · rw [hg.isRoot]
      split
      · rfl
      · exact (hg.pin n fixed).symm

theorem keep_modify (hg : ∀ n, (g n).id = n.id) (p : NodeId → Bool) (q : Link → Bool) (d : Diagram)
    (x : NodeId) : (d.modify x g).keep p q = (d.keep p q).modify x g := by
  unfold Diagram.keep Diagram.modify
  simp only [List.filter_map]
  congr 2
  refine List.filter_congr fun n _ => ?_
  simp only [Function.comp]
  split
  · rw [hg]
  · rfl

theorem withoutValues_modify (hg : ∀ n, (g n).id = n.id) (id : NodeId) (d : Diagram) (x : NodeId) :
    (d.modify x g).withoutValues id = (d.withoutValues id).modify x g :=
  keep_modify hg _ _ d x

theorem collapseValues_modify (hg : Node.Apart g) (id : NodeId) (d : Diagram) (x : NodeId) :
    ((d.modify x g).collapseValues id).2 = (d.collapseValues id).2.modify x g := by
  cases hn : d.node? id with
  | none =>
    rw [collapseValues_of_collapsed (by simp [node?_modify hg.id, hn]),
      collapseValues_of_collapsed (by simp [hn])]
  | some n =>
    have hn' := node?_modify_of_some hg.id hn x
    have hexpanded : (if n.id = x then g n else n).expanded = n.expanded := by
      split
      · exact hg.expanded n
      · rfl
    cases he : n.expanded with
    | false =>
      rw [collapseValues_of_collapsed (by simp [hn', hexpanded, he]),
        collapseValues_of_collapsed (by simp [hn, he])]
    | true =>
      have hparent : (if n.id = x then g n else n).parent = n.parent := by
        split
        · exact hg.parent n
        · rfl
      have hhide := modify_comm
        (f := fun n => { n with expanded := false, fixed := n.isRoot && n.fixed }) (fun _ => rfl)
        hg.id (fun n => hg.hide n) (d.withoutValues id) id x
      rw [collapseValues_eq hn he, collapseValues_eq hn' (hexpanded.trans he), hparent,
        withoutValues_modify hg.id, hhide, setPinned_modify hg]

/-! ## Pruning -/

theorem isReachableFrom_modify (g : Node → Node) (d : Diagram) (x top id : NodeId) :
    (d.modify x g).isReachableFrom top id = d.isReachableFrom top id := by
  fun_induction Diagram.isReachableFrom d top id with
  | case1 id ih =>
    have hlinks : (d.modify x g).links = d.links := rfl
    rw [isReachableFrom, hlinks]
    cases d.links.find? fun l => l.target == id with
    | none => rfl
    | some l =>
      dsimp only
      split
      · rw [ih l ‹_›]
      · rfl

theorem removeSubtree_modify (hg : ∀ n, (g n).id = n.id) (id : NodeId) (d : Diagram) (x : NodeId) :
    ((d.modify x g).removeSubtree id).2 = (d.removeSubtree id).2.modify x g := by
  simp only [removeSubtree_snd, isReachableFrom_modify]
  exact keep_modify hg _ _ d x

theorem removeSubtrees_modify (hg : ∀ n, (g n).id = n.id) (ids : List NodeId) (d : Diagram)
    (x : NodeId) : ids.foldl (fun d y => (d.removeSubtree y).2) (d.modify x g) =
      (ids.foldl (fun d y => (d.removeSubtree y).2) d).modify x g := by
  induction ids generalizing d with
  | nil => rfl
  | cons y ids ih => rw [List.foldl_cons, removeSubtree_modify hg, ih, List.foldl_cons]

/-- A change that has no part in counts either may be made before or after pruning. -/
theorem pruneNegated_modify (hg : Node.Apart g)
    (hcount : ∀ n count, g { n with count } = { g n with count }) (id : NodeId) (d : Diagram)
    (x : NodeId) : (d.modify x g).pruneNegated id = (d.pruneNegated id).modify x g := by
  have hchildren : (d.modify x g).children id = d.children id := rfl
  have hzero (e : Diagram) := modify_comm (f := fun n => { n with count := 0 }) (fun _ => rfl) hg.id
    (fun n => (hcount n 0).symm) e id x
  rw [Diagram.pruneNegated, Diagram.pruneNegated, hchildren, removeSubtrees_modify hg.id,
    collapseValues_modify hg, hzero]

end Diagram

end PatternQuery
