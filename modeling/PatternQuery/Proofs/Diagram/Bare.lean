import PatternQuery.Proofs.Diagram.Edits

/-!
# Bare negations

A negated node without selected values says that nothing of its kind exists, so nothing below it can
constrain the query. Whatever makes a negation bare prunes it (`Diagram.children_pruneNegated`), and
no other operation hangs anything below it but the expansion of one of its segments
(`Numbered.clears_run`).
-/

namespace PatternQuery

/-- A negation that is left without values. -/
def Node.isBare (n : Node) : Bool := n.negative && !n.hasValue

/-- An operation expands a segment of a bare negation. -/
def Operation.growsBare (o : Operation) (d : Diagram) : Bool :=
  match o with
  | expandRelationship id index =>
    (d.node? id).any fun n => n.isBare && decide (index < n.relationships.length)
  | _ => false

namespace Diagram

/-- No relation leads away from a bare negation. -/
def Severed (d : Diagram) : Prop := ∀ n ∈ d.nodes, n.isBare = true → d.children n.id = []

instance (d : Diagram) : Decidable d.Severed :=
  inferInstanceAs (Decidable (∀ n ∈ d.nodes, n.isBare = true → d.children n.id = []))

/-- There is a bare negation under this number. -/
def isBareAt (d : Diagram) (id : NodeId) : Bool := (d.node? id).any Node.isBare

variable {p : Provider} {d d' e : Diagram} {id x : NodeId} {n : Node}

theorem Numbered.severed_iff (h : d.Numbered) :
    d.Severed ↔ ∀ x, d.isBareAt x = true → d.children x = [] := by
  constructor
  · intro hs x hx
    obtain ⟨n, hn, hbare⟩ := Option.any_eq_true _ _ |>.1 hx
    rw [← id_of_node? hn]
    exact hs n (mem_of_node? hn) hbare
  · intro hs n hn hbare
    refine hs n.id ?_
    rw [isBareAt, h.node?_of_mem hn]
    exact hbare

/-- Only nodes that are still to be chosen are negated. -/
def NegatesChoices (d : Diagram) : Prop := ∀ n ∈ d.nodes, n.negative = true → n.kind = .choose

/-- Every bare negation is without children, or it was there before and got no more of them. -/
structure Clears (d d' : Diagram) : Prop where
  choices : d.NegatesChoices → d'.NegatesChoices
  bare : ∀ x, d'.isBareAt x = true →
    d'.children x = [] ∨ d.isBareAt x = true ∧ d'.children x ⊆ d.children x

theorem Clears.refl (d : Diagram) : d.Clears d := ⟨id, fun _ hx => .inr ⟨hx, List.Subset.refl _⟩⟩

theorem Clears.trans (h : d.Clears d') (h' : d'.Clears e) : d.Clears e := by
  refine ⟨h'.choices ∘ h.choices, fun x hx => ?_⟩
  rcases h'.bare x hx with hnone | ⟨hx', hsub'⟩
  · exact .inl hnone
  · rcases h.bare x hx' with hnone | ⟨hxd, hsub⟩
    · rw [hnone] at hsub'
      exact .inl (List.eq_nil_of_subset_nil hsub')
    · exact .inr ⟨hxd, List.Subset.trans hsub' hsub⟩

theorem Clears.severed (h : d.Clears d') (hd : d.Numbered) (hd' : d'.Numbered) (hs : d.Severed) :
    d'.Severed := by
  rw [hd.severed_iff] at hs
  rw [hd'.severed_iff]
  intro x hx
  rcases h.bare x hx with hnone | ⟨hxd, hsub⟩
  · exact hnone
  · rw [hs x hxd] at hsub
    exact List.eq_nil_of_subset_nil hsub

/-! ## Edits -/

theorem isBareAt_modify {f : Node → Node} (hf : ∀ n, (f n).id = n.id) :
    (d.modify id f).isBareAt x =
      (d.node? x).any fun n => (if n.id = id then f n else n).isBare := by
  rw [isBareAt, node?_modify hf, Option.any_map]

theorem isBareAt_modify_of_ne {f : Node → Node} (hf : ∀ n, (f n).id = n.id) (hx : x ≠ id) :
    (d.modify id f).isBareAt x = d.isBareAt x := by
  rw [isBareAt_modify hf, isBareAt]
  cases hn : d.node? x with
  | none => rfl
  | some n =>
    have hne : n.id ≠ id := fun e => hx ((id_of_node? hn).symm.trans e)
    simp [hne]

theorem isBareAt_modify_eq {f : Node → Node} (hf : ∀ n, (f n).id = n.id)
    (hbare : ∀ n, (f n).isBare = n.isBare) : (d.modify id f).isBareAt x = d.isBareAt x := by
  rw [isBareAt_modify hf, isBareAt]
  congr 1
  funext n
  split
  · exact hbare n
  · rfl

theorem children_modify (f : Node → Node) : (d.modify id f).children x = d.children x := rfl

theorem NegatesChoices.modify (h : d.NegatesChoices) {f : Node → Node}
    (hf : ∀ n, (f n).kind = n.kind)
    (hneg : ∀ n ∈ d.nodes, n.id = id → (f n).negative = true →
      n.negative = true ∨ n.kind = .choose) : (d.modify id f).NegatesChoices := by
  intro n hn hnegative
  obtain ⟨m, hm, rfl⟩ := mem_modify.1 hn
  split at hnegative
  · rename_i hid
    rw [if_pos hid, hf]
    exact (hneg m hm hid hnegative).elim (h m hm) fun hk => hk
  · rename_i hid
    rw [if_neg hid]
    exact h m hm hnegative

/-- A change that makes no negation bare. -/
theorem clears_modify_at {f : Node → Node} (hf : ∀ n, (f n).place = n.place)
    (hneg : ∀ n ∈ d.nodes, n.id = id → (f n).negative = true → n.negative = true ∨ n.kind = .choose)
    (hbare : ∀ n, d.node? id = some n → (f n).isBare = true → n.isBare = true) :
    d.Clears (d.modify id f) := by
  refine ⟨fun h => h.modify (fun n => (Node.place_eq_iff.1 (hf n)).2.1) hneg, fun x hx => ?_⟩
  refine .inr ⟨?_, List.Subset.refl _⟩
  rw [isBareAt_modify fun n => (Node.place_eq_iff.1 (hf n)).1] at hx
  obtain ⟨n, hn, hb⟩ := Option.any_eq_true _ _ |>.1 hx
  refine Option.any_eq_true _ _ |>.2 ⟨n, hn, ?_⟩
  split at hb
  · rename_i hid
    rw [← hid, id_of_node? hn] at hbare
    exact hbare n hn hb
  · exact hb

theorem clears_modify {f : Node → Node} (hf : ∀ n, (f n).place = n.place)
    (hneg : ∀ n, (f n).negative = true → n.negative = true)
    (hbare : ∀ n, (f n).isBare = true → n.isBare = true) : d.Clears (d.modify id f) :=
  clears_modify_at hf (fun n _ _ h => .inl (hneg n h)) fun n _ => hbare n

/-- A node without children may change in any way that keeps to choices. -/
theorem Clears.modify_of_leaf (h : d.Clears e) {f : Node → Node} (hf : ∀ n, (f n).place = n.place)
    (hneg : ∀ n ∈ e.nodes, n.id = id → (f n).negative = true → n.negative = true ∨ n.kind = .choose)
    (hleaf : e.children id = []) : d.Clears (e.modify id f) := by
  refine ⟨fun hd => (h.choices hd).modify (fun n => (Node.place_eq_iff.1 (hf n)).2.1) hneg,
    fun x hx => ?_⟩
  by_cases hxid : x = id
  · subst hxid
    exact .inl hleaf
  · rw [isBareAt_modify_of_ne (fun n => (Node.place_eq_iff.1 (hf n)).1) hxid] at hx
    exact h.bare x hx

theorem node?_of_node?_keep {q : NodeId → Bool} {r : Link → Bool}
    (hn : (d.keep q r).node? x = some n) (hd : d.Numbered) : d.node? x = some n :=
  hd.node?_eq_some.2 ⟨(List.mem_filter.1 (mem_of_node? hn)).1, id_of_node? hn⟩

theorem Numbered.clears_keep (hd : d.Numbered) (q : NodeId → Bool) (r : Link → Bool) :
    d.Clears (d.keep q r) := by
  refine ⟨fun h n hn => h n (List.mem_filter.1 hn).1, fun x hx => ?_⟩
  obtain ⟨n, hn, hb⟩ := Option.any_eq_true _ _ |>.1 hx
  refine .inr ⟨Option.any_eq_true _ _ |>.2 ⟨n, node?_of_node?_keep hn hd, hb⟩, ?_⟩
  exact List.map_subset _ (List.filter_subset _ (List.filter_subset _ (List.filter_subset_self _)))

/-- Where nothing is negated, no negation is bare. -/
theorem clears_of_positive (h : ∀ n ∈ d'.nodes, n.negative = false) : d.Clears d' := by
  refine ⟨fun _ n hn hneg => by simp [h n hn] at hneg, fun x hx => ?_⟩
  obtain ⟨n, hn, hb⟩ := Option.any_eq_true _ _ |>.1 hx
  rw [Node.isBare, h n (mem_of_node? hn)] at hb
  simp at hb

/-- A node that comes is no negation. -/
theorem isBareAt_append (hn : n.negative = false) (hnodes : d'.nodes = d.nodes ++ [n]) :
    d'.isBareAt x = d.isBareAt x := by
  rw [isBareAt, isBareAt, node?, node?, hnodes, List.find?_append]
  cases d.nodes.find? fun m => m.id == x with
  | some m => rfl
  | none =>
    rw [Option.none_or, List.find?_singleton]
    split
    · simp [Node.isBare, hn]
    · rfl

theorem NegatesChoices.append (h : d.NegatesChoices) (hn : n.negative = false)
    (hnodes : d'.nodes = d.nodes ++ [n]) : d'.NegatesChoices := by
  intro m hm hneg
  rw [hnodes] at hm
  rcases List.mem_append.1 hm with hm | hm
  · exact h m hm hneg
  · rw [List.mem_singleton.1 hm, hn] at hneg
    cases hneg

theorem isBareAt_attachChild (p : Provider) (s : Segment) (kind : NodeKind) :
    (d.attachChild p id s kind).2.isBareAt x = d.isBareAt x :=
  isBareAt_append (n := childNode p id s kind d) rfl rfl

theorem children_attachChild (p : Provider) (s : Segment) (kind : NodeKind) :
    (d.attachChild p id s kind).2.children x =
      d.children x ++ if id = x then [⟨d.nextNode⟩] else [] := by
  rw [attachChild_eq]
  simp only [children, relationLinks, attach, childLink, List.filter_append, List.map_append]
  congr 1
  split <;> simp [*]

/-! ## Building -/

theorem positive_addRoot (p : Provider) (label : String) (anchor : Option Position) (d : Diagram) :
    ∀ n ∈ (d.addRoot p label anchor).2.nodes, n.negative = false := by
  intro n hn
  cases hd : d.isEmpty with
  | true => simp_all [addRoot, addNode, List.isEmpty_iff.1 hd]
  | false => simp_all [addRoot, addNode, Diagram.clear]

theorem positive_addSchema (p : Provider) (s : Schema) (anchor : Option Position) (d : Diagram) :
    ∀ n ∈ (d.addSchema p s anchor).2.nodes, n.negative = false := by
  have hmodify {e : Diagram} {id : NodeId} {f : Node → Node} (hf : ∀ n, (f n).negative = n.negative)
      (he : ∀ n ∈ e.nodes, n.negative = false) :
      ∀ n ∈ (e.modify id f).nodes, n.negative = false := by
    intro n hn
    obtain ⟨m, hm, rfl⟩ := mem_modify.1 hn
    split
    · rw [hf, he m hm]
    · exact he m hm
  refine (applySchema_induction (P := fun e => ∀ n ∈ e.nodes, n.negative = false) p
    (fun e id label rows he _ => hmodify (e := { e with nextNode := _ }) (fun _ => rfl) he)
    (fun e id segments he _ => hmodify (fun _ => rfl) he) (fun e id s kind _ he _ n hn => ?_) _ s _
    (positive_addRoot p s.label anchor d) (isQueryNode_addRoot p s.label anchor d)).1
  rw [attachChild_eq] at hn
  rcases List.mem_append.1 hn with hn | hn
  · exact he n hn
  · rw [List.mem_singleton.1 hn]
    rfl

theorem clears_expandRelationship (p : Provider) {index : Nat}
    (h : (Operation.expandRelationship id index).growsBare d = false) :
    d.Clears (d.expandRelationship p id index).2 := by
  unfold Diagram.expandRelationship
  cases hn : d.node? id with
  | none => exact .refl d
  | some n =>
    cases hs : n.relationships[index]? with
    | none => simpa [hs] using Clears.refl d
    | some s =>
      obtain ⟨hindex, -⟩ := List.getElem?_eq_some_iff.1 hs
      simp only [hs]
      refine ⟨fun hd => hd.append (n := childNode p id s .choose d) rfl rfl, fun x hx => ?_⟩
      rw [isBareAt_attachChild] at hx
      have hne : id ≠ x := by
        rintro rfl
        rw [isBareAt, hn, Option.any_some] at hx
        simp [Operation.growsBare, hn, hx, hindex] at h
      rw [children_attachChild, if_neg hne, List.append_nil]
      exact .inr ⟨hx, List.Subset.refl _⟩

theorem clears_setRelationships (id : NodeId) (segments : List Segment) (d : Diagram) :
    d.Clears (d.setRelationships id segments).2 := by
  unfold Diagram.setRelationships
  split
  · exact .refl d
  · exact clears_modify (fun _ => rfl) (fun _ h => h) fun _ h => h

/-! ## Candidates -/

theorem clears_setData (id : NodeId) (rows : List Row) (d : Diagram) :
    d.Clears (d.setData id rows).2 := by
  unfold Diagram.setData
  split
  · exact .refl d
  · exact clears_modify (fun _ => rfl) (fun _ h => h) fun _ h => h

theorem clears_setPinned (parent : Option NodeId) (fixed : Bool) (d : Diagram) :
    d.Clears (d.setPinned parent fixed) := by
  cases parent with
  | none => exact .refl d
  | some id =>
    refine clears_modify (fun n => ?_) (fun n h => ?_) fun n h => ?_
    · split <;> rfl
    · split at h <;> exact h
    · split at h <;> exact h

theorem Numbered.clears_collapseValues (hd : d.Numbered) (id : NodeId) :
    d.Clears (d.collapseValues id).2 := by
  cases hn : d.node? id with
  | none =>
    rw [collapseValues_of_collapsed (by simp [hn])]
    exact .refl d
  | some n =>
    cases he : n.expanded with
    | false =>
      rw [collapseValues_of_collapsed (by simp [hn, he])]
      exact .refl d
    | true =>
      rw [collapseValues_eq hn he]
      refine Clears.trans ?_ (clears_setPinned _ _ _)
      exact (hd.clears_keep _ _).trans (clears_modify (fun _ => rfl) (fun _ h => h) fun _ h => h)

theorem clears_addValueNodes (id : NodeId) (label : String) (rows : List Row) (d : Diagram) :
    d.Clears (rows.foldl (addValueNode id label) d) := by
  induction rows generalizing d with
  | nil => exact .refl d
  | cons row rows ih =>
    refine Clears.trans ⟨fun hd => hd.append (n := shownNode id label row d) rfl rfl,
      fun x hx => .inr ⟨?_, ?_⟩⟩ (ih _)
    · rwa [isBareAt_append (d := d) (n := shownNode id label row d) rfl rfl] at hx
    · simp [children, relationLinks, addValueNode, List.filter_append]

theorem Numbered.clears_expandValues (hd : d.Numbered) (id : NodeId) :
    d.Clears (d.expandValues id).2 := by
  have hc := hd.clears_collapseValues id
  cases hn : d.node? id with
  | none => rwa [expandValues_of_none (by simp [hn])]
  | some n =>
    cases hr : n.data with
    | none => rwa [expandValues_of_none (by simp [hn, hr])]
    | some rows =>
      rw [expandValues_eq hn hr]
      refine Clears.trans ?_ (clears_setPinned _ _ _)
      exact (hc.trans (clears_addValueNodes id n.label _ _)).trans
        (clears_modify (fun _ => rfl) (fun _ h => h) fun _ h => h)

theorem Numbered.clears_selectValue (hd : d.Numbered) (id : NodeId) :
    d.Clears (d.selectValue id).2 := by
  unfold Diagram.selectValue
  split
  · exact .refl d
  · split
    · rename_i parent _ _
      split
      · exact .refl d
      · have hselect (v : SelectedValue) :
            (d.modify parent fun n => { n with selected := n.selected ++ [v] }).Numbered :=
          hd.modify fun _ => rfl
        dsimp only
        refine Clears.trans ?_ ((hselect _).clears_collapseValues _)
        refine clears_modify (fun _ => rfl) (fun _ h => h) fun n h => ?_
        simp [Node.isBare, Node.hasValue] at h
    · exact .refl d

theorem Numbered.clears_turnPage (hd : d.Numbered) (id : NodeId) (turn : Nat → Nat) :
    d.Clears (d.turnPage id turn).2 := by
  have hturn : (d.modify id fun n => { n with page := turn n.page }).Numbered :=
    hd.modify fun _ => rfl
  rw [turnPage_snd]
  refine Clears.trans ?_ (hturn.clears_expandValues id)
  exact clears_modify (fun _ => rfl) (fun _ h => h) fun _ h => h

theorem Numbered.clears_nextPage (hd : d.Numbered) (id : NodeId) :
    d.Clears (d.nextPage id).2 := by
  unfold Diagram.nextPage
  split
  · exact hd.clears_turnPage id _
  · exact .refl d

theorem Numbered.clears_previousPage (hd : d.Numbered) (id : NodeId) :
    d.Clears (d.previousPage id).2 := by
  unfold Diagram.previousPage
  split
  · exact hd.clears_turnPage id _
  · exact .refl d

/-! ## Pruning -/

theorem Numbered.removeSubtrees (hd : d.Numbered) (ids : List NodeId) :
    (ids.foldl (fun d x => (d.removeSubtree x).2) d).Numbered := by
  refine List.foldlRecOn ids _ hd fun e he x _ => ?_
  rw [removeSubtree_snd]
  exact he.keep _ _

theorem Numbered.clears_removeSubtrees (hd : d.Numbered) (ids : List NodeId) :
    d.Clears (ids.foldl (fun d x => (d.removeSubtree x).2) d) := by
  induction ids generalizing d with
  | nil => exact .refl d
  | cons y ids ih =>
    rw [List.foldl_cons, removeSubtree_snd]
    exact (hd.clears_keep _ _).trans (ih (hd.keep _ _))

theorem isReachableFrom_self (d : Diagram) (x : NodeId) : d.isReachableFrom x x = true := by
  rw [isReachableFrom]
  simp

/-- No relation leads to a node that was removed. -/
theorem children_removeSubtrees (ids : List NodeId) :
    ∀ y ∈ (ids.foldl (fun d x => (d.removeSubtree x).2) d).children id,
      y ∈ d.children id ∧ y ∉ ids := by
  induction ids generalizing d with
  | nil => simp
  | cons z ids ih =>
    intro y hy
    obtain ⟨hy, hrest⟩ := ih y hy
    obtain ⟨l, hl, rfl⟩ := List.mem_map.1 hy
    obtain ⟨hl, hsource⟩ := List.mem_filter.1 hl
    obtain ⟨hl, hkind⟩ := List.mem_filter.1 hl
    obtain ⟨hl, hstays⟩ := List.mem_filter.1 hl
    refine ⟨List.mem_map.2 ⟨l, List.mem_filter.2 ⟨List.mem_filter.2 ⟨hl, hkind⟩, hsource⟩, rfl⟩, ?_⟩
    rw [List.mem_cons, not_or]
    refine ⟨fun hz => ?_, hrest⟩
    rw [hz, isReachableFrom_self] at hstays
    simp at hstays

theorem Numbered.clears_pruneNegated (hd : d.Numbered) (id : NodeId) :
    d.Clears (d.pruneNegated id) := by
  unfold Diagram.pruneNegated
  exact ((hd.clears_removeSubtrees _).trans
    ((hd.removeSubtrees _).clears_collapseValues id)).trans
      (clears_modify (fun _ => rfl) (fun _ h => h) fun _ h => h)

theorem children_collapseValues_subset : (d.collapseValues id).2.children x ⊆ d.children x := by
  have hpinned (e : Diagram) (parent : Option NodeId) :
      (e.setPinned parent false).children x = e.children x := by
    cases parent <;> rfl
  cases hn : d.node? id with
  | none => rw [collapseValues_of_collapsed (by simp [hn])]
            exact List.Subset.refl _
  | some n =>
    cases he : n.expanded with
    | false =>
      rw [collapseValues_of_collapsed (by simp [hn, he])]
      exact List.Subset.refl _
    | true =>
      rw [collapseValues_eq hn he, hpinned, children_modify]
      exact List.map_subset _
        (List.filter_subset _ (List.filter_subset _ (List.filter_subset_self _)))

/-- Nothing is left below a node that is pruned. -/
theorem children_pruneNegated (id : NodeId) (d : Diagram) :
    (d.pruneNegated id).children id = [] := by
  rw [List.eq_nil_iff_forall_not_mem]
  intro y hy
  have hy : y ∈ _ := children_collapseValues_subset hy
  obtain ⟨hmem, hgone⟩ := children_removeSubtrees (d.children id) y hy
  exact hgone hmem

theorem Numbered.clears_removeValue (hd : d.Numbered) (id value : NodeId) :
    d.Clears (d.removeValue id value).2 := by
  unfold Diagram.removeValue
  cases hn : d.node? id with
  | none => exact .refl d
  | some n =>
    dsimp only
    split
    · exact .refl d
    · rename_i hlen
      have hselect : (d.modify id fun m =>
          { m with selected := n.selected.filter fun v => v.id != value }).Numbered :=
        hd.modify fun _ => rfl
      cases hprune : n.negative && (n.selected.filter fun v => v.id != value).isEmpty with
      | false =>
        simp only [Bool.false_eq_true, ↓reduceIte]
        refine clears_modify_at (fun _ => rfl) (fun _ _ _ => .inl) fun m hm hbare => ?_
        obtain rfl : m = n := Option.some.inj (hm.symm.trans hn)
        rw [Node.isBare, Node.hasValue, Bool.not_not] at hbare
        rw [hbare] at hprune
        cases hprune
      | true =>
        -- The node is bare from now on, but it is pruned.
        simp only [↓reduceIte]
        have hprune := hselect.clears_pruneNegated id
        refine ⟨fun h => hprune.choices (h.modify (fun _ => rfl) fun _ _ _ => .inl), fun x hx => ?_⟩
        rcases hprune.bare x hx with hnone | ⟨hbare, hsub⟩
        · exact .inl hnone
        · by_cases hxid : x = id
          · subst hxid
            exact .inl (children_pruneNegated _ _)
          · rw [isBareAt_modify_of_ne (f := fun m =>
              { m with selected := n.selected.filter fun v => v.id != value }) (fun _ => rfl) hxid]
              at hbare
            exact .inr ⟨hbare, hsub⟩

theorem Numbered.clears_negate (hd : d.Numbered) (id : NodeId) : d.Clears (d.negate id).2 := by
  unfold Diagram.negate
  cases hn : d.node? id with
  | none => exact .refl d
  | some n =>
    dsimp only
    split
    · exact .refl d
    · rename_i hk
      have hk : n.kind = .choose := by simpa using hk
      have hchoose {e : Diagram} (he : e.Within d) :
          ∀ m ∈ e.nodes, m.id = id → m.kind = .choose := by
        intro m hm hid
        obtain ⟨m', hm', horigin⟩ := he m hm
        rw [Node.kind_of_origin horigin,
          hd.eq_of_node? hn hm' ((Node.id_of_origin horigin).symm.trans hid), hk]
      split
      · exact clears_modify (fun _ => rfl) (fun m h => by simp at h)
          fun m h => by simp [Node.isBare] at h
      · dsimp only
        split
        · rename_i hvalue
          refine clears_modify_at (fun _ => rfl)
            (fun m hm hid _ => .inr (hchoose (.refl d) m hm hid)) fun m hm hbare => ?_
          obtain rfl : m = n := Option.some.inj (hm.symm.trans hn)
          rw [Node.hasValue] at hvalue
          simp [Node.isBare, Node.hasValue, hvalue] at hbare
        · exact (hd.clears_pruneNegated id).modify_of_leaf (fun _ => rfl)
            (fun m hm hid _ => .inr (hchoose ((Within.refl d).pruneNegated id) m hm hid))
            (children_pruneNegated id d)

theorem Numbered.clears_removeNode (hd : d.Numbered) (id : NodeId) :
    d.Clears (d.removeNode id).2 := by
  unfold Diagram.removeNode
  split
  · exact .refl d
  · split
    · exact clears_of_positive (by simp [Diagram.clear])
    · show d.Clears (d.removeSubtree id).2
      rw [removeSubtree_snd]
      exact hd.clears_keep _ _

/-! ## Operations -/

theorem Numbered.clears_run (hd : d.Numbered) (p : Provider) (o : Operation)
    (h : o.growsBare d = false) : d.Clears (o.run p d).2 := by
  cases o with
  | addRoot label anchor => exact clears_of_positive (positive_addRoot p label anchor d)
  | addSchema s anchor => exact clears_of_positive (positive_addSchema p s anchor d)
  | clear => exact clears_of_positive (by simp [Operation.run, Diagram.clear])
  | expandRelationship id index => exact clears_expandRelationship p h
  | setRelationships id segments => exact clears_setRelationships id segments d
  | setData id rows => exact clears_setData id rows d
  | expandValues id => exact hd.clears_expandValues id
  | collapseValues id => exact hd.clears_collapseValues id
  | selectValue id => exact hd.clears_selectValue id
  | removeValue id value => exact hd.clears_removeValue id value
  | negate id => exact hd.clears_negate id
  | removeNode id => exact hd.clears_removeNode id
  | nextPage id => exact hd.clears_nextPage id
  | previousPage id => exact hd.clears_previousPage id

theorem severed_new (pageSize : Nat) : (Diagram.new pageSize).Severed := by
  simp [Severed, Diagram.new]

end Diagram

end PatternQuery
