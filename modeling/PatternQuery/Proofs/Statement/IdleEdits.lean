import PatternQuery.Proofs.Diagram.Identity
import PatternQuery.Proofs.Statement.Extension

/-!
# Edits that change no statement

Storing segments and candidates, showing and hiding candidates and adding a child extend a diagram:
they change no essence of a node, come and go with candidate values only, or add an idle node. With
what else these operations keep, that makes a refinement (`Diagram.Refines`).
-/

namespace PatternQuery.Diagram

variable {d d' : Diagram} {id : NodeId} {n : Node}

/-! ## The edits -/

theorem root?_modify {f : Node → Node} (hf : ∀ n, (f n).essence = n.essence) :
    (d.modify id f).root?.map Node.essence = d.root?.map Node.essence := by
  have hroot (n : Node) : (f n).isRoot = n.isRoot :=
    Node.congr_essence (hf n) Node.isRoot fun _ => rfl
  cases hd : d.nodes with
  | nil => simp [root?, Diagram.modify, hd]
  | cons r rest =>
    simp only [root?, Diagram.modify, hd, List.map_cons, List.head?_cons]
    split
    · cases hr : r.isRoot <;> simp [Option.filter, hroot, hr, hf]
    · rfl

theorem Shape.extends_modify (h : d.Shape) (id : NodeId) {f : Node → Node}
    (hf : ∀ n, (f n).essence = n.essence) : d.Extends (d.modify id f) where
  root := root?_modify hf
  node n hn _ := by
    refine ⟨_, mem_modify.2 ⟨n, hn, rfl⟩, ?_⟩
    split
    · exact hf n
    · rfl
  relations := (Extends.refl h).relations
  idle n' hn' hk hnot := by
    obtain ⟨m, hm, rfl⟩ := mem_modify.1 hn'
    have hplace : (if m.id = id then f m else m).place = m.place := by
      split
      · exact Node.place_of_essence (hf m)
      · rfl
    obtain ⟨hid, hkind, -⟩ := Node.place_eq_iff.1 hplace
    rw [hkind] at hk
    exact absurd ⟨m, hm, hid.symm, hk⟩ hnot

theorem Shape.extends_keep (h : d.Shape) {p : NodeId → Bool} {q : Link → Bool}
    (hp : ∀ n ∈ d.nodes, n.kind ≠ .value → p n.id = true)
    (hq : ∀ l ∈ d.relationLinks, q l = true) : d.Extends (d.keep p q) where
  root := by
    cases hd : d.nodes with
    | nil => simp [root?, Diagram.keep, hd]
    | cons r rest =>
      have hr := hp r (by simp [hd]) (by simp [h.head_kind hd])
      simp [root?, Diagram.keep, hd, hr]
  node n hn hk := ⟨n, List.mem_filter.2 ⟨hn, hp n hn hk⟩, rfl⟩
  relations := by
    have hkeep : (d.keep p q).relationLinks = d.relationLinks := by
      simp only [relationLinks, Diagram.keep, List.filter_filter]
      refine List.filter_congr fun l hl => ?_
      cases hk : l.kind == LinkKind.relation with
      | false => rfl
      | true => rw [Bool.true_and, hq l (List.mem_filter.2 ⟨hl, hk⟩)]
    rw [hkeep]
    exact (Extends.refl h).relations
  idle n' hn' hk hnot := absurd ⟨n', (List.mem_filter.1 hn').1, rfl, hk⟩ hnot

/-- Candidate values and idle nodes may be added. -/
theorem Shape.extends_append (h : d.Shape) {ns : List Node} {ls : List Link} (hne : d.nodes ≠ [])
    (hnodes : d'.nodes = d.nodes ++ ns) (hlinks : d'.links = d.links ++ ls)
    (hns : ∀ n ∈ ns, n.kind ≠ .value → n.Idle)
    (hls : ∀ l ∈ ls, l.kind = .relation → ¬ d.IsQueryNode l.target) : d.Extends d' where
  root := by
    obtain ⟨r, rest, hd⟩ := List.exists_cons_of_ne_nil hne
    simp [root?, hnodes, hd]
  node n hn _ := ⟨n, hnodes ▸ List.mem_append_left _ hn, rfl⟩
  relations := by
    have hold := (Extends.refl h).relations
    have hnew : (ls.filter fun l => l.kind == .relation).filter
        (fun l => d.IsQueryNode l.target) = [] := by
      rw [List.filter_eq_nil_iff]
      intro l hl
      obtain ⟨hl, hk⟩ := List.mem_filter.1 hl
      simpa using hls l hl (by simpa using hk)
    unfold relationLinks at hold ⊢
    rw [hlinks, List.filter_append, List.filter_append, ← hold, hnew, List.append_nil]
  idle n' hn' hk hnot := by
    rw [hnodes] at hn'
    rcases List.mem_append.1 hn' with hn' | hn'
    · exact absurd ⟨n', hn', rfl, hk⟩ hnot
    · exact hns n' hn' hk

/-! ## Segments and candidates -/

theorem Shape.extends_setRelationships (h : d.Shape) (id : NodeId) (segments : List Segment) :
    d.Extends (d.setRelationships id segments).2 := by
  unfold Diagram.setRelationships
  split
  · exact .refl h
  · exact h.extends_modify id fun _ => rfl

theorem Shape.extends_setData (h : d.Shape) (id : NodeId) (rows : List Row) :
    d.Extends (d.setData id rows).2 := by
  unfold Diagram.setData
  split
  · exact .refl h
  · exact h.extends_modify id fun _ => rfl

theorem Shape.extends_setPinned (h : d.Shape) (parent : Option NodeId) (fixed : Bool) :
    d.Extends (d.setPinned parent fixed) := by
  cases parent with
  | none => exact .refl h
  | some p =>
    refine Shape.extends_modify h _ fun n => ?_
    split <;> rfl

/-! ## Children -/

theorem childNode_idle (p : Provider) (s : Segment) (kind : NodeKind) (d : Diagram) :
    (childNode p id s kind d).Idle :=
  ⟨rfl, rfl⟩

theorem Shape.extends_attachChild (h : d.Shape) (hid : d.IsQueryNode id) (p : Provider)
    (s : Segment) (kind : NodeKind) : d.Extends (d.attachChild p id s kind).2 := by
  have hne : d.nodes ≠ [] := by
    obtain ⟨n, hn, -⟩ := hid
    exact List.ne_nil_of_mem hn
  rw [attachChild_eq]
  refine h.extends_append hne rfl rfl (fun n hn _ => ?_) fun l hl _ => ?_
  · rw [List.mem_singleton.1 hn]
    exact childNode_idle p s kind d
  · rw [List.mem_singleton.1 hl]
    rintro ⟨m, hm, hmid, -⟩
    have hlt := h.bounded m hm
    rw [hmid] at hlt
    exact Nat.lt_irrefl _ hlt

theorem WellFormed.extends_expandRelationship (h : d.WellFormed) (p : Provider) (id : NodeId)
    (index : Nat) : d.Extends (d.expandRelationship p id index).2 := by
  unfold Diagram.expandRelationship
  split
  · exact .refl h.toShape
  · rename_i n hn
    split
    · exact .refl h.toShape
    · rename_i s hs
      refine h.toShape.extends_attachChild (isQueryNode_of_node? hn fun hk => ?_) p s .choose
      rw [(h.sound n (mem_of_node? hn)).relationships hk] at hs
      simp at hs

/-! ## Candidate values -/

theorem Shape.extends_withoutValues (h : d.Shape) (id : NodeId) :
    d.Extends (d.withoutValues id) := by
  refine h.extends_keep (fun n hn hk => ?_) fun l hl => ?_
  · rw [Bool.not_eq_true', ← Bool.not_eq_true, List.contains_iff_mem, h.mem_shown_iff _ hn]
    exact fun hv => hk hv.1
  · simp [Link.isValueOf, (mem_relationLinks.1 hl).2]

theorem WellFormed.extends_collapseValues (h : d.WellFormed) (id : NodeId) :
    d.Extends (d.collapseValues id).2 := by
  have hw := h.collapseValues id
  cases hn : d.node? id with
  | none =>
    rw [collapseValues_of_collapsed (by simp [hn])]
    exact .refl h.toShape
  | some n =>
    cases he : n.expanded with
    | false =>
      rw [collapseValues_of_collapsed (by simp [hn, he])]
      exact .refl h.toShape
    | true =>
      rw [collapseValues_eq hn he] at hw ⊢
      have hhide := (h.hideRows id).toShape
      have hmodify := (h.withoutValues id).toShape.extends_modify id
        (f := fun n => { n with expanded := false, fixed := n.isRoot && n.fixed }) fun _ => rfl
      exact ((h.toShape.extends_withoutValues id).trans hmodify hhide.toNumbered).trans
        (hhide.extends_setPinned _ _) hw.toNumbered

theorem Shape.extends_addValueNodes (h : d.Shape) (hid : d.IsQueryNode id) (label : String)
    (rows : List Row) : d.Extends (rows.foldl (addValueNode id label) d) := by
  have hne : d.nodes ≠ [] := by
    obtain ⟨n, hn, -⟩ := hid
    exact List.ne_nil_of_mem hn
  obtain ⟨vs, ls, hvs, hls, hv, hl⟩ := addValueNodes_append id label rows d
  refine h.extends_append hne hvs hls (fun n hn hk => ?_) fun l hlm hk => ?_
  · exact absurd (hv n hn).1 hk
  · rw [hl l hlm] at hk
    simp at hk

theorem WellFormed.extends_expandValues (h : d.WellFormed) (id : NodeId) :
    d.Extends (d.expandValues id).2 := by
  have hc := h.extends_collapseValues id
  have hw := h.expandValues id
  cases hn : d.node? id with
  | none => rwa [expandValues_of_none (by simp [hn])]
  | some n =>
    cases hr : n.data with
    | none => rwa [expandValues_of_none (by simp [hn, hr])]
    | some rows =>
      rw [expandValues_eq hn hr] at hw ⊢
      have hid := (h.isQueryNode_of_data hn hr).collapseValues h.toShape id
      have hcs := (h.collapseValues id).toShape
      generalize pageRows _ n rows = page at hw ⊢
      have hadded := hcs.addValueNodes hid n.label page
      have hshow := ((h.collapseValues id).showRows hid n.label page).toShape
      have hmodify := hadded.extends_modify id
        (f := fun n => { n with fixed := true, expanded := true }) fun _ => rfl
      have hadd := hc.trans (hcs.extends_addValueNodes hid n.label page) hadded.toNumbered
      exact (hadd.trans hmodify hshow.toNumbered).trans (hshow.extends_setPinned _ _) hw.toNumbered

theorem WellFormed.extends_turnPage (h : d.WellFormed) (id : NodeId) (turn : Nat → Nat) :
    d.Extends (d.turnPage id turn).2 := by
  have hturn := h.toShape.extends_modify id
    (f := fun n => { n with page := turn n.page }) fun _ => rfl
  have hw : (d.modify id fun n => { n with page := turn n.page }).WellFormed :=
    h.restyle fun _ => rfl
  rw [turnPage_snd]
  exact hturn.trans (hw.extends_expandValues id) (hw.expandValues id).toNumbered

theorem WellFormed.extends_nextPage (h : d.WellFormed) (id : NodeId) :
    d.Extends (d.nextPage id).2 := by
  unfold Diagram.nextPage
  split
  · exact h.extends_turnPage id _
  · exact .refl h.toShape

theorem WellFormed.extends_previousPage (h : d.WellFormed) (id : NodeId) :
    d.Extends (d.previousPage id).2 := by
  unfold Diagram.previousPage
  split
  · exact h.extends_turnPage id _
  · exact .refl h.toShape

/-! ## Refinements -/

/-- What may become of a well-formed diagram without a change of any statement. -/
structure Refines (d d' : Diagram) : Prop where
  wellFormed : d'.WellFormed
  continues : d.Continues d'
  isExtension : d.Extends d'

variable {d'' : Diagram}

theorem Refines.refl (h : d.WellFormed) : d.Refines d := ⟨h, .refl d, .refl h.toShape⟩

theorem Refines.trans (h : d.Refines d') (h' : d'.Refines d'') : d.Refines d'' :=
  ⟨h'.wellFormed, h.continues.trans h'.continues,
    h.isExtension.trans h'.isExtension h'.wellFormed.toNumbered⟩

theorem WellFormed.refines_setRelationships (h : d.WellFormed) (segments : List Segment)
    (hid : ∀ n, d.node? id = some n → n.kind ≠ .value) :
    d.Refines (d.setRelationships id segments).2 :=
  ⟨h.setRelationships segments hid, continues_setRelationships id segments d,
    h.toShape.extends_setRelationships id segments⟩

theorem WellFormed.refines_expandRelationship (h : d.WellFormed) (p : Provider) (id : NodeId)
    (index : Nat) : d.Refines (d.expandRelationship p id index).2 :=
  ⟨h.expandRelationship p id index, continues_expandRelationship p id index d,
    h.extends_expandRelationship p id index⟩

theorem WellFormed.refines_setData (h : d.WellFormed) (rows : List Row)
    (hid : ∀ n, d.node? id = some n → n.kind ≠ .value) : d.Refines (d.setData id rows).2 :=
  ⟨h.setData rows hid, continues_setData id rows d, h.toShape.extends_setData id rows⟩

theorem WellFormed.refines_collapseValues (h : d.WellFormed) (id : NodeId) :
    d.Refines (d.collapseValues id).2 :=
  ⟨h.collapseValues id, continues_collapseValues id d, h.extends_collapseValues id⟩

theorem WellFormed.refines_expandValues (h : d.WellFormed) (id : NodeId) :
    d.Refines (d.expandValues id).2 :=
  ⟨h.expandValues id, continues_expandValues id d, h.extends_expandValues id⟩

theorem WellFormed.refines_nextPage (h : d.WellFormed) (id : NodeId) :
    d.Refines (d.nextPage id).2 :=
  ⟨h.nextPage id, continues_nextPage id d, h.extends_nextPage id⟩

theorem WellFormed.refines_previousPage (h : d.WellFormed) (id : NodeId) :
    d.Refines (d.previousPage id).2 :=
  ⟨h.previousPage id, continues_previousPage id d, h.extends_previousPage id⟩

end PatternQuery.Diagram
