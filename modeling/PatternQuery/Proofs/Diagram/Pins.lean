import PatternQuery.Diagram.Node

/-!
# Pins

A node is pinned while its candidates are shown, and so is its parent. A node holds no more than one
flag for that, so pins fit what is shown (`Pin.Fits`) only as long as no pin is needed twice: hiding
the candidates of a node takes the pins of the node and of its parent away, whoever else needs them
(`Pin.allFit_hide`), and a node that goes leaves the pin of its parent behind
(`Pin.allFit_filter_of_gone`).
-/

namespace PatternQuery

/-- What pins have to do with, of one node of the query. -/
structure Pin where
  id : NodeId
  parent : Option NodeId
  isRoot : Bool
  /-- Candidates were fetched. -/
  filled : Bool
  expanded : Bool
  fixed : Bool

namespace Pin

/-- A child of a node shows its candidates. -/
def childShows (l : List Pin) (x : NodeId) : Bool :=
  l.any fun c => c.parent == some x && c.expanded

/-- A child of a node, other than `y`, shows its candidates. -/
def otherShows (l : List Pin) (x y : NodeId) : Bool :=
  l.any fun c => c.parent == some x && (c.expanded && c.id != y)

/-- Just the root, nodes that show their candidates and their parents are pinned. -/
def Fits (l : List Pin) (q : Pin) : Prop :=
  q.fixed = (q.isRoot || q.expanded || childShows l q.id)

instance (l : List Pin) (q : Pin) : Decidable (Fits l q) :=
  inferInstanceAs (Decidable (q.fixed = (q.isRoot || q.expanded || childShows l q.id)))

def AllFit (l : List Pin) : Prop := ∀ q ∈ l, Fits l q

instance (l : List Pin) : Decidable (AllFit l) := inferInstanceAs (Decidable (∀ q ∈ l, Fits l q))

/-- Numbers tell nodes apart, and no node is its own parent. -/
structure Apart (l : List Pin) : Prop where
  eq_of_id : ∀ q ∈ l, ∀ q' ∈ l, q.id = q'.id → q = q'
  parent_ne : ∀ q ∈ l, q.parent ≠ some q.id

/-- The root is pinned, and what shows candidates has some. -/
structure Upheld (l : List Pin) : Prop where
  root : ∀ q ∈ l, q.isRoot = true → q.fixed = true
  filled : ∀ q ∈ l, q.expanded = true → q.filled = true

/-! ## Pins that are needed twice -/

/-- The parent of a node has to be pinned, whether the node is there or not. -/
def parentHeld (l : List Pin) (a : Pin) : Bool :=
  l.any fun m => a.parent == some m.id && !m.isRoot && (m.expanded || otherShows l m.id a.id)

/-- The parent of a node has to be pinned for the sake of the node alone, if at all. -/
def parentFree (l : List Pin) (a : Pin) : Bool :=
  l.any fun m => a.parent == some m.id && !m.isRoot && !(m.expanded || otherShows l m.id a.id)

/-- Hiding the candidates of a node takes a pin away that is needed. -/
def hidingMisplaces (l : List Pin) (a : Pin) : Bool :=
  a.expanded && (!a.isRoot && childShows l a.id || parentHeld l a)

/-- Taking everything away from below a node, its candidates too, takes a pin away that is needed or
leaves one behind that is not. -/
def pruningMisplaces (l : List Pin) (a : Pin) : Bool :=
  if a.expanded then parentHeld l a else !a.isRoot && childShows l a.id

/-- Taking a node away leaves a pin behind that is not needed any more. -/
def removalMisplaces (l : List Pin) (a : Pin) : Bool := a.expanded && parentFree l a

variable {l l' : List Pin} {a q : Pin} {x y : NodeId}

theorem childShows_eq_true : childShows l x = true ↔
    ∃ c ∈ l, c.parent = some x ∧ c.expanded = true := by
  simp [childShows]

theorem otherShows_eq_true : otherShows l x y = true ↔
    ∃ c ∈ l, c.parent = some x ∧ c.expanded = true ∧ c.id ≠ y := by
  simp [otherShows]

theorem parentHeld_eq_false : parentHeld l a = false ↔
    ∀ m ∈ l, a.parent = some m.id → m.isRoot = false →
      m.expanded = false ∧ otherShows l m.id a.id = false := by
  simp [parentHeld]

theorem parentFree_eq_false : parentFree l a = false ↔
    ∀ m ∈ l, a.parent = some m.id → m.isRoot = false →
      m.expanded = false → otherShows l m.id a.id = true := by
  simp [parentFree]

theorem Apart.filter (h : Apart l) (p : Pin → Bool) : Apart (l.filter p) where
  eq_of_id q hq q' hq' := h.eq_of_id q (List.mem_filter.1 hq).1 q' (List.mem_filter.1 hq').1
  parent_ne q hq := h.parent_ne q (List.mem_filter.1 hq).1

theorem Upheld.filter (h : Upheld l) (p : Pin → Bool) : Upheld (l.filter p) where
  root q hq := h.root q (List.mem_filter.1 hq).1
  filled q hq := h.filled q (List.mem_filter.1 hq).1

/-- Who else shows candidates below a node, besides one of its children. -/
theorem Apart.childShows_eq_or (hl : Apart l) (ha : a ∈ l) (hp : a.parent = some x) :
    childShows l x = (a.expanded || otherShows l x a.id) := by
  rw [Bool.eq_iff_iff, Bool.or_eq_true, childShows_eq_true, otherShows_eq_true]
  constructor
  · rintro ⟨c, hc, hcp, he⟩
    by_cases hid : c.id = a.id
    · rw [← hl.eq_of_id c hc a ha hid]
      exact .inl he
    · exact .inr ⟨c, hc, hcp, he, hid⟩
  · rintro (he | ⟨c, hc, hcp, he, -⟩)
    · exact ⟨a, ha, hp, he⟩
    · exact ⟨c, hc, hcp, he⟩

/-- Only the parent of a node can do without it. -/
theorem Apart.otherShows_eq (hl : Apart l) (ha : a ∈ l) (hx : a.parent ≠ some x) :
    otherShows l x a.id = childShows l x := by
  rw [Bool.eq_iff_iff, otherShows_eq_true, childShows_eq_true]
  constructor
  · rintro ⟨c, hc, hp, he, -⟩
    exact ⟨c, hc, hp, he⟩
  · rintro ⟨c, hc, hp, he⟩
    refine ⟨c, hc, hp, he, fun hid => hx ?_⟩
    rw [← hl.eq_of_id c hc a ha hid, hp]

/-! ## Showing and hiding -/

/-- The node shows its candidates. -/
def shown (q : Pin) : Pin := { q with expanded := true, fixed := true }

/-- The node hides its candidates. -/
def hidden (q : Pin) : Pin := { q with expanded := false, fixed := q.isRoot && q.fixed }

/-- Candidates of the node were fetched. -/
def fill (q : Pin) : Pin := { q with filled := true }

def update (x : NodeId) (g : Pin → Pin) (l : List Pin) : List Pin :=
  l.map fun q => if q.id = x then g q else q

/-- Pins a parent or unpins it. The root stays as it is. -/
def setParent (parent : Option NodeId) (fixed : Bool) (l : List Pin) : List Pin :=
  l.map fun q => if parent = some q.id ∧ q.isRoot = false then { q with fixed } else q

/-- A node hides its candidates, its parent is unpinned. -/
def hide (a : Pin) (l : List Pin) : List Pin := setParent a.parent false (update a.id hidden l)

/-- A node shows its candidates, its parent is pinned. -/
def display (a : Pin) (l : List Pin) : List Pin := setParent a.parent true (update a.id shown l)

theorem hide_eq_map (a : Pin) (l : List Pin) : hide a l = l.map fun q =>
    { q with
      expanded := q.id != a.id && q.expanded
      fixed := if a.parent = some q.id ∧ q.isRoot = false then false
        else if q.id = a.id then q.isRoot && q.fixed else q.fixed } := by
  rw [hide, setParent, update, List.map_map]
  refine List.map_congr_left fun ⟨id, parent, isRoot, filled, expanded, fixed⟩ _ => ?_
  by_cases hid : id = a.id <;> by_cases hp : a.parent = some id <;> cases isRoot <;>
    simp [hid, hp, hidden]

theorem display_eq_map (a : Pin) (l : List Pin) : display a l = l.map fun q =>
    { q with
      expanded := q.id == a.id || q.expanded
      fixed := if a.parent = some q.id ∧ q.isRoot = false then true
        else q.id == a.id || q.fixed } := by
  rw [display, setParent, update, List.map_map]
  refine List.map_congr_left fun ⟨id, parent, isRoot, filled, expanded, fixed⟩ _ => ?_
  by_cases hid : id = a.id <;> by_cases hp : a.parent = some id <;> cases isRoot <;>
    simp [hid, hp, shown]

theorem childShows_hide (a : Pin) (l : List Pin) (x : NodeId) :
    childShows (hide a l) x = otherShows l x a.id := by
  rw [hide_eq_map, childShows, otherShows, List.any_map]
  congr 1
  funext c
  simp only [Function.comp, Bool.and_comm c.expanded]

theorem childShows_display (a : Pin) (hl : Apart l) (ha : a ∈ l) (x : NodeId) :
    childShows (display a l) x = (a.parent == some x || childShows l x) := by
  rw [Bool.eq_iff_iff, display_eq_map, Bool.or_eq_true, beq_iff_eq]
  simp only [childShows, List.any_map, List.any_eq_true, Function.comp, Bool.and_eq_true,
    Bool.or_eq_true, beq_iff_eq]
  constructor
  · rintro ⟨c, hc, hp, hid | he⟩
    · rw [hl.eq_of_id c hc a ha hid] at hp
      exact .inl hp
    · exact .inr ⟨c, hc, hp, he⟩
  · rintro (hp | ⟨c, hc, hp, he⟩)
    · exact ⟨a, ha, hp, .inl rfl⟩
    · exact ⟨c, hc, hp, .inr he⟩

theorem forall_hide {P : Pin → Prop} : (∀ q ∈ hide a l, P q) ↔ ∀ q ∈ l, P { q with
    expanded := q.id != a.id && q.expanded
    fixed := if a.parent = some q.id ∧ q.isRoot = false then false
      else if q.id = a.id then q.isRoot && q.fixed else q.fixed } := by
  rw [hide_eq_map, List.forall_mem_map]

/-- A node that hides its candidates is unpinned, and so is its parent, whatever else is shown. -/
theorem allFit_hide (hl : Apart l) (hu : Upheld l) (ha : a ∈ l) (he : a.expanded = true)
    (hfits : ∀ q ∈ l, q.id ≠ a.id → Fits l q) :
    AllFit (hide a l) ↔ hidingMisplaces l a = false := by
  have hself := hl.otherShows_eq ha (hl.parent_ne a ha)
  rw [hidingMisplaces, he, Bool.true_and, Bool.or_eq_false_iff, parentHeld_eq_false]
  simp only [AllFit, forall_hide, Fits, childShows_hide]
  constructor
  · intro h
    constructor
    · have hq := h a ha
      rw [if_neg fun hp => hl.parent_ne a ha hp.1, if_pos rfl, hself] at hq
      cases hr : a.isRoot with
      | true => rfl
      | false => simpa [hr] using hq.symm
    · intro m hm hp hr
      have hne : m.id ≠ a.id := fun hid => hl.parent_ne a ha (hid ▸ hp)
      have hq := h m hm
      rw [if_pos ⟨hp, hr⟩] at hq
      simpa [hr, hne] using hq.symm
  · rintro ⟨hown, hparent⟩ q hq
    by_cases hid : q.id = a.id
    · obtain rfl := hl.eq_of_id q hq a ha hid
      rw [if_neg fun hp => hl.parent_ne q hq hp.1, if_pos rfl, hself]
      cases hr : q.isRoot with
      | true => simp [hu.root q hq hr]
      | false => simpa [hr] using hown
    · have hbne : (q.id != a.id) = true := by simpa using hid
      rw [hbne, Bool.true_and]
      by_cases hp : a.parent = some q.id
      · cases hr : q.isRoot with
        | true => simp [hu.root q hq hr, hid]
        | false => simp [hp, hparent q hq hp hr]
      · rw [if_neg fun h => hp h.1, if_neg hid, hl.otherShows_eq ha hp]
        exact hfits q hq hid

/-- A node that shows its candidates is pinned, and so is its parent. -/
theorem allFit_display (hl : Apart l) (hu : Upheld l) (ha : a ∈ l) (hfits : AllFit l) :
    AllFit (display a l) := by
  intro q' hq'
  rw [Fits, childShows_display a hl ha]
  rw [display_eq_map] at hq'
  obtain ⟨q, hq, rfl⟩ := List.mem_map.1 hq'
  have hq' := hfits q hq
  dsimp only
  by_cases hp : a.parent = some q.id
  · cases hr : q.isRoot with
    | true => simp [hp, hu.root q hq hr]
    | false => simp [hp]
  · rw [if_neg fun h => hp h.1, beq_eq_false_iff_ne.2 hp, Bool.false_or, hq']
    cases q.id == a.id <;> simp

theorem Upheld.hide (h : Upheld l) (a : Pin) : Upheld (hide a l) where
  root q' hq' hr := by
    rw [hide_eq_map] at hq'
    obtain ⟨q, hq, rfl⟩ := List.mem_map.1 hq'
    have hroot : q.isRoot = true := hr
    simp [hroot, h.root q hq hroot]
  filled q' hq' he := by
    rw [hide_eq_map] at hq'
    obtain ⟨q, hq, rfl⟩ := List.mem_map.1 hq'
    exact h.filled q hq (Bool.and_eq_true_iff.1 he).2

theorem Upheld.display (h : Upheld l) (hl : Apart l) (ha : a ∈ l) (hf : a.filled = true) :
    Upheld (display a l) where
  root q' hq' hr := by
    rw [display_eq_map] at hq'
    obtain ⟨q, hq, rfl⟩ := List.mem_map.1 hq'
    have hroot : q.isRoot = true := hr
    simp [hroot, h.root q hq hroot]
  filled q' hq' he := by
    rw [display_eq_map] at hq'
    obtain ⟨q, hq, rfl⟩ := List.mem_map.1 hq'
    rcases Bool.or_eq_true_iff.1 he with hid | he
    · rw [hl.eq_of_id q hq a ha (beq_iff_eq.1 hid)]
      exact hf
    · exact h.filled q hq he

/-- To hide the candidates first makes no difference. -/
theorem display_hide (hl : Apart l) (ha : a ∈ l) : display a (hide a l) = display a l := by
  rw [display_eq_map, hide_eq_map, display_eq_map, List.map_map]
  refine List.map_congr_left fun q hq => ?_
  by_cases hid : q.id = a.id
  · obtain rfl := hl.eq_of_id q hq a ha hid
    simp
  · have hbeq : (q.id == a.id) = false := beq_eq_false_iff_ne.2 hid
    by_cases hp : a.parent = some q.id <;> cases hr : q.isRoot <;> simp [bne, hid, hbeq, hp, hr]

/-! ## Fetched candidates and new nodes -/

theorem childShows_fill : childShows (update x fill l) y = childShows l y := by
  rw [childShows, update, List.any_map, childShows]
  congr 1
  funext q
  simp only [Function.comp]
  split <;> rfl

theorem allFit_fill (hfits : AllFit l) : AllFit (update x fill l) := by
  intro q' hq'
  rw [Fits, childShows_fill]
  obtain ⟨q, hq, rfl⟩ := List.mem_map.1 hq'
  have hq := hfits q hq
  split <;> exact hq

theorem Upheld.fill (h : Upheld l) (x : NodeId) : Upheld (update x fill l) where
  root q' hq' hr := by
    obtain ⟨q, hq, rfl⟩ := List.mem_map.1 hq'
    by_cases hid : q.id = x
    · rw [if_pos hid] at hr ⊢
      exact h.root q hq hr
    · rw [if_neg hid] at hr ⊢
      exact h.root q hq hr
  filled q' hq' he := by
    obtain ⟨q, hq, rfl⟩ := List.mem_map.1 hq'
    by_cases hid : q.id = x
    · rw [if_pos hid]
      rfl
    · rw [if_neg hid] at he ⊢
      exact h.filled q hq he

/-- A new node, from which nothing hangs, is neither pinned nor does it show candidates. -/
theorem allFit_append (hfits : AllFit l) (hr : a.isRoot = false) (he : a.expanded = false)
    (hf : a.fixed = false) (hnew : ∀ q ∈ l, q.parent ≠ some a.id) : AllFit (l ++ [a]) := by
  have hshows (x : NodeId) : childShows (l ++ [a]) x = childShows l x := by
    simp [childShows, he]
  intro q hq
  rw [Fits, hshows]
  rcases List.mem_append.1 hq with hq | hq
  · exact hfits q hq
  · rw [List.mem_singleton.1 hq, hr, he, hf, eq_comm, Bool.or_self, Bool.false_or,
      ← Bool.not_eq_true, childShows_eq_true]
    rintro ⟨c, hc, hp, -⟩
    exact hnew c hc hp

theorem Upheld.append (h : Upheld l) (hr : a.isRoot = false) (he : a.expanded = false) :
    Upheld (l ++ [a]) where
  root q hq hroot := by
    rcases List.mem_append.1 hq with hq | hq
    · exact h.root q hq hroot
    · rw [List.mem_singleton.1 hq, hr] at hroot
      cases hroot
  filled q hq hexp := by
    rcases List.mem_append.1 hq with hq | hq
    · exact h.filled q hq hexp
    · rw [List.mem_singleton.1 hq, he] at hexp
      cases hexp

/-! ## Removing -/

/-- What goes is `a` or a child of `a`, or it hangs from something that goes too. -/
def GoesBelow (l : List Pin) (alive : Pin → Bool) (x : NodeId) : Prop :=
  ∀ c ∈ l, alive c = false → c.parent = some x ∨ ∃ q ∈ l, c.parent = some q.id ∧ alive q = false

variable {alive : Pin → Bool}

/-- Nodes other than `x` keep their children, unless they go. -/
theorem Apart.any_child_filter (hl : Apart l) (hbelow : GoesBelow l alive x) (hq : q ∈ l)
    (halive : alive q = true) (hx : q.id ≠ x) (f : Pin → Bool) :
    (l.filter alive).any (fun c => c.parent == some q.id && f c) =
      l.any fun c => c.parent == some q.id && f c := by
  rw [Bool.eq_iff_iff]
  simp only [List.any_eq_true, Bool.and_eq_true, beq_iff_eq]
  constructor
  · rintro ⟨c, hc, hp, he⟩
    exact ⟨c, (List.mem_filter.1 hc).1, hp, he⟩
  · rintro ⟨c, hc, hp, he⟩
    refine ⟨c, List.mem_filter.2 ⟨hc, ?_⟩, hp, he⟩
    refine (Bool.eq_false_or_eq_true _).resolve_right fun hgone => ?_
    rcases hbelow c hc hgone with hp' | ⟨r, hr, hp', hdead⟩
    · exact hx (Option.some.inj (hp.symm.trans hp'))
    · rw [hl.eq_of_id r hr q hq (Option.some.inj (hp'.symm.trans hp)), halive] at hdead
      cases hdead

/-- When nodes go from below `x`, the pin of `x` alone may be left without a reason. -/
theorem fits_filter (hl : Apart l) (hfits : AllFit l) (hbelow : GoesBelow l alive x) :
    ∀ q ∈ l.filter alive, q.id ≠ x → Fits (l.filter alive) q := by
  intro q hq hx
  obtain ⟨hq, halive⟩ := List.mem_filter.1 hq
  rw [Fits, childShows, hl.any_child_filter hbelow hq halive hx]
  exact hfits q hq

/-- Everything goes from below a node, and its candidates are hidden then if they are shown. -/
theorem allFit_prune (hl : Apart l) (hu : Upheld l) (hfits : AllFit l) (ha : a ∈ l)
    (hbelow : GoesBelow l alive a.id) (halive : alive a = true)
    (hgone : ∀ c ∈ l, c.parent = some a.id → alive c = false)
    (hparent : ∀ m ∈ l, a.parent = some m.id → alive m = true) (pruned : List Pin)
    (hpruned : pruned = if a.expanded then hide a (l.filter alive) else l.filter alive) :
    AllFit pruned ↔ pruningMisplaces l a = false := by
  have ha' : a ∈ l.filter alive := List.mem_filter.2 ⟨ha, halive⟩
  have hrest := fits_filter hl hfits hbelow
  have hnone : childShows (l.filter alive) a.id = false := by
    rw [← Bool.not_eq_true, childShows_eq_true]
    rintro ⟨c, hc, hp, -⟩
    obtain ⟨hc, hlive⟩ := List.mem_filter.1 hc
    rw [hgone c hc hp] at hlive
    cases hlive
  rw [hpruned, pruningMisplaces]
  cases he : a.expanded with
  | true =>
    rw [if_pos rfl, if_pos rfl, allFit_hide (hl.filter alive) (hu.filter alive) ha' he hrest,
      hidingMisplaces, he, hnone, Bool.and_false, Bool.false_or, Bool.true_and,
      parentHeld_eq_false, parentHeld_eq_false]
    have hother {m : Pin} (hm : m ∈ l) (hp : a.parent = some m.id) :
        otherShows (l.filter alive) m.id a.id = otherShows l m.id a.id := by
      have hne : m.id ≠ a.id := fun hid => hl.parent_ne a ha (hid ▸ hp)
      exact hl.any_child_filter hbelow hm (hparent m hm hp) hne _
    constructor
    · intro h m hm hp hr
      rw [← hother hm hp]
      exact h m (List.mem_filter.2 ⟨hm, hparent m hm hp⟩) hp hr
    · intro h m hm hp hr
      have hm := (List.mem_filter.1 hm).1
      rw [hother hm hp]
      exact h m hm hp hr
  | false =>
    simp only [Bool.false_eq_true, ↓reduceIte]
    have hfit : Fits (l.filter alive) a ↔ (!a.isRoot && childShows l a.id) = false := by
      rw [Fits, hnone, hfits a ha, he]
      cases a.isRoot <;> simp
    rw [← hfit]
    refine ⟨fun h => h a ha', fun h q hq => ?_⟩
    by_cases hid : q.id = a.id
    · rwa [(hl.filter alive).eq_of_id q hq a ha' hid]
    · exact hrest q hq hid

/-- A node goes with everything below it. Whatever its parent is pinned for, it stays pinned. -/
theorem allFit_filter_of_gone (hl : Apart l) (hfits : AllFit l) (hp : a.parent = some x)
    (hbelow : GoesBelow l alive x) (hshows : childShows l x = (a.expanded || otherShows l x a.id))
    (halive : ∀ q ∈ l, q.id = x → alive q = true)
    (hchild : ∀ c ∈ l, c.parent = some x → (alive c = true ↔ c.id ≠ a.id)) :
    AllFit (l.filter alive) ↔ removalMisplaces l a = false := by
  have hleft : childShows (l.filter alive) x = otherShows l x a.id := by
    rw [Bool.eq_iff_iff, childShows_eq_true, otherShows_eq_true]
    constructor
    · rintro ⟨c, hc, hcp, he⟩
      obtain ⟨hc, hlive⟩ := List.mem_filter.1 hc
      exact ⟨c, hc, hcp, he, (hchild c hc hcp).1 hlive⟩
    · rintro ⟨c, hc, hcp, he, hne⟩
      exact ⟨c, List.mem_filter.2 ⟨hc, (hchild c hc hcp).2 hne⟩, hcp, he⟩
  have hfit {m : Pin} (hm : m ∈ l) (hx : m.id = x) : Fits (l.filter alive) m ↔
      (a.expanded = true → m.isRoot = false → m.expanded = false →
        otherShows l m.id a.id = true) := by
    rw [Fits, hfits m hm, hx, hleft, hshows]
    cases a.expanded <;> cases m.isRoot <;> cases m.expanded <;> cases otherShows l x a.id <;> simp
  rw [removalMisplaces, Bool.and_eq_false_imp, parentFree_eq_false, hp]
  constructor
  · intro h he m hm hx
    have hx := (Option.some.inj hx).symm
    exact (hfit hm hx).1 (h m (List.mem_filter.2 ⟨hm, halive m hm hx⟩)) he
  · intro h q hq
    by_cases hx : q.id = x
    · have hm := (List.mem_filter.1 hq).1
      exact (hfit hm hx).2 fun he => h he q hm (by rw [hx])
    · exact fits_filter hl hfits hbelow q hq hx

end Pin

end PatternQuery
