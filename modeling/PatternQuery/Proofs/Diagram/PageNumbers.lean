import Mathlib.Algebra.Group.Nat.Defs
import PatternQuery.Proofs.Diagram.Candidates
import PatternQuery.Proofs.Diagram.Resets

/-!
# Page numbers in machine words

Pages are counted and multiplied with the page size, which may be any number of 64 bits. A page
after the first one is only shown of rows that reach up to it (`Node.HasPage`), so that page numbers
stay small where the page size is large: no operation computes anything that 64 bits do not hold
(`Diagram.computesInWords_of_reachable`).
-/

namespace PatternQuery

/-! ## Machine words -/

namespace Word

/-- The number as a word, if 64 bits hold it. -/
def ofNat? (k : Nat) : Option Nat := if k < 2 ^ 64 then some k else none

def add? (a b : Nat) : Option Nat := ofNat? (a + b)

def mul? (a b : Nat) : Option Nat := ofNat? (a * b)

/-- There are no words below zero. -/
def sub? (a b : Nat) : Option Nat := if b ≤ a then some (a - b) else none

variable {a b : Nat}

theorem add?_eq (h : a + b < 2 ^ 64) : add? a b = some (a + b) := if_pos h

theorem mul?_eq (h : a * b < 2 ^ 64) : mul? a b = some (a * b) := if_pos h

theorem sub?_eq (h : b ≤ a) : sub? a b = some (a - b) := if_pos h

/-- The second page of the largest size is out of range. -/
example : mul? 2 (2 ^ 64 - 1) = none := by decide

end Word

/-! ## Operations in words

What the operations of a diagram compute with page numbers, step by step. There is no result if a
step leaves the range of words. -/

namespace Diagram

def pageRows? (pageSize : Nat) (n : Node) (rows : List Row) : Option (List Row) := do
  let before ← Word.sub? (max n.page 1) 1
  let start ← Word.mul? before pageSize
  return (rows.drop start).take pageSize

def expandValues? (id : NodeId) (d : Diagram) : Option (Except GraphError Nat × Diagram) :=
  match d.node? id with
  | none => some (.error (.nodeNotFound id), d)
  | some n =>
    let d := (d.collapseValues id).2
    match n.data with
    | none => some (.ok 0, d)
    | some rows => do
      let shown ← pageRows? d.pageSize n rows
      let d := shown.foldl (addValueNode id n.label) d
      let d := d.modify id fun n => { n with fixed := true, expanded := true }
      return (.ok shown.length, d.setPinned n.parent true)

def hasNextPage? (d : Diagram) (id : NodeId) : Option Bool :=
  match d.node? id with
  | none => some false
  | some n =>
    match n.data with
    | none => some false
    | some rows => do
      let reached ← Word.mul? n.page d.pageSize
      return decide (reached < rows.length)

def turnPage? (id : NodeId) (turn : Nat → Option Nat) (d : Diagram) :
    Option (Except GraphError Bool × Diagram) :=
  match d.node? id with
  | none => some (.error (.nodeNotFound id), d)
  | some n => do
    let page ← turn n.page
    match ← (d.modify id fun n => { n with page }).expandValues? id with
    | (.ok _, d) => return (.ok true, d)
    | (.error e, d) => return (.error e, d)

def nextPage? (id : NodeId) (d : Diagram) : Option (Except GraphError Bool × Diagram) := do
  if ← d.hasNextPage? id then d.turnPage? id (Word.add? · 1) else return (.ok false, d)

def previousPage? (id : NodeId) (d : Diagram) : Option (Except GraphError Bool × Diagram) :=
  if d.hasPreviousPage id then d.turnPage? id (Word.sub? · 1) else some (.ok false, d)

end Diagram

/-- Carries out an operation in words. -/
def Operation.run? (p : Provider) (o : Operation) (d : Diagram) :
    Option (Except GraphError Unit × Diagram) :=
  match o with
  | expandValues id => (d.expandValues? id).map outcome
  | nextPage id => (d.nextPage? id).map outcome
  | previousPage id => (d.previousPage? id).map outcome
  | o => some (o.run p d)

/-! ## Pages that there are -/

/-- The page of a node is the first one, or rows are stored of which some come after the pages
before it. -/
structure Node.HasPage (n : Node) (pageSize : Nat) : Prop where
  one_le : 1 ≤ n.page
  reaches : n.page = 1 ∨ ∃ rows, n.data = some rows ∧ (n.page - 1) * pageSize < rows.length

variable {p : Provider} {d d' : Diagram} {id : NodeId} {n n' : Node} {pageSize : Nat}

theorem Node.hasPage_of_first (h : n.page = 1) : n.HasPage pageSize :=
  ⟨Nat.le_of_eq h.symm, .inl h⟩

theorem Node.HasPage.congr (h : n.HasPage pageSize) (hdata : n'.data = n.data)
    (hpage : n'.page = n.page) : n'.HasPage pageSize := by
  obtain ⟨hone, hreaches⟩ := h
  rw [← hdata, ← hpage] at hreaches
  exact ⟨by rwa [hpage], hreaches⟩

/-- A page before one that there is. -/
theorem Node.HasPage.previous (h : n.HasPage pageSize) (hpage : 1 < n.page) :
    { n with page := n.page - 1 }.HasPage pageSize := by
  refine ⟨by dsimp only; omega, .inr ?_⟩
  obtain ⟨rows, hrows, hreaches⟩ := h.reaches.resolve_left (by omega)
  refine ⟨rows, hrows, Nat.lt_of_le_of_lt (Nat.mul_le_mul_right pageSize ?_) hreaches⟩
  dsimp only
  omega

namespace Diagram

/-- Nodes show pages that there are. -/
def HasPages (d : Diagram) : Prop := ∀ n ∈ d.nodes, n.HasPage d.pageSize

theorem hasPages_new (pageSize : Nat) : (Diagram.new pageSize).HasPages := by
  simp [HasPages, Diagram.new]

theorem HasPages.of_traces (h : d.HasPages) (ht : d.Traces d') : d'.HasPages := by
  intro n' hn'
  rw [ht.pageSize]
  rcases ht.nodes n' hn' with ⟨n, hn, hkeeps⟩ | hfresh
  · exact (h n hn).congr hkeeps.data hkeeps.page
  · exact Node.hasPage_of_first hfresh.page

theorem HasPages.modify (h : d.HasPages) {f : Node → Node}
    (hf : ∀ n ∈ d.nodes, n.id = id → (f n).HasPage d.pageSize) : (d.modify id f).HasPages := by
  intro n' hn'
  obtain ⟨n, hn, rfl⟩ := mem_modify.1 hn'
  split
  · exact hf n hn ‹_›
  · exact h n hn

/-- New candidate values store nothing themselves and have the first page only. -/
theorem HasPages.addValueNodes (h : d.HasPages) (id : NodeId) (label : String) (rows : List Row) :
    (rows.foldl (addValueNode id label) d).HasPages := by
  intro n hn
  rw [addValueNodes_pageSize]
  rw [addValueNodes_nodes] at hn
  rcases List.mem_append.1 hn with hn | hn
  · exact h n hn
  · obtain ⟨i, hi, rfl⟩ := List.mem_mapIdx.1 hn
    exact Node.hasPage_of_first rfl

theorem HasPages.expandValues (h : d.HasPages) (id : NodeId) :
    (d.expandValues id).2.HasPages := by
  have hhidden := h.of_traces ((Traces.refl d).collapseValues id)
  cases hn : d.node? id with
  | none => rwa [expandValues_of_none (by simp [hn])]
  | some n =>
    cases hr : n.data with
    | none => rwa [expandValues_of_none (by simp [hn, hr])]
    | some rows =>
      rw [expandValues_eq hn hr]
      exact (hhidden.addValueNodes id n.label _).of_traces (traces_markExpanded id n.parent _)

theorem HasPages.selectValue (h : d.HasPages) (id : NodeId) : (d.selectValue id).2.HasPages := by
  unfold Diagram.selectValue
  split
  · exact h
  · split
    · split
      · exact h
      · refine HasPages.of_traces ?_ ((Traces.refl _).collapseValues _)
        exact h.modify fun n hn _ => (h n hn).congr rfl rfl
    · exact h

/-- There is a next page of rows that go on behind this one. -/
theorem exists_of_hasNextPage (h : d.hasNextPage id = true) : ∃ n rows,
    d.node? id = some n ∧ n.data = some rows ∧ n.page * d.pageSize < rows.length := by
  unfold hasNextPage at h
  split at h
  · cases h
  · rename_i n hn
    split at h
    · cases h
    · exact ⟨n, _, hn, ‹_›, of_decide_eq_true h⟩

theorem Numbered.hasPages_nextPage (hd : d.Numbered) (h : d.HasPages) (id : NodeId) :
    (d.nextPage id).2.HasPages := by
  unfold Diagram.nextPage
  split
  · rename_i hnext
    obtain ⟨n, rows, hn, hrows, hreaches⟩ := exists_of_hasNextPage hnext
    rw [turnPage_snd]
    refine (h.modify fun m hm hid => ?_).expandValues id
    obtain rfl := hd.eq_of_node? hn hm hid
    exact ⟨Nat.le_add_left 1 m.page, .inr ⟨rows, hrows, hreaches⟩⟩
  · exact h

theorem Numbered.hasPages_previousPage (hd : d.Numbered) (h : d.HasPages) (id : NodeId) :
    (d.previousPage id).2.HasPages := by
  unfold Diagram.previousPage
  split
  · rename_i hprevious
    rw [turnPage_snd]
    refine (h.modify fun n hn hid => (h n hn).previous ?_).expandValues id
    simpa only [hasPreviousPage, ← hid, hd.node?_of_mem hn, decide_eq_true_eq] using hprevious
  · exact h

theorem Numbered.hasPages_run (hd : d.Numbered) (h : d.HasPages) (p : Provider) (o : Operation) :
    (o.run p d).2.HasPages := by
  cases o with
  | addRoot label anchor => exact h.of_traces (traces_addRoot p label anchor d)
  | addSchema s anchor => exact h.of_traces (traces_addSchema p s anchor d)
  | clear => exact h.of_traces (traces_clear d)
  | expandRelationship id index => exact h.of_traces (traces_expandRelationship p id index d)
  | setRelationships id segments => exact h.of_traces (traces_setRelationships id segments d)
  | setData id rows =>
    simp only [Operation.run, Operation.outcome, Diagram.setData]
    split
    · exact h
    · exact h.modify fun _ _ _ => Node.hasPage_of_first rfl
  | expandValues id => exact h.expandValues id
  | collapseValues id => exact h.of_traces ((Traces.refl d).collapseValues id)
  | selectValue id => exact h.selectValue id
  | removeValue id value => exact h.of_traces (hd.traces_removeValue id value)
  | negate id => exact h.of_traces (traces_negate id d)
  | removeNode id => exact h.of_traces (traces_removeNode id d)
  | nextPage id => exact hd.hasPages_nextPage h id
  | previousPage id => exact hd.hasPages_previousPage h id

theorem ReachableBy.hasPages {admits : Operation → Diagram → Prop} (h : d.ReachableBy p admits) :
    d.HasPages := by
  induction h with
  | new pageSize => exact hasPages_new pageSize
  | step h o _ ih => exact h.linked.toNumbered.hasPages_run ih p o

/-! ## What is computed -/

/-- There is room in 64 bits: the page size is a word, and what is stored is short. -/
structure Fits (d : Diagram) : Prop where
  pageSize : d.pageSize < 2 ^ 64
  data : ∀ n ∈ d.nodes, ∀ rows, n.data = some rows → rows.length < 2 ^ 63

/-- Where a page ends fits. After the first page the page size is small. -/
theorem Fits.reached_lt (hf : d.Fits) (h : d.HasPages) (hn : n ∈ d.nodes) :
    n.page * d.pageSize < 2 ^ 64 := by
  obtain ⟨hone, hfirst | ⟨rows, hrows, hreaches⟩⟩ := h n hn
  · rw [hfirst, Nat.one_mul]
    exact hf.pageSize
  · obtain ⟨k, hk⟩ := Nat.exists_eq_add_of_le' hone
    rw [hk, Nat.add_sub_cancel] at hreaches
    rcases Nat.eq_zero_or_pos k with rfl | hpos
    · rw [hk, Nat.zero_add, Nat.one_mul]
      exact hf.pageSize
    · have hshort := hf.data n hn rows hrows
      have hsize : d.pageSize ≤ k * d.pageSize := Nat.le_mul_of_pos_left _ hpos
      rw [hk, Nat.add_one_mul]
      omega

theorem Fits.start_lt (hf : d.Fits) (h : d.HasPages) (hn : n ∈ d.nodes) :
    (n.page - 1) * d.pageSize < 2 ^ 64 :=
  Nat.lt_of_le_of_lt (Nat.mul_le_mul_right _ (Nat.sub_le _ _)) (hf.reached_lt h hn)

theorem pageRows?_eq {rows : List Row} (hone : 1 ≤ n.page)
    (h : (n.page - 1) * pageSize < 2 ^ 64) :
    pageRows? pageSize n rows = some (pageRows pageSize n rows) := by
  simp only [pageRows?, pageRows, Nat.max_eq_left hone, Word.sub?_eq hone, Word.mul?_eq h,
    Option.bind_eq_bind, Option.bind_some, Option.pure_def]

/-- To show a page is to compute where it starts. -/
theorem expandValues?_eq (h : ∀ n, d.node? id = some n →
      1 ≤ n.page ∧ (n.page - 1) * d.pageSize < 2 ^ 64) :
    d.expandValues? id = some (d.expandValues id) := by
  unfold expandValues? Diagram.expandValues
  cases hn : d.node? id with
  | none => rfl
  | some n =>
    cases hr : n.data with
    | none => simp only [hr]
    | some rows =>
      obtain ⟨hone, hstart⟩ := h n hn
      rw [← ((Traces.refl d).collapseValues id).pageSize] at hstart
      simp only [hr, pageRows?_eq hone hstart, Option.bind_eq_bind, Option.bind_some,
        Option.pure_def]

theorem Fits.hasNextPage?_eq (hf : d.Fits) (h : d.HasPages) (id : NodeId) :
    d.hasNextPage? id = some (d.hasNextPage id) := by
  unfold hasNextPage? Diagram.hasNextPage
  cases hn : d.node? id with
  | none => rfl
  | some n =>
    cases hr : n.data with
    | none => simp only [hr]
    | some rows =>
      simp only [hr, Word.mul?_eq (hf.reached_lt h (mem_of_node? hn)), Option.bind_eq_bind,
        Option.bind_some, Option.pure_def]

/-- To turn a page is to compute its number and where it starts. -/
theorem Numbered.turnPage?_eq (hd : d.Numbered) (hn : d.node? id = some n) {turn : Nat → Option Nat}
    {turned : Nat → Nat} (hturn : turn n.page = some (turned n.page)) (hone : 1 ≤ turned n.page)
    (hstart : (turned n.page - 1) * d.pageSize < 2 ^ 64) :
    d.turnPage? id turn = some (d.turnPage id turned) := by
  have hmodify : (d.modify id fun m => { m with page := turned n.page }) =
      d.modify id fun m => { m with page := turned m.page } := hd.modify_congr hn rfl
  have hexpand : (d.modify id fun m => { m with page := turned m.page }).expandValues? id =
      some ((d.modify id fun m => { m with page := turned m.page }).expandValues id) := by
    refine expandValues?_eq fun m hm => ?_
    rw [node?_modify_of_some (f := fun m => { m with page := turned m.page }) (fun _ => rfl) hn,
      if_pos (id_of_node? hn)] at hm
    obtain rfl := Option.some.inj hm
    exact ⟨hone, hstart⟩
  unfold turnPage? Diagram.turnPage
  simp only [hn, hturn, hmodify, hexpand, Option.bind_eq_bind, Option.bind_some]
  generalize (d.modify id fun m => { m with page := turned m.page }).expandValues id = r
  obtain ⟨e | shown, d'⟩ := r <;> rfl

theorem Fits.nextPage?_eq (hf : d.Fits) (hd : d.Numbered) (h : d.HasPages) (id : NodeId) :
    d.nextPage? id = some (d.nextPage id) := by
  unfold nextPage? Diagram.nextPage
  simp only [hf.hasNextPage?_eq h id, Option.bind_eq_bind, Option.bind_some]
  split
  · rename_i hnext
    obtain ⟨n, rows, hn, hrows, hreaches⟩ := exists_of_hasNextPage hnext
    have hmem := mem_of_node? hn
    have hpage : n.page ≤ n.page * d.pageSize := Nat.le_mul_of_pos_right _ d.pageSize_pos
    have hshort := hf.data n hmem rows hrows
    refine hd.turnPage?_eq hn (Word.add?_eq (by omega)) (Nat.le_add_left 1 _) ?_
    exact hf.reached_lt h hmem
  · rfl

theorem Fits.previousPage?_eq (hf : d.Fits) (hd : d.Numbered) (h : d.HasPages) (id : NodeId) :
    d.previousPage? id = some (d.previousPage id) := by
  unfold previousPage? Diagram.previousPage
  split
  · rename_i hprevious
    obtain ⟨n, hn, hpage⟩ : ∃ n, d.node? id = some n ∧ 1 < n.page := by
      unfold hasPreviousPage at hprevious
      split at hprevious
      · cases hprevious
      · exact ⟨_, ‹_›, of_decide_eq_true hprevious⟩
    have hmem := mem_of_node? hn
    refine hd.turnPage?_eq hn (Word.sub?_eq (Nat.le_of_lt hpage)) (by omega) ?_
    exact Nat.lt_of_le_of_lt (Nat.mul_le_mul_right _ (Nat.sub_le _ _)) (hf.start_lt h hmem)
  · rfl

theorem Fits.run?_eq (hf : d.Fits) (hd : d.Numbered) (h : d.HasPages) (p : Provider)
    (o : Operation) : o.run? p d = some (o.run p d) := by
  cases o with
  | expandValues id =>
    have hexpand : d.expandValues? id = some (d.expandValues id) := expandValues?_eq fun n hn =>
      ⟨(h n (mem_of_node? hn)).one_le, hf.start_lt h (mem_of_node? hn)⟩
    rw [Operation.run?, hexpand]
    rfl
  | nextPage id =>
    rw [Operation.run?, hf.nextPage?_eq hd h id]
    rfl
  | previousPage id =>
    rw [Operation.run?, hf.previousPage?_eq hd h id]
    rfl
  | _ => rfl

/-- All page numbers and positions are in the range of words. -/
structure ComputesInWords (p : Provider) (d : Diagram) : Prop where
  reached : ∀ n ∈ d.nodes, n.page * d.pageSize < 2 ^ 64
  start : ∀ n ∈ d.nodes, (n.page - 1) * d.pageSize < 2 ^ 64
  hasNextPage : ∀ id, d.hasNextPage? id = some (d.hasNextPage id)
  run : ∀ o : Operation, o.run? p d = some (o.run p d)

/-- Whatever the page size is and whatever operations there were, nodes show pages that there are,
and what is computed with them in words is what the operations say. -/
theorem computesInWords_of_reachable (h : d.ReachableBy p fun _ _ => True)
    (hsize : d.pageSize < 2 ^ 64)
    (hdata : ∀ n ∈ d.nodes, ∀ rows, n.data = some rows → rows.length < 2 ^ 63) :
    d.HasPages ∧ d.ComputesInWords p := by
  have hpages := h.hasPages
  have hf : d.Fits := ⟨hsize, hdata⟩
  exact ⟨hpages, fun n hn => hf.reached_lt hpages hn, fun n hn => hf.start_lt hpages hn,
    hf.hasNextPage?_eq hpages, hf.run?_eq h.linked.toNumbered hpages p⟩

/-- The second page of three candidates by two, and the first one of the largest page size. -/
theorem computesInWords_of_three :
    let ops : List Operation := [.addRoot "Person" none,
      .setData ⟨0⟩ [Table.empty, Table.empty, Table.empty], .expandValues ⟨0⟩, .nextPage ⟨0⟩]
    let d := Operation.runAll .plain ops (.new 2)
    let e := Operation.runAll .plain ops (.new (2 ^ 64 - 1))
    (d.nodes.map Node.page = [2, 1] ∧ d.HasPages ∧ d.ComputesInWords .plain) ∧
      e.pageSize = 2 ^ 64 - 1 ∧ e.nodes.map Node.page = [1, 1, 1, 1] ∧ e.HasPages ∧
        e.ComputesInWords .plain := by
  intro ops d e
  have hshort {d : Diagram}
      (h : d.nodes.all fun n => n.data.all fun rows => decide (rows.length < 2 ^ 63)) :
      ∀ n ∈ d.nodes, ∀ rows, n.data = some rows → rows.length < 2 ^ 63 := by
    intro n hn rows hrows
    have hn := List.all_eq_true.1 h n hn
    rw [hrows] at hn
    exact of_decide_eq_true hn
  refine ⟨⟨by decide +kernel, ?_⟩, by decide +kernel, by decide +kernel, ?_⟩
  · exact computesInWords_of_reachable (.runAll (.new _) ops) (by decide +kernel)
      (hshort (by decide +kernel))
  · exact computesInWords_of_reachable (.runAll (.new _) ops) (by decide +kernel)
      (hshort (by decide +kernel))

end Diagram

end PatternQuery
