import PatternQuery.Proofs.Diagram.Identity
import PatternQuery.Proofs.Diagram.Variables

/-!
# No name twice

The search for a free number behind a stem has no bound of its own: it goes on while the names it
comes upon were given out. It ends all the same, and what `VariableNames.generate` gives out is what
it ends on (`VariableNames.gives_generate`). Names are given out once, and none of those that
statements use for variables of their own. So a node of the query never gets a name that another
node has had since the diagram was cleared the last time, not even if that node is gone
(`Diagram.GoesOn.var_ne`).
-/

namespace PatternQuery

namespace VariableNames

variable {issued : List String} {stem label name : String} {names names' : VariableNames}
  {fuel i j k : Nat}

/-! ## The search for a free number -/

/-- The search for a free name that is at number `k` ends at a number. -/
inductive Searches (issued : List String) (stem : String) : Nat → Nat → Prop where
  | free {k : Nat} (h : numbered stem k ∉ issued) : Searches issued stem k k
  | taken {j k : Nat} (h : numbered stem j ∈ issued) (hnext : Searches issued stem (j + 1) k) :
    Searches issued stem j k

theorem searches_firstFree (h : numbered stem (firstFree issued stem fuel k) ∉ issued) :
    Searches issued stem k (firstFree issued stem fuel k) := by
  induction fuel generalizing k with
  | zero => exact .free h
  | succ fuel ih =>
    rw [firstFree] at h ⊢
    by_cases hk : issued.contains (numbered stem k) = true
    · rw [if_pos hk] at h ⊢
      exact .taken (List.contains_iff_mem.1 hk) (ih h)
    · rw [if_neg hk] at h ⊢
      exact .free h

theorem Searches.unique (hi : Searches issued stem k i) (hj : Searches issued stem k j) :
    i = j := by
  induction hi with
  | free h =>
    cases hj with
    | free _ => rfl
    | taken h' _ => exact absurd h' h
  | taken h _ ih =>
    cases hj with
    | free h' => exact absurd h h'
    | taken _ hnext => exact ih hnext

/-! ## What is given out -/

/-- A name is given out for a label: the stem, if it was not in use and is free, otherwise the name
that the search ends on, which starts at the number to try next, or at 0. -/
inductive Gives (names : VariableNames) (label : String) : String → VariableNames → Prop where
  | bare (hnext : names.next.get? (VariableNames.stem label) = none)
    (hfree : VariableNames.stem label ∉ names.issued) :
    Gives names label (VariableNames.stem label)
      ⟨names.next.insert (VariableNames.stem label) 0,
        VariableNames.stem label :: names.issued⟩
  | again {j k : Nat} (hnext : names.next.get? (VariableNames.stem label) = some j)
    (hk : Searches names.issued (VariableNames.stem label) j k) :
    Gives names label (numbered (VariableNames.stem label) k)
      ⟨names.next.insert (VariableNames.stem label) (k + 1),
        numbered (VariableNames.stem label) k :: names.issued⟩
  | taken {k : Nat} (hnext : names.next.get? (VariableNames.stem label) = none)
    (htaken : VariableNames.stem label ∈ names.issued)
    (hk : Searches names.issued (VariableNames.stem label) 0 k) :
    Gives names label (numbered (VariableNames.stem label) k)
      ⟨names.next.insert (VariableNames.stem label) (k + 1),
        numbered (VariableNames.stem label) k :: names.issued⟩

theorem gives_generate (names : VariableNames) (label : String) :
    Gives names label (names.generate label).1 (names.generate label).2 := by
  have hsearch (k : Nat) := searches_firstFree
    (numbered_firstFree_notMem names.issued (VariableNames.stem label) k)
  unfold generate
  dsimp only
  cases hnext : names.next.get? (VariableNames.stem label) with
  | some j => exact .again hnext (hsearch j)
  | none =>
    by_cases htaken : names.issued.contains (VariableNames.stem label) = true
    · simp only [htaken, ↓reduceIte]
      exact .taken hnext (List.contains_iff_mem.1 htaken) (hsearch 0)
    · simp only [htaken, Bool.false_eq_true, ↓reduceIte]
      exact .bare hnext fun hmem => htaken (List.contains_iff_mem.2 hmem)

theorem Gives.eq_generate (h : Gives names label name names') :
    (name, names') = names.generate label := by
  have hsearch (k : Nat) := searches_firstFree
    (numbered_firstFree_notMem names.issued (VariableNames.stem label) k)
  unfold generate
  cases h with
  | bare hnext hfree => simp [hnext, hfree]
  | again hnext hk =>
    rw [hk.unique (hsearch _)]
    simp only [hnext]
    rfl
  | taken hnext htaken hk =>
    rw [hk.unique (hsearch _)]
    simp only [hnext, List.contains_iff_mem.2 htaken, ↓reduceIte]
    rfl

/-- Gives out names for labels in turn. -/
def generateAll (names : VariableNames) : List String → List String
  | [] => []
  | label :: rest => (names.generate label).1 :: (names.generate label).2.generateAll rest

theorem length_generateAll (names : VariableNames) (labels : List String) :
    (names.generateAll labels).length = labels.length := by
  induction labels generalizing names with
  | nil => rfl
  | cons label rest ih => rw [generateAll, List.length_cons, ih, List.length_cons]

theorem notMem_issued_of_generateAll {labels : List String} (h : name ∈ names.generateAll labels) :
    name ∉ names.issued := by
  induction labels generalizing names with
  | nil => exact absurd h List.not_mem_nil
  | cons label rest ih =>
    rcases List.mem_cons.1 h with rfl | h
    · exact generate_notMem names label
    · have hnew := ih h
      rw [generate_issued] at hnew
      exact fun hold => hnew (List.mem_cons_of_mem _ hold)

theorem nodup_generateAll (names : VariableNames) (labels : List String) :
    (names.generateAll labels).Nodup := by
  induction labels generalizing names with
  | nil => exact List.nodup_nil
  | cons label rest ih =>
    refine List.nodup_cons.2 ⟨fun hmem => ?_, ih _⟩
    apply notMem_issued_of_generateAll hmem
    rw [generate_issued]
    exact List.mem_cons_self

theorem isReserved_of_mem_generateAll {labels : List String}
    (h : name ∈ names.generateAll labels) : isReserved name = false := by
  induction labels generalizing names with
  | nil => exact absurd h List.not_mem_nil
  | cons label rest ih =>
    rcases List.mem_cons.1 h with rfl | h
    · exact isReserved_generate names label
    · exact ih h

theorem isReserved_append {digits : String} (h : digits.toList.all Char.isDigit = true) :
    isReserved ("r" ++ digits) = true := by
  unfold isReserved
  rw [String.toList_append]
  exact h

/-- What is not reserved is none of the variables that statements bring along. -/
theorem ne_of_not_reserved (h : isReserved name = false) :
    name ≠ "x" ∧
      ∀ digits : String, digits.toList.all Char.isDigit = true → name ≠ "r" ++ digits := by
  constructor
  · rintro rfl
    exact absurd h (by decide)
  · rintro digits hdigits rfl
    rw [isReserved_append hdigits] at h
    exact absurd h (by decide)

/-! ## Names are not empty -/

theorem stem_ne_empty (label : String) : VariableNames.stem label ≠ "" := by
  have hreserved (base : String) (h : base ≠ "") :
      (if isReserved base then base ++ "_" else base) ≠ "" := by
    split
    · intro e
      have := congrArg String.toList e
      simp at this
    · exact h
  unfold VariableNames.stem
  apply hreserved
  split
  · decide
  · rename_i h
    rwa [Ne, ← String.isEmpty_iff]

theorem numbered_ne_empty (stem : String) (k : Nat) : numbered stem k ≠ "" := by
  obtain ⟨c, cs, hk, -⟩ := exists_toList_toString k
  intro h
  have hlist := congrArg String.toList h
  rw [numbered, String.toList_append, hk] at hlist
  simp at hlist

theorem generate_ne_empty (names : VariableNames) (label : String) :
    (names.generate label).1 ≠ "" := by
  rcases generate_cases names label with ⟨k, h⟩ | ⟨-, hname, -⟩
  · obtain ⟨i, hname, -⟩ := generateNumbered_fst names (VariableNames.stem label) k
    rw [h, hname]
    exact numbered_ne_empty _ i
  · rw [hname]
    exact stem_ne_empty label

end VariableNames

namespace Diagram

/-- `d'` comes from `d` by operations none of which clears the diagram. -/
inductive GoesOn (p : Provider) (d : Diagram) : Diagram → Prop where
  | refl : GoesOn p d d
  | step {d' : Diagram} (h : GoesOn p d d') (o : Operation) (ho : o.clears d' = false) :
    GoesOn p d (o.run p d').2

/-- What `d'` has of the names of `d`, besides its nodes: a new node of the query has a variable
that was not given out in `d`. -/
structure Recalls (d d' : Diagram) : Prop extends d.Continues d' where
  issued : d.names.issued ⊆ d'.names.issued
  new : ∀ m ∈ d'.nodes, d.nextNode ≤ m.id.number → m.kind ≠ .value → m.var ∉ d.names.issued

variable {p : Provider} {d d' d'' : Diagram} {m n : Node}

theorem Recalls.refl (h : d.Numbered) : d.Recalls d where
  toContinues := .refl d
  issued := List.Subset.refl _
  new n hn hle := by
    have := h.bounded n hn
    omega

theorem Recalls.trans (h : d.Recalls d') (h' : d'.Recalls d'') : d.Recalls d'' where
  toContinues := h.toContinues.trans h'.toContinues
  issued := List.Subset.trans h.issued h'.issued
  new m hm hle hk := by
    by_cases hlt : m.id.number < d'.nextNode
    · obtain ⟨m', hm', e'⟩ := h'.origin m hm hlt
      rw [Node.var_of_origin e']
      refine h.new m' hm' ?_ ?_
      · rwa [← Node.id_of_origin e']
      · rwa [← Node.kind_of_origin e']
    · intro hmem
      exact h'.new m hm (Nat.le_of_not_lt hlt) hk (h.issued hmem)

/-! ## Strokes -/

/-- Nothing comes but what was there. -/
theorem Within.recalls (hw : d'.Within d) (hnext : d.nextNode ≤ d'.nextNode)
    (hnames : d'.names = d.names) (hd : d.Numbered) : d.Recalls d' where
  toContinues := .of_within hw hnext
  issued := by
    rw [hnames]
    exact List.Subset.refl _
  new m hm hle := by
    obtain ⟨n, hn, e⟩ := hw m hm
    have := hd.bounded n hn
    rw [Node.id_of_origin e] at hle
    omega

/-- A node comes under the next number, with a new name if it is a node of the query. -/
theorem recalls_append (hnext : d.nextNode ≤ d'.nextNode)
    (hissued : d.names.issued ⊆ d'.names.issued) (hd : d.Numbered)
    (hnodes : d'.nodes = d.nodes ++ [n]) (hid : n.id.number = d.nextNode)
    (hnew : n.kind ≠ .value → n.var ∉ d.names.issued) : d.Recalls d' where
  toContinues := continues_append hid hnodes hnext
  issued := hissued
  new m hm hle hk := by
    rw [hnodes] at hm
    rcases List.mem_append.1 hm with hm | hm
    · have := hd.bounded m hm
      omega
    · rw [List.mem_singleton.1 hm] at hk ⊢
      exact hnew hk

theorem issued_subset_generate (names : VariableNames) (label : String) :
    names.issued ⊆ (names.generate label).2.issued := by
  rw [VariableNames.generate_issued]
  exact List.subset_cons_self _ _

theorem Numbered.recalls_stroke (h : d.Numbered) (hs : Stroke p d d') : d.Recalls d' := by
  have hd := Within.refl d
  cases hs with
  | modify id f hf => exact (hd.modify hf).recalls (Nat.le_refl _) rfl h
  | hide id => exact (hd.keep _ _).recalls (Nat.le_refl _) rfl h
  | cut id => exact (hd.removeSubtree id).recalls (Nat.le_refl _) rfl h
  | addRoot label anchor _ =>
    exact recalls_append (Nat.le_succ _) (issued_subset_generate _ label) h rfl rfl
      fun _ => VariableNames.generate_notMem d.names label
  | attachChild id s kind _ _ =>
    exact recalls_append (n := childNode p id s kind d) (Nat.le_succ _)
      (issued_subset_generate _ s.target) h rfl rfl
      fun _ => VariableNames.generate_notMem d.names s.target
  | addValueNode id label row _ =>
    exact recalls_append (n := shownNode id label row d) (Nat.le_succ _) (List.Subset.refl _) h rfl
      rfl fun hk => absurd rfl hk
  | setAside k => exact Within.recalls hd (Nat.le_add_right _ _) rfl h

theorem Linked.recalls_strokes (h : d.Linked) (hs : Strokes p d d') : d.Recalls d' := by
  induction hs with
  | refl => exact .refl h.toNumbered
  | tail hs hlast ih => exact ih.trans ((h.strokes hs).toNumbered.recalls_stroke hlast)

theorem Linked.recalls_run (h : d.Linked) {o : Operation} (ho : o.clears d = false) :
    d.Recalls (o.run p d).2 := by
  have hs := h.strokes_run (p := p) o
  unfold Operation.start at hs
  rw [ho] at hs
  exact h.recalls_strokes hs

theorem GoesOn.linked (hg : GoesOn p d d') (h : d.Linked) : d'.Linked := by
  induction hg with
  | refl => exact h
  | step _ o _ ih => exact ih.run o

theorem GoesOn.recalls (hg : GoesOn p d d') (h : d.Linked) : d.Recalls d' := by
  induction hg with
  | refl => exact .refl h.toNumbered
  | step hg o ho ih => exact ih.trans ((hg.linked h).recalls_run ho)

theorem GoesOn.reachable (hg : GoesOn p d d') (h : d.ReachableBy p fun _ _ => True) :
    d'.ReachableBy p fun _ _ => True := by
  induction hg with
  | refl => exact h
  | step _ o _ ih => exact .step ih o trivial

/-! ## Candidate values -/

/-- Candidate values have no variable, and no variable is empty. -/
structure NamesQueryOnly (d : Diagram) : Prop where
  value : ∀ n ∈ d.nodes, n.kind = .value → n.var = ""
  issued : ∀ name ∈ d.names.issued, name ≠ ""

theorem NamesQueryOnly.clear (d : Diagram) : d.clear.NamesQueryOnly := by
  constructor <;> simp [Diagram.clear]

theorem NamesQueryOnly.of_within (h : d.NamesQueryOnly) (hw : d'.Within d)
    (hnames : d'.names = d.names) : d'.NamesQueryOnly where
  value m hm hk := by
    obtain ⟨n, hn, e⟩ := hw m hm
    rw [Node.kind_of_origin e] at hk
    rw [Node.var_of_origin e]
    exact h.value n hn hk
  issued := by
    rw [hnames]
    exact h.issued

/-- A node comes with a new name, or it is a candidate value. -/
theorem NamesQueryOnly.append (h : d.NamesQueryOnly) (hnodes : d'.nodes = d.nodes ++ [n])
    (hvalue : n.kind = .value → n.var = "") (hissued : ∀ name ∈ d'.names.issued, name ≠ "") :
    d'.NamesQueryOnly where
  value m hm hk := by
    rw [hnodes] at hm
    rcases List.mem_append.1 hm with hm | hm
    · exact h.value m hm hk
    · rw [List.mem_singleton.1 hm] at hk ⊢
      exact hvalue hk
  issued := hissued

theorem NamesQueryOnly.generate (h : d.NamesQueryOnly) (label : String) :
    ∀ name ∈ (d.names.generate label).2.issued, name ≠ "" := by
  intro name hname
  rw [VariableNames.generate_issued] at hname
  rcases List.mem_cons.1 hname with rfl | hname
  · exact VariableNames.generate_ne_empty d.names label
  · exact h.issued name hname

theorem NamesQueryOnly.stroke (h : d.NamesQueryOnly) (hs : Stroke p d d') :
    d'.NamesQueryOnly := by
  have hd := Within.refl d
  cases hs with
  | modify id f hf => exact h.of_within (hd.modify hf) rfl
  | hide id => exact h.of_within (hd.keep _ _) rfl
  | cut id => exact h.of_within (hd.removeSubtree id) rfl
  | addRoot label anchor _ => exact h.append rfl (by simp) (h.generate label)
  | attachChild id s kind hk _ =>
    refine h.append (n := childNode p id s kind d) rfl ?_ (h.generate s.target)
    rcases hk with rfl | rfl <;> simp [childNode]
  | addValueNode id label row _ =>
    exact h.append (n := shownNode id label row d) rfl (fun _ => rfl) h.issued
  | setAside k => exact h.of_within hd rfl

theorem ReachableBy.namesQueryOnly {admits : Operation → Diagram → Prop}
    (h : d.ReachableBy p admits) : d.NamesQueryOnly :=
  h.of_strokes (fun pageSize => .clear (.new pageSize)) (fun d _ => .clear d)
    fun _ _ h hs => h.stroke hs

/-! ## Names over time -/

/-- A node of the query has another name than any candidate value. -/
theorem NamesQueryOnly.var_ne (h : d.NamesQueryOnly) (hvar : m.var ∈ d.names.issued)
    (hn : n.var = "") : m.var ≠ n.var := by
  rw [hn]
  exact h.issued m.var hvar

/-- A node has its name for good, and no node of the query gets one that another node has had. -/
theorem GoesOn.var_ne (hg : GoesOn p d d') (h : d.ReachableBy p fun _ _ => True)
    (hn : n ∈ d.nodes) (hm : m ∈ d'.nodes) (hne : m.id ≠ n.id)
    (hk : m.kind ≠ .value ∨ n.kind ≠ .value) : m.var ≠ n.var := by
  have hd := h.named
  have hd' := (hg.reachable h).named
  have hquery := (hg.reachable h).namesQueryOnly
  have hrecalls := hg.recalls h.linked
  by_cases hmk : m.kind = .value
  · -- then `n` is a node of the query
    have hnk : n.kind ≠ .value := hk.resolve_left fun hno => hno hmk
    refine (hquery.var_ne (m := n) ?_ (hquery.value m hm hmk)).symm
    exact hrecalls.issued (hd.issued n hn hnk)
  · by_cases hnk : n.kind = .value
    · exact hquery.var_ne (hd'.issued m hm hmk) (h.namesQueryOnly.value n hn hnk)
    · intro e
      by_cases hlt : m.id.number < d.nextNode
      · obtain ⟨m', hm', e'⟩ := hrecalls.origin m hm hlt
        rw [Node.kind_of_origin e'] at hmk
        rw [Node.var_of_origin e'] at e
        rw [Node.id_of_origin e', hd.eq_of_var_eq hm' hn hmk hnk e] at hne
        exact hne rfl
      · apply hrecalls.new m hm (Nat.le_of_not_lt hlt) hmk
        rw [e]
        exact hd.issued n hn hnk

theorem GoesOn.var_eq (hg : GoesOn p d d') (h : d.ReachableBy p fun _ _ => True)
    (hn : n ∈ d.nodes) (hm : m ∈ d'.nodes) (he : m.id = n.id) : m.var = n.var := by
  have hlt := h.linked.bounded n hn
  rw [← he] at hlt
  obtain ⟨m', hm', e'⟩ := (hg.recalls h.linked).origin m hm hlt
  rw [Node.var_of_origin e', h.linked.eq_of_id_eq hm' hn ((Node.id_of_origin e').symm.trans he)]

/-- The search for a name ends, whatever was given out, and on the name that is given out. The names
for any labels, given out in turn, are all different, and neither `x` nor `r` nor `r` with digits
behind it. While a diagram goes on without being cleared, whatever the arguments of operations are,
a node of the query has another name than any other node has, that is there or was there. -/
theorem names_of_reachable :
    (∀ (names : VariableNames) (label name : String) (names' : VariableNames),
      names.Gives label name names' ↔ names.generate label = (name, names')) ∧
    (∀ (names : VariableNames) (labels : List String),
      (names.generateAll labels).length = labels.length ∧ (names.generateAll labels).Nodup ∧
        ∀ name ∈ names.generateAll labels, name ∉ names.issued ∧ name ≠ "x" ∧
          ∀ digits : String, digits.toList.all Char.isDigit = true → name ≠ "r" ++ digits) ∧
    ∀ (p : Provider) (d d' : Diagram), (d.ReachableBy p fun _ _ => True) → GoesOn p d d' →
      ∀ n ∈ d.nodes, ∀ m ∈ d'.nodes, (m.id = n.id → m.var = n.var) ∧
        (m.id ≠ n.id → m.kind ≠ .value ∨ n.kind ≠ .value → m.var ≠ n.var) := by
  refine ⟨fun names label name names' => ⟨fun h => h.eq_generate.symm, fun h => ?_⟩,
    fun names labels => ⟨?_, VariableNames.nodup_generateAll names labels, fun name hname => ?_⟩,
    fun p d d' h hg n hn m hm => ⟨hg.var_eq h hn hm, hg.var_ne h hn hm⟩⟩
  · have hgives := VariableNames.gives_generate names label
    rwa [h] at hgives
  · exact VariableNames.length_generateAll names labels
  · exact ⟨VariableNames.notMem_issued_of_generateAll hname,
      VariableNames.ne_of_not_reserved (VariableNames.isReserved_of_mem_generateAll hname)⟩

/-- A second friend, who comes after the first one is gone, gets a name of its own. -/
theorem names_of_second_friend :
    let d := Operation.runAll .plain [.addRoot "Person" none,
      .setRelationships ⟨0⟩ [{ label := "KNOWS", target := "Person", count := 1 }],
      .expandRelationship ⟨0⟩ 0] (.new 10)
    let d' := Operation.runAll .plain [.removeNode ⟨1⟩, .expandRelationship ⟨0⟩ 0] d
    d.nodes.map Node.var = ["person", "person0"] ∧ d'.nodes.map Node.var = ["person", "person1"] ∧
      ∀ n ∈ d.nodes, ∀ m ∈ d'.nodes, m.id ≠ n.id → m.var ≠ n.var := by
  intro d d'
  have hd : d.ReachableBy .plain fun _ _ => True := ReachableBy.runAll (.new 10) _
  have hg : GoesOn .plain d d' :=
    .step (.step .refl (.removeNode ⟨1⟩) (by decide +kernel)) (.expandRelationship ⟨0⟩ 0) rfl
  have hquery : ∀ n ∈ d.nodes, n.kind ≠ .value := by decide +kernel
  refine ⟨by decide +kernel, by decide +kernel, fun n hn m hm hne => ?_⟩
  exact (names_of_reachable.2.2 .plain d d' hd hg n hn m hm).2 hne (.inr (hquery n hn))

end Diagram

end PatternQuery
