import Mathlib.Data.List.Nodup
import Mathlib.Data.List.Pairwise
import Mathlib.Data.List.Perm.Subperm
import PatternQuery.Proofs.Diagram.Edits

/-!
# Variables of nodes

`VariableNames.generate` gives out a name that it has not given out before
(`VariableNames.generate_notMem`), whatever was given out so far, and none of those that statements
keep for variables of their own (`VariableNames.isReserved_generate`). So the nodes of the query of
a reachable diagram have distinct variables, none of them reserved (`Diagram.Reachable.named`).
-/

namespace PatternQuery

namespace VariableNames

variable {issued : List String} {stem : String} {fuel j k : Nat}

/-! ## Free numbers -/

theorem numbered_inj (h : numbered stem j = numbered stem k) : j = k := by
  rw [numbered, numbered, String.append_right_inj] at h
  have hdigits : Nat.toDigits 10 j = Nat.toDigits 10 k := by
    simpa only [Nat.toString_eq_repr, Nat.toList_repr] using congrArg String.toList h
  have hread := congrArg (fun cs => Nat.ofDigitChars 10 cs 0) hdigits
  simpa using hread

/-- The search ends on a name that was given out only if all the names that it tries were. -/
theorem mem_of_firstFree_mem (h : numbered stem (firstFree issued stem fuel k) ∈ issued) :
    ∀ i ≤ fuel, numbered stem (k + i) ∈ issued := by
  induction fuel generalizing k with
  | zero =>
    intro i hi
    obtain rfl : i = 0 := by omega
    exact h
  | succ fuel ih =>
    rw [firstFree] at h
    split at h
    · rename_i hk
      intro i hi
      cases i with
      | zero => exact List.contains_iff_mem.1 hk
      | succ i =>
        have := ih h i (by omega)
        rwa [Nat.add_right_comm, Nat.add_assoc] at this
    · rename_i hk
      exact absurd (List.contains_iff_mem.2 h) hk

theorem numbered_firstFree_notMem (issued : List String) (stem : String) (k : Nat) :
    numbered stem (firstFree issued stem issued.length k) ∉ issued := by
  intro h
  -- One more name was tried than there are.
  have hnodup : ((List.range (issued.length + 1)).map fun i => numbered stem (k + i)).Nodup := by
    refine List.nodup_range.map fun i j e => ?_
    have := numbered_inj e
    omega
  have hsub : ((List.range (issued.length + 1)).map fun i => numbered stem (k + i)) ⊆ issued := by
    intro name hname
    obtain ⟨i, hi, rfl⟩ := List.mem_map.1 hname
    rw [List.mem_range] at hi
    exact mem_of_firstFree_mem h i (by omega)
  have hlen := (List.subperm_of_subset hnodup hsub).length_le
  rw [List.length_map, List.length_range] at hlen
  omega

/-! ## Reserved names -/

theorem isReserved_append_underscore (name : String) : isReserved (name ++ "_") = false := by
  unfold isReserved
  rw [String.toList_append]
  match name.toList with
  | [] => decide
  | c :: cs =>
    by_cases hc : c = 'r'
    · simp [hc, List.all_append]
    · cases cs <;> simp [hc]

theorem isReserved_stem (label : String) : isReserved (VariableNames.stem label) = false := by
  unfold VariableNames.stem
  dsimp only
  generalize (if (Text.withoutBlanks (Text.lowercase label)).isEmpty then emptyStem
    else Text.withoutBlanks (Text.lowercase label)) = base
  split
  · exact isReserved_append_underscore base
  · rename_i h
    simpa using h

/-- A number is written with a digit in front. -/
theorem exists_toList_toString (n : Nat) :
    ∃ c cs, (toString n).toList = c :: cs ∧ c.isDigit = true := by
  obtain ⟨c, cs, h⟩ := List.exists_cons_of_ne_nil (Nat.toDigits_ne_nil (n := n) (b := 10))
  refine ⟨c, cs, by rw [Nat.toString_eq_repr, Nat.toList_repr, h], ?_⟩
  exact Nat.isDigit_of_mem_toDigits (b := 10) (n := n) (by omega) (by omega) (by simp [h])

theorem isReserved_numbered (h : isReserved stem = false) (k : Nat) :
    isReserved (numbered stem k) = false := by
  obtain ⟨c, cs, hk, hdigit⟩ := exists_toList_toString k
  unfold isReserved at h ⊢
  rw [numbered, String.toList_append, hk]
  match hs : stem.toList with
  | [] =>
    have hr : c ≠ 'r' := by
      rintro rfl
      simp at hdigit
    have hx : c ≠ 'x' := by
      rintro rfl
      simp at hdigit
    simp [hr, hx]
  | a :: as =>
    rw [hs] at h
    by_cases ha : a = 'r'
    · subst ha
      simp only [List.cons_append, List.all_append]
      simp only at h
      rw [h, Bool.false_and]
    · simp [ha]

/-- A name is the stem with a free number behind it or the stem itself, if that is free. -/
theorem generate_cases (names : VariableNames) (label : String) :
    (∃ k, names.generate label = names.generateNumbered (VariableNames.stem label) k) ∨
      VariableNames.stem label ∉ names.issued ∧
        (names.generate label).1 = VariableNames.stem label ∧
        (names.generate label).2.issued = VariableNames.stem label :: names.issued := by
  unfold generate
  generalize VariableNames.stem label = stem
  dsimp only
  split
  · exact .inl ⟨_, rfl⟩
  · split
    · exact .inl ⟨0, rfl⟩
    · rename_i h
      exact .inr ⟨fun hmem => h (List.contains_iff_mem.2 hmem), rfl, rfl⟩

theorem generateNumbered_fst (names : VariableNames) (stem : String) (k : Nat) :
    ∃ i, (names.generateNumbered stem k).1 = numbered stem i ∧ numbered stem i ∉ names.issued :=
  ⟨_, rfl, numbered_firstFree_notMem names.issued stem k⟩

theorem generate_issued (names : VariableNames) (label : String) :
    (names.generate label).2.issued = (names.generate label).1 :: names.issued := by
  rcases generate_cases names label with ⟨k, h⟩ | ⟨-, hname, hissued⟩
  · rw [h, generateNumbered]
  · rw [hname, hissued]

theorem generate_notMem (names : VariableNames) (label : String) :
    (names.generate label).1 ∉ names.issued := by
  rcases generate_cases names label with ⟨k, h⟩ | ⟨hnew, hname, -⟩
  · obtain ⟨i, hname, hnew⟩ := generateNumbered_fst names (VariableNames.stem label) k
    rwa [h, hname]
  · rwa [hname]

theorem isReserved_generate (names : VariableNames) (label : String) :
    isReserved (names.generate label).1 = false := by
  rcases generate_cases names label with ⟨k, h⟩ | ⟨-, hname, -⟩
  · obtain ⟨i, hname, -⟩ := generateNumbered_fst names (VariableNames.stem label) k
    rw [h, hname]
    exact isReserved_numbered (isReserved_stem label) i
  · rw [hname]
    exact isReserved_stem label

end VariableNames

namespace Diagram

/-- The variables of the nodes of the query are distinct names that were given out, and no reserved
name was. -/
structure Named (d : Diagram) : Prop where
  issued : ∀ n ∈ d.nodes, n.kind ≠ .value → n.var ∈ d.names.issued
  distinct : d.nodes.Pairwise fun m n => m.kind ≠ .value → n.kind ≠ .value → m.var ≠ n.var
  unreserved : ∀ name ∈ d.names.issued, VariableNames.isReserved name = false

variable {p : Provider} {d d' : Diagram} {m n : Node}

theorem Named.eq_of_var_eq (h : d.Named) (hm : m ∈ d.nodes) (hn : n ∈ d.nodes)
    (hmk : m.kind ≠ .value) (hnk : n.kind ≠ .value) (e : m.var = n.var) : m = n := by
  by_contra hne
  have : Std.Symm fun m n : Node => m.kind ≠ .value → n.kind ≠ .value → m.var ≠ n.var :=
    ⟨fun _ _ h hn hm => (h hm hn).symm⟩
  exact h.distinct.forall hm hn hne hmk hnk e

/-! ## Strokes -/

theorem Named.modify (h : d.Named) (id : NodeId) {f : Node → Node}
    (hf : ∀ n, (f n).origin = n.origin) : (d.modify id f).Named := by
  have hname (n : Node) : (if n.id = id then f n else n).kind = n.kind ∧
      (if n.id = id then f n else n).var = n.var := by
    split
    · exact ⟨Node.kind_of_origin (hf n), Node.var_of_origin (hf n)⟩
    · exact ⟨rfl, rfl⟩
  refine ⟨fun n hn hk => ?_, ?_, h.unreserved⟩
  · obtain ⟨m, hm, rfl⟩ := mem_modify.1 hn
    rw [(hname m).1] at hk
    rw [(hname m).2]
    exact h.issued m hm hk
  · simp only [Diagram.modify, List.pairwise_map, hname]
    exact h.distinct

theorem Named.keep (h : d.Named) (q : NodeId → Bool) (r : Link → Bool) : (d.keep q r).Named where
  issued n hn := h.issued n (List.mem_filter.1 hn).1
  distinct := h.distinct.filter _
  unreserved := h.unreserved

/-- A node may come with a new name. -/
theorem Named.append (h : d.Named) (label : String) (hnodes : d'.nodes = d.nodes ++ [n])
    (hnames : d'.names = (d.names.generate label).2) (hvar : n.var = (d.names.generate label).1) :
    d'.Named where
  issued m hm hk := by
    rw [hnames, VariableNames.generate_issued]
    rw [hnodes] at hm
    rcases List.mem_append.1 hm with hm | hm
    · exact List.mem_cons_of_mem _ (h.issued m hm hk)
    · rw [List.mem_singleton.1 hm, hvar]
      exact List.mem_cons_self
  distinct := by
    rw [hnodes]
    refine List.pairwise_append.2 ⟨h.distinct, by simp, fun m hm n' hn' hk _ e => ?_⟩
    rw [List.mem_singleton.1 hn', hvar] at e
    exact VariableNames.generate_notMem d.names label (e ▸ h.issued m hm hk)
  unreserved name hname := by
    rw [hnames, VariableNames.generate_issued] at hname
    rcases List.mem_cons.1 hname with rfl | hname
    · exact VariableNames.isReserved_generate d.names label
    · exact h.unreserved name hname

/-- A candidate value needs no name. -/
theorem Named.addValueNode (h : d.Named) (id : NodeId) (label : String) (row : Row) :
    (d.addValueNode id label row).Named where
  issued n hn hk := by
    rcases List.mem_append.1 hn with hn | hn
    · exact h.issued n hn hk
    · rw [List.mem_singleton.1 hn] at hk
      exact absurd rfl hk
  distinct := by
    refine List.pairwise_append.2 ⟨h.distinct, by simp, fun m _ n hn _ hk => ?_⟩
    rw [List.mem_singleton.1 hn] at hk
    exact absurd rfl hk
  unreserved := h.unreserved

theorem Named.clear (d : Diagram) : d.clear.Named := by
  constructor <;> simp [Diagram.clear]

theorem Named.stroke (h : d.Named) (hs : Stroke p d d') : d'.Named := by
  cases hs with
  | modify id f hf => exact h.modify id hf
  | hide id => exact h.keep _ _
  | cut id =>
    rw [removeSubtree_snd]
    exact h.keep _ _
  | addRoot label anchor _ => exact h.append label rfl rfl rfl
  | attachChild id s kind _ _ =>
    exact h.append (n := childNode p id s kind d) s.target rfl rfl rfl
  | addValueNode id label row _ => exact h.addValueNode id label row
  | setAside k => exact ⟨h.issued, h.distinct, h.unreserved⟩

/-- Whatever the arguments were, variables are distinct. -/
theorem ReachableBy.named {admits : Operation → Diagram → Prop} (h : d.ReachableBy p admits) :
    d.Named :=
  h.of_strokes (fun pageSize => .clear (.new pageSize)) (fun d _ => .clear d)
    fun _ _ h hs => h.stroke hs

theorem Reachable.named (h : d.Reachable p) : d.Named := ReachableBy.named h

end Diagram

end PatternQuery
