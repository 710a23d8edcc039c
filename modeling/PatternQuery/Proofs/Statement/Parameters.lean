import PatternQuery.Proofs.Data.Tables
import PatternQuery.Proofs.Statement.Negation

/-!
# Parameters and the values behind them

A parameter is named after the variable and the attribute of a node. Where two nodes of a statement
bring a parameter of the same name, the later one wins, and the clauses of the other are about
values that are not its own (`Contribution.OwnValues`). Names of two nodes are equal only if an
attribute has an underscore in it (`Diagram.Named.unshared`).
-/

namespace PatternQuery

/-! ## Parameters of a node -/

namespace Node

variable {q : Provider} {n : Node} {v : SelectedValue} {w : Value} {k : String} {i : Nat}

/-- The parameters that the values selected on a node bring. -/
def parameters (q : Provider) (n : Node) : Parameters := (n.valueConstraints (q.attribute n)).2

theorem parameters_of_negative (hneg : n.negative = true) :
    n.parameters q = n.negatedParameters (q.attribute n) := by
  rw [parameters, valueConstraints, if_pos hneg]

theorem get?_parameters_single (hpos : n.negative = false) (hs : n.selected = [v]) :
    (n.parameters q).get? (n.parameterName (q.attribute n)) =
      some (v.constraintValue (q.attribute n)) := by
  simp [parameters, valueConstraints, hpos, hs, Table.get?_insert]

theorem get?_parameters_several (hpos : n.negative = false) (hs : 2 ≤ n.selected.length) :
    (n.parameters q).get? (n.parameterName (q.attribute n)) =
      some (.ofList (·.constraintValue (q.attribute n)) n.selected) := by
  match h : n.selected with
  | [] | [v] => simp [h] at hs
  | v :: w :: vs => simp [parameters, valueConstraints, hpos, h, Table.get?_insert]

theorem get?_parameters_negated (hneg : n.negative = true) (hi : n.selected[i]? = some v) :
    (n.parameters q).get? (valueParameterName (n.parameterName (q.attribute n)) i) =
      some (v.constraintValue (q.attribute n)) := by
  obtain ⟨hlt, rfl⟩ := List.getElem?_eq_some_iff.1 hi
  rw [parameters_of_negative hneg, negatedParameters]
  refine Table.get?_ofList_of_mem ?_ (List.mem_mapIdx.2 ⟨i, hlt, rfl⟩)
  have hkeys : (n.selected.mapIdx fun i v =>
      (valueParameterName (n.parameterName (q.attribute n)) i,
        v.constraintValue (q.attribute n))).map Prod.fst =
      n.selected.mapIdx fun i _ => valueParameterName (n.parameterName (q.attribute n)) i :=
    List.ext_getElem (by simp) (by simp)
  rw [hkeys]
  exact nodup_mapIdx (fun _ _ _ _ => valueParameterName_inj) _

/-- The parameters of a node are named after its variable and its attribute. -/
theorem exists_name_of_parameters (h : (n.parameters q).get? k = some w) :
    n.selected ≠ [] ∧ ∃ i, k = valueParameterName (n.parameterName (q.attribute n)) i := by
  cases hneg : n.negative with
  | true =>
    rw [parameters_of_negative hneg, negatedParameters] at h
    obtain ⟨i, hi, e⟩ := List.mem_mapIdx.1 (Table.mem_of_get?_ofList h)
    exact ⟨List.ne_nil_of_length_pos (by omega), i, (congrArg Prod.fst e).symm⟩
  | false =>
    have hbase (x : Value) (hx : (Table.empty.insert (n.parameterName (q.attribute n)) x).get? k =
        some w) : ∃ i, k = valueParameterName (n.parameterName (q.attribute n)) i := by
      rw [Table.get?_insert, Table.get?_empty] at hx
      refine ⟨0, ?_⟩
      by_contra hk
      rw [valueParameterName, if_pos rfl] at hk
      simp [hk] at hx
    rw [parameters, valueConstraints, if_neg (by simp [hneg])] at h
    rcases hs : n.selected with _ | ⟨v, _ | ⟨v', vs⟩⟩
    · simp [hs, Table.get?_empty] at h
    · exact ⟨by simp, hbase _ (by simpa only [hs] using h)⟩
    · exact ⟨by simp, hbase _ (by simpa only [hs] using h)⟩

end Node

/-! ## Names -/

/-- Constraint attributes have no underscore in them. -/
def Provider.PlainSuffixes (q : Provider) : Prop :=
  ∀ label, '_' ∉ (q.properties label).constraintAttribute.parameterSuffix.toList

theorem append_underscore_inj {a a' b b' : List Char} (hb : '_' ∉ b) (hb' : '_' ∉ b')
    (h : a ++ '_' :: b = a' ++ '_' :: b') : a = a' := by
  rcases List.append_eq_append_iff.1 h with ⟨cs, rfl, e⟩ | ⟨cs, rfl, e⟩ <;>
    cases cs with
    | nil => simp
    | cons c cs =>
      rw [List.cons_append, List.cons.injEq] at e
      simp [e.2] at hb hb'

theorem underscore_notMem_toString (n : Nat) : '_' ∉ (toString n).toList := by
  intro h
  rw [Nat.toString_eq_repr, Nat.toList_repr] at h
  have := Nat.isDigit_of_mem_toDigits (b := 10) (n := n) (by omega) (by omega) h
  simp at this

/-- Names of parameters tell variables apart, if attributes have no underscore in them. -/
theorem Node.var_eq_of_name_eq {q : Provider} (hq : q.PlainSuffixes) {m n : Node} {i j : Nat}
    (h : valueParameterName (m.parameterName (q.attribute m)) i =
      valueParameterName (n.parameterName (q.attribute n)) j) : m.var = n.var := by
  have hplain (l : Node) (i : Nat) : '_' ∉ (q.attribute l).parameterSuffix.toList ++
      (if i = 0 then "" else toString (i + 1)).toList := by
    rw [List.mem_append, not_or]
    refine ⟨hq l.label, ?_⟩
    split
    · simp
    · exact underscore_notMem_toString _
  rw [valueParameterName_eq, valueParameterName_eq] at h
  have hlist := congrArg String.toList h
  simp only [parameterName, String.toList_append, List.append_assoc] at hlist
  exact String.toList_injective (append_underscore_inj (hplain m i) (hplain n j) hlist)

/-! ## Parameters of contributions -/

namespace Contribution

variable {q : Provider} {cs : List Contribution} {c : Contribution} {n : Node} {k : String}
  {v : Value}

/-- The node that a contribution brings parameters for. -/
def holder? : Contribution → Option Node
  | selection n => some n
  | negation x => some x.target
  | _ => none

/-- Only negated nodes are in `NOT` clauses. -/
def Proper (cs : List Contribution) : Prop := ∀ x, negation x ∈ cs → x.target.negative = true

/-- The nodes that bring parameters are nodes of a diagram. -/
def HeldIn (d : Diagram) (cs : List Contribution) : Prop :=
  ∀ c ∈ cs, ∀ m, c.holder? = some m → m ∈ d.nodes

theorem Proper.concat_selection (h : Proper cs) (n : Node) : Proper (cs ++ [selection n]) := by
  intro x hx
  simp only [List.mem_append, List.mem_singleton, reduceCtorEq, or_false] at hx
  exact h x hx

theorem HeldIn.concat_selection {d : Diagram} (h : HeldIn d cs) (hn : n ∈ d.nodes) :
    HeldIn d (cs ++ [selection n]) := by
  intro c hc m hm
  rcases List.mem_append.1 hc with hc | hc
  · exact h c hc m hm
  · rw [List.mem_singleton.1 hc] at hm
    exact Option.some.inj hm ▸ hn

theorem Proper.parameters_eq (h : Proper cs) (hc : c ∈ cs) (hn : c.holder? = some n) :
    c.parameters q = n.parameters q := by
  cases c with
  | standing m => simp [holder?] at hn
  | relation x => simp [holder?] at hn
  | selection m =>
    obtain rfl := Option.some.inj hn
    rfl
  | negation x =>
    obtain rfl := Option.some.inj hn
    rw [Node.parameters_of_negative (h x hc), parameters]
    cases hs : x.target.selected with
    | nil => simp [Node.hasValue, Node.negatedParameters, hs, Table.ofList]
    | cons v vs => simp [Node.hasValue, hs]

theorem exists_holder (h : (c.parameters q).get? k = some v) : ∃ n, c.holder? = some n := by
  cases c with
  | standing m => simp [parameters, Table.get?_empty] at h
  | relation x => simp [parameters, Table.get?_empty] at h
  | selection m => exact ⟨m, rfl⟩
  | negation x => exact ⟨x.target, rfl⟩

/-- A name is bound to a value if some contribution binds it so and none binds it otherwise. -/
theorem get?_allParameters (hc : ∃ c ∈ cs, (c.parameters q).get? k = some v)
    (hall : ∀ c ∈ cs, ∀ w, (c.parameters q).get? k = some w → w = v) :
    (allParameters q cs).get? k = some v := by
  induction cs using List.reverseRecOn with
  | nil => simp at hc
  | append_singleton cs c ih =>
    rw [allParameters_concat, Table.get?_merge]
    cases hk : (c.parameters q).get? k with
    | some w => rw [hall c (by simp) w hk, Option.some_or]
    | none =>
      rw [Option.none_or]
      refine ih ?_ fun c' hc' => hall c' (List.mem_append_left _ hc')
      obtain ⟨c', hc', hv⟩ := hc
      rcases List.mem_append.1 hc' with hc' | hc'
      · exact ⟨c', hc', hv⟩
      · rw [List.mem_singleton.1 hc', hk] at hv
        simp at hv

/-- No other node brings a parameter of this name. -/
def Unshared (q : Provider) (cs : List Contribution) (n : Node) (k : String) : Prop :=
  ∀ c ∈ cs, ∀ m, c.holder? = some m → m ≠ n → (m.parameters q).get? k = none

/-- What no other node brings a parameter for is bound as its own node has it. -/
theorem Proper.get?_of_unshared (h : Proper cs) (hc : c ∈ cs) (hn : c.holder? = some n)
    (hk : (n.parameters q).get? k = some v) (hu : Unshared q cs n k) :
    (allParameters q cs).get? k = some v := by
  refine get?_allParameters ⟨c, hc, by rw [h.parameters_eq hc hn, hk]⟩ fun c' hc' w hw => ?_
  obtain ⟨m, hm⟩ := exists_holder hw
  rw [h.parameters_eq hc' hm] at hw
  by_cases hmn : m = n
  · rw [hmn, hk] at hw
    exact (Option.some.inj hw).symm
  · rw [hu c' hc' m hm hmn] at hw
    simp at hw

/-- The placeholder in each clause about values is bound to the values of the node that the clause
is about, where `P` holds of the node and the placeholder. -/
structure OwnValues (q : Provider) (cs : List Contribution) (t : Parameters)
    (P : Node → String → Prop) : Prop where
  single : ∀ n v, selection n ∈ cs → n.negative = false → n.selected = [v] →
    P n (n.parameterName (q.attribute n)) →
      t.get? (n.parameterName (q.attribute n)) = some (v.constraintValue (q.attribute n))
  several : ∀ n, selection n ∈ cs → n.negative = false → 2 ≤ n.selected.length →
    P n (n.parameterName (q.attribute n)) →
      t.get? (n.parameterName (q.attribute n)) =
        some (.ofList (·.constraintValue (q.attribute n)) n.selected)
  negated : ∀ x i v, negation x ∈ cs → x.target.selected[i]? = some v →
    P x.target (x.valueParameter q i) →
      t.get? (x.valueParameter q i) = some (v.constraintValue (q.attribute x.target))

theorem Proper.ownValues (h : Proper cs) {P : Node → String → Prop}
    (hP : ∀ c ∈ cs, ∀ n, c.holder? = some n → ∀ k v, (n.parameters q).get? k = some v → P n k →
      Unshared q cs n k) : OwnValues q cs (allParameters q cs) P where
  single n v hn hpos hs hp := by
    have hk := Node.get?_parameters_single (q := q) hpos hs
    exact h.get?_of_unshared hn rfl hk (hP _ hn n rfl _ _ hk hp)
  several n hn hpos hs hp := by
    have hk := Node.get?_parameters_several (q := q) hpos hs
    exact h.get?_of_unshared hn rfl hk (hP _ hn n rfl _ _ hk hp)
  negated x i v hx hi hp := by
    have hk := Node.get?_parameters_negated (q := q) (h x hx) hi
    exact h.get?_of_unshared hx rfl hk (hP _ hx x.target rfl _ _ hk hp)

end Contribution

/-- Nodes of the query share no parameters, if attributes have no underscore in them. -/
theorem Diagram.Named.unshared {d : Diagram} (h : d.Named) (hs : d.Shape) {q : Provider}
    (hq : q.PlainSuffixes) {cs : List Contribution} (hcs : Contribution.HeldIn d cs) {n : Node}
    {k : String} {v : Value} (hn : n ∈ d.nodes) (hk : (n.parameters q).get? k = some v) :
    Contribution.Unshared q cs n k := by
  have hkind {l : Node} (hl : l ∈ d.nodes) (hsel : l.selected ≠ []) : l.kind ≠ .value :=
    fun hv => hsel ((hs.sound l hl).selected hv)
  intro c hc m hm hmn
  by_contra hshared
  obtain ⟨w, hw⟩ := Option.ne_none_iff_exists'.1 hshared
  obtain ⟨hsel, i, rfl⟩ := Node.exists_name_of_parameters hk
  obtain ⟨hsel', j, e⟩ := Node.exists_name_of_parameters hw
  have hmem := hcs c hc m hm
  exact hmn (h.eq_of_var_eq hmem hn (hkind hmem hsel') (hkind hn hsel)
    (Node.var_eq_of_name_eq hq e.symm))

end PatternQuery
