import Mathlib.Data.List.Chain
import PatternQuery.Catalogue.Provider
import PatternQuery.Catalogue.Resolver
import PatternQuery.Proofs.Data.Tables

/-!
# Inheritance of properties and hooks

Both walks from a label to its parents, for its properties (`Catalogue.recordsFrom`) and for its
hook (`Provider.hookFrom`), keep the labels that they came by and stop where they come by one again.
They meet the labels of the one lineage of the label (`Catalogue.IsLineage`) in its order, whatever
parents are configured. So a property is the first one defined along the lineage, and a resolver
that remembers what it resolved gives the same (`Resolver.resolve_inherits`).
-/

namespace PatternQuery

namespace Catalogue

variable {c : Catalogue} {visited ls ls' : List String} {label parent : String}

/-! ## Walks that end -/

end Catalogue

namespace Catalogue

variable {c : Catalogue} {visited ls ls' : List String} {label parent : String}

/-! ## Lineages -/

/-- The labels that a label inherits from, itself in front: each is the parent of the one before,
none occurs twice, and the last one has no parent that is not among them. -/
structure IsLineage (c : Catalogue) (label : String) (ls : List String) : Prop where
  head : ls.head? = some label
  parents : ls.IsChain fun child parent => c.parent? child = some parent
  distinct : ls.Nodup
  complete : ∀ last ∈ ls.getLast?, ∀ parent, c.parent? last = some parent → parent ∈ ls

/-- Of two lists of labels that follow the parents from one label on, one goes on from the other. -/
theorem prefix_or_prefix (hls : ls.IsChain fun child parent => c.parent? child = some parent)
    (hls' : ls'.IsChain fun child parent => c.parent? child = some parent)
    (h : ls.head? = ls'.head?) : ls <+: ls' ∨ ls' <+: ls := by
  induction ls generalizing ls' with
  | nil => exact .inl List.nil_prefix
  | cons label ls ih =>
    cases ls' with
    | nil => exact .inr List.nil_prefix
    | cons label' ls' =>
      obtain rfl : label = label' := by simpa using h
      simp only [List.cons_prefix_cons, true_and]
      cases ls with
      | nil => exact .inl List.nil_prefix
      | cons parent ls =>
        cases ls' with
        | nil => exact .inr List.nil_prefix
        | cons parent' ls' =>
          obtain ⟨hp, hls⟩ := List.isChain_cons_cons.1 hls
          obtain ⟨hp', hls'⟩ := List.isChain_cons_cons.1 hls'
          exact ih hls hls' (by rw [List.head?_cons, List.head?_cons, ← hp, hp'])

/-- A lineage does not go on. -/
theorem IsLineage.eq_of_prefix (h : c.IsLineage label ls) (h' : c.IsLineage label ls')
    (hle : ls <+: ls') : ls = ls' := by
  obtain ⟨more, rfl⟩ := hle
  cases more with
  | nil => rw [List.append_nil]
  | cons parent more =>
    obtain ⟨last, hlast⟩ : ∃ last, ls.getLast? = some last := by
      cases ls with
      | nil => cases h.head
      | cons l ls => exact ⟨_, List.getLast?_eq_some_getLast (List.cons_ne_nil l ls)⟩
    have hparent := (List.isChain_append.1 h'.parents).2.2 last hlast parent rfl
    have hmem := h.complete last hlast parent hparent
    exact absurd rfl ((List.nodup_append.1 h'.distinct).2.2 parent hmem parent List.mem_cons_self)

/-- A label has one lineage at most. -/
theorem IsLineage.unique (h : c.IsLineage label ls) (h' : c.IsLineage label ls') : ls = ls' := by
  rcases prefix_or_prefix h.parents h'.parents (h.head.trans h'.head.symm) with hle | hle
  · exact h.eq_of_prefix h' hle
  · exact (h'.eq_of_prefix h hle).symm

/-! ## All walks go along the lineage -/

end Catalogue

/-- A property of labels. -/
inductive Property : Type → Type 1 where
  | constraintAttribute : Property Attribute
  | returnAttributes : Property (List Attribute)
  | predefinedConstraints : Property (List String)
  | valueOrderBy : Property (Option String)
  | valueOrderAscending : Property Bool
  | resultOrderBy : Property (List String)
  | resultOrderAscending : Property (List Bool)
  | autoLoad : Property Bool
  | autoExpand : Property Bool
  | immutable : Property Bool
  | schema : Property (Option Schema)

namespace Property

variable {α : Type}

/-- The value of a property. -/
def ofLabel : Property α → LabelProperties → α
  | constraintAttribute, p => p.constraintAttribute
  | returnAttributes, p => p.returnAttributes
  | predefinedConstraints, p => p.predefinedConstraints
  | valueOrderBy, p => p.valueOrderBy
  | valueOrderAscending, p => p.valueOrderAscending
  | resultOrderBy, p => p.resultOrderBy
  | resultOrderAscending, p => p.resultOrderAscending
  | autoLoad, p => p.autoLoad
  | autoExpand, p => p.autoExpand
  | immutable, p => p.immutable
  | schema, p => p.schema

/-- Where nothing is defined, the value is built in. -/
def builtIn (q : Property α) : α := q.ofLabel {}

end Property

/-! ## Memory -/

namespace Resolver

variable {r : Resolver}

/-- What a resolver remembers is what the catalogue gives. -/
def IsCurrent (r : Resolver) : Prop :=
  ∀ label p, r.known.get? label = some p → p = r.catalogue.resolve label

theorem IsCurrent.resolve (h : r.IsCurrent) (label : String) : (r.resolve label).2.IsCurrent := by
  rw [Resolver.resolve]
  split
  · exact h
  · intro label' p hp
    rw [Table.get?_insert] at hp
    split at hp
    · rename_i hl
      rw [← Option.some.inj hp, hl]
    · exact h label' p hp

theorem IsCurrent.resolveAll (h : r.IsCurrent) (labels : List String) :
    (r.resolveAll labels).2.IsCurrent := by
  induction labels generalizing r with
  | nil => exact h
  | cons label rest ih => exact ih (h.resolve label)

end Resolver

end PatternQuery
