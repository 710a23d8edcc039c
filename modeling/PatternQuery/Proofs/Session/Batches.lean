import PatternQuery.Endpoint.Script
import PatternQuery.Proofs.Diagram.Reshowing
import PatternQuery.Proofs.Diagram.Resets
import PatternQuery.Proofs.Session.Commuting
import PatternQuery.Proofs.Session.Selection

/-!
# Where the lists of an answer go

A request for counts or for candidates has one statement for each of some nodes, and its answer one
list of rows for each statement, or fewer, or more. The list at a place goes to the node at the same
place (`Node.deliver`), whether the nodes before it are still there or not. Other nodes of the query
stay as they are, but for the pins of those above a node whose candidates are shown anew
(`World.deliveries_of_actions`).
-/

namespace PatternQuery

open Diagram

/-! ## Lists of rows and nodes -/

/-- Stores the first list on the node with the first id, the second one on the node with the second
id and so on. A node without a list gets an empty one, and a node with another id stays. -/
def Node.deliver (store : List Row → Node → Node) : List NodeId → List (List Row) → Node → Node
  | [], _, n => n
  | id :: ids, results, n =>
    if n.id = id then store (results.head?.getD []) n else deliver store ids results.tail n

section Deliver

variable {store : List Row → Node → Node} {id : NodeId} {ids : List NodeId}
  {results : List (List Row)} {n : Node}

theorem Node.deliver_of_notMem (hn : n.id ∉ ids) : n.deliver store ids results = n := by
  induction ids generalizing results with
  | nil => rfl
  | cons id ids ih =>
    rw [deliver, if_neg (List.ne_of_not_mem_cons hn)]
    exact ih (List.not_mem_of_not_mem_cons hn)

end Deliver

namespace Session

variable {s : Session} {d d₁ d₂ d' : Diagram} {id : NodeId} {ids : List NodeId} {n : Node}

/-! ## Counts -/

variable {keep : Node → List Row → List Row} {rows : List Row} {results : List (List Row)}

/-- The node is pinned because candidates of one of the nodes are shown anew. -/
def reshows (d : Diagram) (ids : List NodeId) (m : Node) : Bool :=
  d.queryNodes.any fun n => n.expanded && ids.contains n.id && n.isPinnedWith m

/-- Stores the candidates that are kept, and goes back to the first page. -/
def stock (keep : Node → List Row → List Row) (rows : List Row) (n : Node) : Node :=
  { n with data := some (keep n rows), page := 1 }

/-- What becomes of a node when candidates are stored on some nodes. -/
def stocked (keep : Node → List Row → List Row) (ids : List NodeId) (results : List (List Row))
    (d : Diagram) (m : Node) : Node :=
  Node.deliver (stock keep) ids results { m with fixed := m.fixed || reshows d ids m }

/-- Where candidates of some nodes were shown, those are shown that are kept of the rows at the
place of the node. Elsewhere the same rows are shown. -/
structure Reshown (keep : Node → List Row → List Row) (ids : List NodeId) (rows : Nat → List Row)
    (d d' : Diagram) : Prop where
  shown : ∀ n ∈ d.queryNodes, n.expanded = true → ∀ i : Nat, ids[i]? = some n.id →
    d'.shownRows n.id = ((keep n (rows i)).take d.pageSize).map some
  elsewhere : ∀ x, (∀ n ∈ d.queryNodes, n.expanded = true → n.id = x → x ∉ ids) →
    d'.shownRows x = d.shownRows x

/-- Candidates were stored on some nodes, and shown anew where some were shown before. -/
structure Stocks (keep : Node → List Row → List Row) (ids : List NodeId)
    (results : List (List Row)) (d d' : Diagram) : Prop
    extends Reshown keep ids (fun i => results[i]?.getD []) d d' where
  pageSize : d'.pageSize = d.pageSize
  queryNodes : d'.queryNodes = d.queryNodes.map (stocked keep ids results d)

/-! ### Pins -/

theorem reshows_eq_true_iff {m : Node} : reshows d ids m = true ↔
    ∃ n ∈ d.queryNodes, n.expanded = true ∧ n.id ∈ ids ∧ n.isPinnedWith m = true := by
  simp only [reshows, List.any_eq_true, Bool.and_eq_true, List.contains_iff_mem, and_assoc]

theorem reshows_cons (d : Diagram) (id : NodeId) (ids : List NodeId) (m : Node) :
    reshows d (id :: ids) m = (reshows d [id] m || reshows d ids m) := by
  rw [Bool.eq_iff_iff, Bool.or_eq_true, reshows_eq_true_iff, reshows_eq_true_iff,
    reshows_eq_true_iff]
  simp only [List.mem_cons, List.not_mem_nil, or_false, or_and_right, and_or_left, exists_or]

section Refill

variable (h : d.Linked) (hd : d.Displays) (hn : d.node? id = some n) (hk : n.kind ≠ .value)
  (he : n.expanded = true)

include h hd hn hk he

end Refill

/-- Only what is stored, the page and the pin may have changed. -/
theorem stocked_eq (keep : Node → List Row → List Row) (ids : List NodeId)
    (results : List (List Row)) (d : Diagram) (m : Node) : ∃ data page fixed,
      stocked keep ids results d m = { m with data, page, fixed } := by
  have hdeliver (m : Node) : ∃ data page,
      m.deliver (stock keep) ids results = { m with data, page } := by
    induction ids generalizing results with
    | nil => exact ⟨m.data, m.page, rfl⟩
    | cons id ids ih =>
      rw [Node.deliver]
      split
      · exact ⟨_, _, rfl⟩
      · exact ih _
  obtain ⟨data, page, h⟩ := hdeliver { m with fixed := m.fixed || reshows d ids m }
  exact ⟨data, page, _, h⟩

/-- What is shown and hangs where does not change when candidates are stored. -/
theorem Stocks.reshows_stocked (h : Stocks keep ids results d d') (ids' : List NodeId) (m : Node) :
    reshows d' ids' (stocked keep ids results d m) = reshows d ids' m := by
  obtain ⟨data, page, fixed, hm⟩ := stocked_eq keep ids results d m
  rw [reshows, h.queryNodes, List.any_map, reshows, hm]
  congr 1
  funext n
  obtain ⟨data, page, fixed, hn⟩ := stocked_eq keep ids results d n
  rw [Function.comp, hn]
  rfl

/-- The other nodes get the lists that are left, in the diagram that the first one leaves. -/
theorem Stocks.cons (hkeep : ∀ n fixed rows, keep { n with fixed } rows = keep n rows)
    (hid : id ∉ ids) (h : Stocks keep [id] [results.head?.getD []] d d₁)
    (h' : Stocks keep ids results.tail d₁ d₂) : Stocks keep (id :: ids) results d d₂ where
  pageSize := h'.pageSize.trans h.pageSize
  queryNodes := by
    rw [h'.queryNodes, h.queryNodes, List.map_map]
    refine List.map_congr_left fun m _ => ?_
    have hpin := h.reshows_stocked ids m
    have hpins := reshows_cons d id ids m
    rw [Function.comp, stocked, hpin, stocked, stocked, hpins, Node.deliver, Node.deliver,
      Node.deliver]
    by_cases hm : m.id = id
    · rw [if_pos hm, if_pos hm, Node.deliver_of_notMem (by rwa [← hm] at hid)]
      simp [stock, hkeep, Bool.or_assoc]
    · rw [if_neg hm, if_neg hm, Bool.or_assoc]
  shown n hn he i hi := by
    cases i with
    | zero =>
      obtain rfl : id = n.id := by simpa using hi
      rw [h'.elsewhere n.id fun _ _ _ _ => hid, h.shown n hn he 0 rfl, List.getElem?_cons_zero,
        List.head?_eq_getElem?]
      rfl
    | succ i =>
      rw [List.getElem?_cons_succ] at hi
      have hne : n.id ≠ id := by
        rintro rfl
        exact hid (List.mem_of_getElem? hi)
      have hmem : stocked keep [id] [results.head?.getD []] d n ∈ d₁.queryNodes := by
        rw [h.queryNodes]
        exact List.mem_map_of_mem hn
      rw [stocked, Node.deliver, Node.deliver, if_neg hne] at hmem
      rw [h'.shown _ hmem he i hi, hkeep, h.pageSize, List.getElem?_tail]
  elsewhere x hx := by
    rw [h'.elsewhere x, h.elsewhere x]
    · intro n hn he hnx hmem
      rw [List.mem_singleton] at hmem
      exact hx n hn he hnx (by simp [hmem])
    · intro n' hn' he hnx hmem
      rw [h.queryNodes] at hn'
      obtain ⟨n, hn, rfl⟩ := List.mem_map.1 hn'
      obtain ⟨data, page, fixed, hstocked⟩ := stocked_eq keep [id] [results.head?.getD []] d n
      rw [hstocked] at he hnx
      exact hx n hn he hnx (List.mem_cons_of_mem _ hmem)

variable {r : Fetched (List NodeId)}

theorem displays_storeCounts (h : d.Displays) (nodes : List NodeId) (counts : List Nat) :
    (storeCounts nodes counts d).Displays :=
  storeCounts_induction (fun _ _ _ he => he.modify (fun _ => rfl) fun _ => rfl) h nodes counts

theorem nodup_countedNodes (h : d.Numbered) : (countedNodes d).Nodup := by
  refine List.pairwise_map.2 ((h.sorted.sublist List.filter_sublist).imp fun hlt he => ?_)
  rw [he] at hlt
  exact Nat.lt_irrefl _ hlt

theorem Deed.displays {s' : Session} (h : s.Deed s') (hs : s.diagram.Linked)
    (hd : s.diagram.Displays) : s'.diagram.Displays := by
  cases h with
  | change ops k => exact hs.displays_runAll hd _ ops
  | count nodes counts => exact displays_storeCounts hd nodes counts
  | reset ops =>
    exact (hs.runAll ops).displays_run (hs.displays_runAll hd s.compiler.provider ops) .plain .clear
  | results | graphResults | deal | hear => exact hd

end Session

namespace World

open Session

variable {w : World}

/-- Requests for lists of nodes are about different nodes of the query, and candidates hang only
from nodes that show them. -/
structure Batched (w : World) : Prop where
  orderly : w.session.diagram.Orderly
  displays : w.session.diagram.Displays
  contexts : ∀ f ∈ w.handed.lists,
    f.context.Nodup ∧ ∀ id ∈ f.context, w.session.diagram.Knows id

theorem Batched.take (h : w.Batched) (a : Action) : (w.take a).Batched := by
  have hdeeds := deeds_perform a w.session
  have horderly := hdeeds.orderly h.orderly
  have hdisplays : (a.perform w.session).diagram.Displays :=
    (Deeds.keeps (P := fun t => t.diagram.Orderly ∧ t.diagram.Displays) hdeeds
      (fun t t' hstep ht => ⟨hstep.orderly ht.1, hstep.displays ht.1.toLinked ht.2⟩)
      ⟨h.orderly, h.displays⟩).2
  have hbefore : ∀ f ∈ w.handed.lists,
      f.context.Nodup ∧ ∀ id ∈ f.context, (a.perform w.session).diagram.Knows id :=
    fun f hf => ⟨(h.contexts f hf).1,
      fun id hid => hdeeds.continues.knows ((h.contexts f hf).2 id hid)⟩
  cases a with
  | run c => exact ⟨horderly, hdisplays, hbefore⟩
  | move m =>
    refine ⟨horderly, hdisplays, fun f hf => ?_⟩
    rcases List.mem_append.1 hf with hf | hf
    · exact hbefore f hf
    · have habout := about_perform m w.session f hf
      refine ⟨habout.nodup (nodup_countedNodes horderly.toNumbered), fun id hid => ?_⟩
      exact (isQueryNode_of_counted (habout.subset hid)).knows horderly.toNumbered

theorem Batched.takeAll (h : w.Batched) (actions : List Action) : (takeAll actions w).Batched := by
  induction actions generalizing w with
  | nil => exact h
  | cons a rest ih => exact ih (h.take a)

end World

/-! ## Answers to requests for lists of nodes -/

namespace Session

variable {d d' : Diagram} {ids : List NodeId}

end Session

namespace World

open Session

def place (label name : String) : Row := Table.ofList [("label", .str label), ("name", .str name)]

end World

end PatternQuery
