import PatternQuery.Proofs.Diagram.Recounting
import PatternQuery.Proofs.Session.Informing
import PatternQuery.Proofs.Session.Telling

/-!
# Merges commute

The answers to an update may be merged in any order: apart from the order of the events, the session
is the same in the end (`Merge.merges_commute`). Results do not touch the diagram, and counts are
written to nodes that were there when the counts were asked for, so they do not meet the value nodes
that come with candidates. That holds after any actions, whatever has become of the nodes since.
-/

namespace PatternQuery

open Diagram

/-! ## Candidates that are stored -/

namespace Session

variable {s s' : Session}

/-- What storing candidates of a node makes of a diagram, where `keep` says which rows are kept. -/
def withCandidates (keep : Node → List Row → List Row) (id : NodeId) (rows : List Row)
    (d : Diagram) : Diagram :=
  match d.node? id with
  | none => d
  | some n =>
    let d := (d.setData id (keep n rows)).2
    if n.expanded then (d.expandValues id).2 else d

/-- The same for several nodes in turn. -/
def withAllCandidates (keep : Node → List Row → List Row) :
    List NodeId → List (List Row) → Diagram → Diagram
  | [], _, d => d
  | id :: nodes, results, d => withAllCandidates keep nodes results.tail
    (withCandidates keep id (results.head?.getD []) d)

/-- What is told of that: each node that there is. -/
def toldOfCandidates (keep : Node → List Row → List Row) :
    List NodeId → List (List Row) → Diagram → List EventKind
  | [], _, _ => []
  | id :: nodes, results, d => (if (d.node? id).isSome then [.valuesLoaded id] else []) ++
    toldOfCandidates keep nodes results.tail (withCandidates keep id (results.head?.getD []) d)

theorem storeLoaded_eq (id : NodeId) (rows : List Row) (s : Session) : storeLoaded id rows s =
    (.ok (), { s with
      diagram := withCandidates (unselectedRows s) id rows s.diagram
      events := s.events ++
        if (s.diagram.node? id).isSome then [.valuesLoaded id] else [] }) := by
  rw [storeLoaded, Call.get_bind, withCandidates]
  cases hn : s.diagram.node? id with
  | none => simp; rfl
  | some n =>
    dsimp only
    rw [Call.bind_ok (storeCandidates_eq hn rows)]
    cases n.expanded with
    | false => rfl
    | true =>
      obtain ⟨-, n', hn'⟩ := setData_ok hn (unselectedRows s n rows)
      obtain ⟨shown, d, hd⟩ := expandValues_ok hn'
      rw [if_pos rfl, if_pos rfl, Call.bind_ok (Call.onDiagram_eq hd), hd]
      rfl

theorem storeAllLoaded_eq (nodes : List NodeId) (results : List (List Row)) (s : Session) :
    storeAllLoaded nodes results s = (.ok (), { s with
      diagram := withAllCandidates (unselectedRows s) nodes results s.diagram
      events := s.events ++ toldOfCandidates (unselectedRows s) nodes results s.diagram }) := by
  induction nodes generalizing s results with
  | nil =>
    rw [toldOfCandidates, List.append_nil]
    rfl
  | cons id nodes ih =>
    rw [storeAllLoaded, Call.bind_ok (storeLoaded_eq id _ s), ih, toldOfCandidates,
      List.append_assoc]
    rfl

/-! ## Candidates and counts -/

variable {keep : Node → List Row → List Row} {x : NodeId} {k : Nat} {d : Diagram}

theorem nextNode_withCandidates (keep : Node → List Row → List Row) (id : NodeId)
    (rows : List Row) (d : Diagram) : d.nextNode ≤ (withCandidates keep id rows d).nextNode := by
  unfold withCandidates
  cases d.node? id with
  | none => exact Nat.le_refl _
  | some n =>
    have hstore := continues_setData id (keep n rows) d
    dsimp only
    split
    · exact (hstore.trans (continues_expandValues id _)).nextNode
    · exact hstore.nextNode

/-- A node that exists may be counted before candidates are stored or after that. -/
theorem withCandidates_recount (hkeep : ∀ n c rows, keep { n with count := c } rows = keep n rows)
    (hx : x.number < d.nextNode) (id : NodeId) (rows : List Row) :
    withCandidates keep id rows (d.recount x k) = (withCandidates keep id rows d).recount x k := by
  rw [withCandidates, node?_recount, withCandidates]
  cases d.node? id with
  | none => rfl
  | some n =>
    obtain ⟨c, hc⟩ := n.recount_eq x k
    rw [Option.map_some, hc]
    dsimp only
    rw [hkeep, setData_recount]
    split
    · refine expandValues_recount (Nat.lt_of_lt_of_le hx ?_) id
      exact (continues_setData id (keep n rows) d).nextNode
    · rfl

theorem withAllCandidates_recount
    (hkeep : ∀ n c rows, keep { n with count := c } rows = keep n rows)
    (hx : x.number < d.nextNode) (nodes : List NodeId) (results : List (List Row)) :
    withAllCandidates keep nodes results (d.recount x k) =
        (withAllCandidates keep nodes results d).recount x k ∧
      toldOfCandidates keep nodes results (d.recount x k) =
        toldOfCandidates keep nodes results d := by
  induction nodes generalizing d results with
  | nil => exact ⟨rfl, rfl⟩
  | cons id nodes ih =>
    have hfirst := withCandidates_recount (k := k) hkeep hx id (results.head?.getD [])
    have hnext := nextNode_withCandidates keep id (results.head?.getD []) d
    obtain ⟨hd, htold⟩ := ih (Nat.lt_of_lt_of_le hx hnext) results.tail
    rw [withAllCandidates, hfirst, toldOfCandidates, hfirst, node?_recount, Option.isSome_map]
    exact ⟨hd, congrArg _ htold⟩

theorem withAllCandidates_storeCounts
    (hkeep : ∀ n c rows, keep { n with count := c } rows = keep n rows) {counted : List NodeId}
    (hcounted : ∀ id ∈ counted, id.number < d.nextNode) (counts : List Nat) (nodes : List NodeId)
    (results : List (List Row)) :
    withAllCandidates keep nodes results (storeCounts counted counts d) =
        storeCounts counted counts (withAllCandidates keep nodes results d) ∧
      toldOfCandidates keep nodes results (storeCounts counted counts d) =
        toldOfCandidates keep nodes results d := by
  unfold storeCounts
  have hentries : ∀ e ∈ counted.zipIdx, e.1.number < d.nextNode := fun e he =>
    hcounted e.1 (List.fst_mem_of_mem_zipIdx he)
  clear hcounted
  generalize counted.zipIdx = entries at hentries
  induction entries generalizing d with
  | nil => exact ⟨rfl, rfl⟩
  | cons e entries ih =>
    obtain ⟨hd, htold⟩ := withAllCandidates_recount (k := counts[e.2]?.getD 0) hkeep
      (hentries e (by simp)) nodes results
    rw [List.foldl_cons, modify_count, List.foldl_cons, modify_count, ← hd, ← htold]
    exact ih (d := d.recount e.1 (counts[e.2]?.getD 0)) fun e he => hentries e (by simp [he])

end Session

/-! ## Merges -/

/-- An answer that is merged. -/
inductive Merge where
  | counts (r : Fetched (List NodeId))
  | autoLoad (r : Fetched (List NodeId))
  | results (r : Fetched Bool)

/-- The answers to an update, one for each part that there is. -/
def UpdateFetched.merges (r : UpdateFetched) : List Merge :=
  r.counts.toList.map .counts ++ r.autoLoad.toList.map .autoLoad ++ r.results.toList.map .results

namespace Merge

open Session

variable {s s' : Session} {m m' : Merge} {l l' : Lifecycle}

def move : Merge → Move
  | counts r => .applyCounts r
  | autoLoad r => .applyAutoLoad r
  | results r => .applyResults r

/-- What becomes of a session by merging the answer. -/
def merge (m : Merge) (s : Session) : Session := (m.move.perform s).2

/-- The part of an update that is merged. -/
def part : Merge → Concern
  | counts _ => .count
  | autoLoad _ => .autoLoad
  | results _ => .results

/-- What the request was for. -/
def concern : Merge → Concern
  | counts r | autoLoad r => r.concern
  | results r => r.concern

/-- Counts are written to nodes whose numbers were given out before. -/
def Known (d : Diagram) : Merge → Prop
  | counts r => ∀ id ∈ r.context, id.number < d.nextNode
  | _ => True

def isAccepted (l : Lifecycle) : Merge → Bool
  | counts r | autoLoad r => (l.accept r).1
  | results r => (l.accept r).1

/-! ### The effect of a merge -/

/-- What the diagram becomes. -/
def diagram (s : Session) (d : Diagram) : Merge → Diagram
  | counts r => storeCounts r.context (answeredCounts r.outcome) d
  | autoLoad r => withAllCandidates (unselectedRows s) r.context (answeredRows r.outcome) d
  | results _ => d

/-- What is told of it. -/
def told (s : Session) (d : Diagram) : Merge → List EventKind
  | counts _ => [.countsUpdated]
  | autoLoad r => toldOfCandidates (unselectedRows s) r.context (answeredRows r.outcome) d
  | results r => .resultsUpdated ((answeredRows r.outcome).head?.getD []).length ::
    if r.context then [.graphResultsUpdated ((answeredRows r.outcome).tail.head?.getD []).length]
    else []

/-- What the rows become. -/
def rows (rows : List Row) : Merge → List Row
  | results r => (answeredRows r.outcome).head?.getD []
  | _ => rows

/-- What the rows in graph mode become. -/
def graphRows (rows : List Row) : Merge → List Row
  | results r => if r.context then (answeredRows r.outcome).tail.head?.getD [] else rows
  | _ => rows

/-- What the listener has got then. -/
def graphFeed (listening : Bool) (feed : List (List Row)) : Merge → List (List Row)
  | results r =>
    if r.context && listening then feed ++ [(answeredRows r.outcome).tail.head?.getD []] else feed
  | _ => feed

/-- What becomes of a session when the answer is accepted. -/
def effect (m : Merge) (s : Session) : Session := { s with
  requests := { s.requests with slots := s.requests.slots.set m.concern none }
  diagram := m.diagram s s.diagram
  results := m.rows s.results
  graphResults := m.graphRows s.graphResults
  graphFeed := m.graphFeed s.listening s.graphFeed
  events := s.events ++ m.told s s.diagram }

theorem accept_of_accepted {κ : Type} {r : Fetched κ} (hc : r.concern ≠ .value)
    (h : (l.accept r).1 = true) :
    l.accept r = (true, { l with slots := l.slots.set r.concern none }) := by
  unfold Lifecycle.accept at h ⊢
  split at h
  · cases h
  · rename_i hlive
    rw [if_neg hlive]
    dsimp only
    rw [if_neg hc]

theorem onRequests_of_accepted {κ : Type} {r : Fetched κ} (hc : r.concern ≠ .value)
    (h : (s.requests.accept r).1 = true) : Call.onRequests (Lifecycle.accept r) s =
      (.ok true, { s with
        requests := { s.requests with slots := s.requests.slots.set r.concern none } }) := by
  unfold Call.onRequests
  rw [accept_of_accepted hc h]

theorem merge_of_accepted (hc : m.concern ≠ .value) (h : m.isAccepted s.requests = true) :
    m.merge s = m.effect s := by
  cases m with
  | counts r =>
    show (Move.handing (applyCounts r) _ s).2 = _
    rw [handing_snd, applyCounts, Call.bind_ok (onRequests_of_accepted hc h)]
    rfl
  | autoLoad r =>
    show (Move.handing (applyAutoLoad r) _ s).2 = _
    rw [handing_snd, applyAutoLoad, Call.bind_ok (onRequests_of_accepted hc h), if_pos rfl,
      Call.bind_ok (storeAllLoaded_eq _ _ _)]
    rfl
  | results r =>
    show (Move.handing (applyResults r) _ s).2 = _
    rw [handing_snd, applyResults, Call.bind_ok (onRequests_of_accepted hc h)]
    obtain ⟨concern, generation, context, outcome⟩ := r
    cases context with
    | false => rfl
    | true =>
      unfold effect told
      dsimp only
      rw [if_pos rfl, ← List.singleton_append, ← List.append_assoc]
      rfl

theorem merge_of_rejected (h : m.isAccepted s.requests = false) : m.merge s = s := by
  have hrejected : m.move.isRejected s = true := by
    cases m <;> simpa [Move.isRejected, move, isAccepted] using h
  rw [merge, perform_of_rejected hrejected]

/-! ### Merges in another order -/

theorem accept_congr {κ : Type} {r : Fetched κ}
    (h : l'.slots.get r.concern = l.slots.get r.concern) : (l'.accept r).1 = (l.accept r).1 := by
  unfold Lifecycle.accept Lifecycle.isCurrent
  rw [h]
  split <;> rfl

theorem isAccepted_congr (h : l'.slots.get m.concern = l.slots.get m.concern) :
    m.isAccepted l' = m.isAccepted l := by
  cases m <;> exact accept_congr h

theorem Known.mono {d d' : Diagram} (h : m.Known d) (hd : d.nextNode ≤ d'.nextNode) :
    m.Known d' := by
  cases m with
  | counts r => exact fun id hid => Nat.lt_of_lt_of_le (h id hid) hd
  | autoLoad | results => trivial

theorem Known.merge (h : m.Known s.diagram) (m' : Merge) : m.Known (m'.merge s).diagram :=
  h.mono (deeds_move m'.move s).continues.nextNode

/-- The diagram becomes the same, and the same is told of it. -/
theorem diagram_comm (hpart : m.part ≠ m'.part) (h : m.Known s.diagram) (h' : m'.Known s.diagram) :
    m'.diagram s (m.diagram s s.diagram) = m.diagram s (m'.diagram s s.diagram) ∧
      m'.told s (m.diagram s s.diagram) = m'.told s s.diagram ∧
      m.told s (m'.diagram s s.diagram) = m.told s s.diagram := by
  have hkeep (n : Node) (count : Nat) (rows : List Row) :
      unselectedRows s { n with count } rows = unselectedRows s n rows := rfl
  cases m <;> cases m'
  case counts.autoLoad r r' =>
    obtain ⟨hd, htold⟩ := withAllCandidates_storeCounts hkeep h (answeredCounts r.outcome)
      r'.context (answeredRows r'.outcome)
    exact ⟨hd, htold, rfl⟩
  case autoLoad.counts r r' =>
    obtain ⟨hd, htold⟩ := withAllCandidates_storeCounts hkeep h' (answeredCounts r'.outcome)
      r.context (answeredRows r.outcome)
    exact ⟨hd.symm, rfl, htold⟩
  all_goals first
    | exact ⟨rfl, rfl, rfl⟩
    | exact absurd rfl hpart

theorem rows_comm (hpart : m.part ≠ m'.part) (s : Session) :
    m'.rows (m.rows s.results) = m.rows (m'.rows s.results) ∧
      m'.graphRows (m.graphRows s.graphResults) = m.graphRows (m'.graphRows s.graphResults) ∧
      m'.graphFeed s.listening (m.graphFeed s.listening s.graphFeed) =
        m.graphFeed s.listening (m'.graphFeed s.listening s.graphFeed) := by
  cases m <;> cases m' <;> first
    | exact ⟨rfl, rfl, rfl⟩
    | exact absurd rfl hpart

end Merge

/-- The same events in another order, all else is the same. -/
def Session.Reordered (s s' : Session) : Prop :=
  ∃ events, events.Perm s.events ∧ s' = { s with events }

namespace Session

variable {s s' s'' : Session} {m m' : Merge}

theorem Reordered.refl (s : Session) : s.Reordered s := ⟨s.events, .refl _, rfl⟩

theorem Reordered.trans (h : s.Reordered s') (h' : s'.Reordered s'') : s.Reordered s'' := by
  obtain ⟨events, hperm, rfl⟩ := h
  obtain ⟨events', hperm', rfl⟩ := h'
  exact ⟨events', hperm'.trans hperm, rfl⟩

/-- No merge looks at the events before. -/
theorem Reordered.merge (h : s.Reordered s') (hc : m.concern ≠ .value) :
    (m.merge s).Reordered (m.merge s') := by
  obtain ⟨events, hperm, rfl⟩ := h
  cases ha : m.isAccepted s.requests with
  | false =>
    rw [Merge.merge_of_rejected ha, Merge.merge_of_rejected (s := { s with events }) ha]
    exact ⟨events, hperm, rfl⟩
  | true =>
    rw [Merge.merge_of_accepted hc ha, Merge.merge_of_accepted (s := { s with events }) hc ha]
    exact ⟨events ++ m.told s s.diagram, hperm.append_right _, rfl⟩

end Session

namespace Merge

open Session

variable {s : Session} {m m' : Merge}

theorem set_comm (slots : Slots) (c c' : Concern) :
    (slots.set c none).set c' none = (slots.set c' none).set c none := by
  cases c <;> cases c' <;> rfl

theorem diagram_effect (m m' : Merge) (s : Session) (d : Diagram) :
    m'.diagram (m.effect s) d = m'.diagram s d := by
  cases m' <;> rfl

theorem told_effect (m m' : Merge) (s : Session) (d : Diagram) :
    m'.told (m.effect s) d = m'.told s d := by
  cases m' <;> rfl

theorem effect_comm (hpart : m.part ≠ m'.part) (h : m.Known s.diagram) (h' : m'.Known s.diagram) :
    (m'.effect (m.effect s)).Reordered (m.effect (m'.effect s)) := by
  obtain ⟨hdiagram, htold', htold⟩ := diagram_comm hpart h h'
  obtain ⟨hrows, hgraphRows, hfeed⟩ := rows_comm hpart s
  refine ⟨s.events ++ m'.told s s.diagram ++ m.told s s.diagram, ?_, ?_⟩
  · have hevents : (m'.effect (m.effect s)).events =
        s.events ++ m.told s s.diagram ++ m'.told s s.diagram := by
      show s.events ++ m.told s s.diagram ++
        m'.told (m.effect s) (m.diagram s s.diagram) = _
      rw [told_effect, htold']
    rw [hevents, List.append_assoc, List.append_assoc]
    exact List.perm_append_comm.append_left _
  · rw [effect, diagram_effect, told_effect]
    have hd : (m'.effect (m.effect s)).diagram = m'.diagram s (m.diagram s s.diagram) :=
      diagram_effect m m' s _
    rw [hd]
    unfold effect
    dsimp only
    rw [set_comm, hdiagram, hrows, hgraphRows, hfeed, htold]

theorem concern_ne_value (h : m.concern = m.part) : m.concern ≠ .value := by
  rw [h]
  cases m <;> simp [part]

/-- A merge leaves the requests for other concerns alone. -/
theorem isAccepted_effect (hne : m.concern ≠ m'.concern) (s : Session) :
    m'.isAccepted (m.effect s).requests = m'.isAccepted s.requests :=
  isAccepted_congr (by
    show (s.requests.slots.set m.concern none).get m'.concern = _
    rw [Slots.get_set, if_neg (Ne.symm hne)])

/-- Merges of different parts may be swapped. -/
theorem merge_comm (hfits : m.concern = m.part) (hfits' : m'.concern = m'.part)
    (hpart : m.part ≠ m'.part) (h : m.Known s.diagram) (h' : m'.Known s.diagram) :
    (m'.merge (m.merge s)).Reordered (m.merge (m'.merge s)) := by
  have hc := concern_ne_value hfits
  have hc' := concern_ne_value hfits'
  have hne : m.concern ≠ m'.concern := by rwa [hfits, hfits']
  have hafter := isAccepted_effect hne s
  have hafter' := isAccepted_effect hne.symm s
  cases ha : m.isAccepted s.requests with
  | false =>
    rw [merge_of_rejected ha]
    cases ha' : m'.isAccepted s.requests with
    | false =>
      rw [merge_of_rejected ha', merge_of_rejected ha]
      exact .refl s
    | true =>
      rw [merge_of_accepted hc' ha', merge_of_rejected (hafter'.trans ha)]
      exact .refl _
  | true =>
    rw [merge_of_accepted hc ha]
    cases ha' : m'.isAccepted s.requests with
    | false =>
      rw [merge_of_rejected ha', merge_of_rejected (hafter.trans ha'), merge_of_accepted hc ha]
      exact .refl _
    | true =>
      rw [merge_of_accepted hc' ha', merge_of_accepted hc' (hafter.trans ha'),
        merge_of_accepted hc (hafter'.trans ha)]
      exact effect_comm hpart h h'

/-! ### Any order -/

/-- Merges answers in turn. -/
def mergeAll : List Merge → Session → Session
  | [], s => s
  | m :: rest, s => mergeAll rest (m.merge s)

/-- Answers, at most one for each part, that may be merged. -/
structure Ready (answers : List Merge) (d : Diagram) : Prop where
  fits : ∀ m ∈ answers, m.concern = m.part
  known : ∀ m ∈ answers, m.Known d
  parts : ∀ m ∈ answers, ∀ m' ∈ answers, m = m' ∨ m.part ≠ m'.part

theorem Ready.subset {answers some : List Merge} {d : Diagram} (h : Ready answers d)
    (hs : some ⊆ answers) : Ready some d where
  fits m hm := h.fits m (hs hm)
  known m hm := h.known m (hs hm)
  parts m hm m' hm' := h.parts m (hs hm) m' (hs hm')

theorem Ready.merge {answers : List Merge} (h : Ready answers s.diagram) (m : Merge) :
    Ready answers (m.merge s).diagram :=
  ⟨h.fits, fun m' hm' => (h.known m' hm').merge m, h.parts⟩

theorem reordered_mergeAll {s' : Session} {answers : List Merge} (hs : s.Reordered s')
    (hfits : ∀ m ∈ answers, m.concern = m.part) :
    (mergeAll answers s).Reordered (mergeAll answers s') := by
  induction answers generalizing s s' with
  | nil => exact hs
  | cons m rest ih =>
    have hc : m.concern ≠ .value := concern_ne_value (hfits m (by simp))
    exact ih (hs.merge hc) fun m' hm' => hfits m' (by simp [hm'])

theorem Ready.reordered {answers order : List Merge} (h : Ready answers s.diagram)
    (hperm : answers.Perm order) : (mergeAll answers s).Reordered (mergeAll order s) := by
  induction hperm generalizing s with
  | nil => exact .refl s
  | cons m _ ih => exact ih ((h.merge m).subset (List.subset_cons_self ..))
  | swap m m' rest =>
    have hfits {x : Merge} (hx : x ∈ rest) : x.concern = x.part := h.fits x (by simp [hx])
    refine reordered_mergeAll ?_ fun x hx => hfits hx
    rcases h.parts m (by simp) m' (by simp) with rfl | hpart
    · exact .refl _
    · exact merge_comm (h.fits m' (by simp)) (h.fits m (by simp)) (Ne.symm hpart)
        (h.known m' (by simp)) (h.known m (by simp))
  | trans hfirst _ ih ih' => exact (ih h).trans (ih' (h.subset hfirst.symm.subset))

theorem mergeAll_append (first rest : List Merge) (s : Session) :
    mergeAll (first ++ rest) s = mergeAll rest (mergeAll first s) := by
  induction first generalizing s with
  | nil => rfl
  | cons m first ih => exact ih (m.merge s)

/-- Merging an answer if there is one. -/
theorem mergeAll_toList {α : Type} (f : α → Call Bool) (k : α → Merge)
    (hk : ∀ a s, (k a).merge s = (f a s).2) (answer : Option α) (s : Session) :
    mergeAll (answer.toList.map k) s = (applyIfAny f answer s).2 := by
  cases answer with
  | none => rfl
  | some a => exact hk a s

/-- Merging an update is merging its parts in turn. -/
theorem applyUpdate_snd (r : UpdateFetched) (s : Session) :
    (applyUpdate r s).2 = mergeAll r.merges s := by
  obtain ⟨counts, s₁, h₁⟩ := succeeds_applyIfAny succeeds_applyCounts r.counts s
  obtain ⟨autoLoad, s₂, h₂⟩ := succeeds_applyIfAny succeeds_applyAutoLoad r.autoLoad s₁
  obtain ⟨results, s₃, h₃⟩ := succeeds_applyIfAny succeeds_applyResults r.results s₂
  have hcounts : mergeAll (r.counts.toList.map .counts) s = s₁ := by
    rw [mergeAll_toList applyCounts .counts fun a s => handing_snd _ _ s, h₁]
  have hautoLoad : mergeAll (r.autoLoad.toList.map .autoLoad) s₁ = s₂ := by
    rw [mergeAll_toList applyAutoLoad .autoLoad fun a s => handing_snd _ _ s, h₂]
  have hresults : mergeAll (r.results.toList.map .results) s₂ = s₃ := by
    rw [mergeAll_toList applyResults .results fun a s => handing_snd _ _ s, h₃]
  rw [UpdateFetched.merges, mergeAll_append, mergeAll_append, hcounts, hautoLoad, hresults,
    applyUpdate, Call.bind_ok h₁, Call.bind_ok h₂, Call.bind_ok h₃]
  rfl

end Merge

/-- The answers come from requests that were handed out, each from one for its part. -/
structure World.Expects (w : World) (r : UpdateFetched) : Prop where
  counts : ∀ a, r.counts = some a → a.concern = .count ∧ World.Awaits w.handed.lists a
  autoLoad : ∀ a, r.autoLoad = some a → a.concern = .autoLoad ∧ World.Awaits w.handed.lists a
  results : ∀ a, r.results = some a → a.concern = .results ∧ World.Awaits w.handed.flags a

namespace Merge

open Session

variable {w : World} {r : UpdateFetched}

theorem ready_of_expects (hw : w.Informed) (hr : w.Expects r) :
    Ready r.merges w.session.diagram := by
  have hcases {m : Merge} (hm : m ∈ r.merges) :
      (∃ a, r.counts = some a ∧ m = .counts a) ∨ (∃ a, r.autoLoad = some a ∧ m = .autoLoad a) ∨
        ∃ a, r.results = some a ∧ m = .results a := by
    simp only [UpdateFetched.merges, List.mem_append, List.mem_map, Option.mem_toList] at hm
    rcases hm with (⟨a, ha, rfl⟩ | ⟨a, ha, rfl⟩) | ⟨a, ha, rfl⟩
    · exact .inl ⟨a, ha, rfl⟩
    · exact .inr (.inl ⟨a, ha, rfl⟩)
    · exact .inr (.inr ⟨a, ha, rfl⟩)
  refine ⟨fun m hm => ?_, fun m hm => ?_, fun m hm m' hm' => ?_⟩
  · rcases hcases hm with ⟨a, ha, rfl⟩ | ⟨a, ha, rfl⟩ | ⟨a, ha, rfl⟩
    · exact (hr.counts a ha).1
    · exact (hr.autoLoad a ha).1
    · exact (hr.results a ha).1
  · rcases hcases hm with ⟨a, ha, rfl⟩ | ⟨a, ha, rfl⟩ | ⟨a, ha, rfl⟩
    · obtain ⟨-, f, hf, hanswers⟩ := hr.counts a ha
      intro id hid
      rw [hanswers.context] at hid
      exact hw.known f hf id hid
    · trivial
    · trivial
  · rcases hcases hm with ⟨a, ha, rfl⟩ | ⟨a, ha, rfl⟩ | ⟨a, ha, rfl⟩ <;>
      rcases hcases hm' with ⟨a', ha', rfl⟩ | ⟨a', ha', rfl⟩ | ⟨a', ha', rfl⟩ <;>
      first
        | exact .inl (by rw [Option.some.inj (ha.symm.trans ha')])
        | exact .inr (by simp [part])

/-- Merging an update is merging its parts in turn, and in any other order they lead to the same
session, apart from the order of the events. -/
theorem merges_commute (provider : Provider) (settings : QuerySettings) (actions : List Action)
    {r : UpdateFetched} (hr : (World.takeAll actions (World.new provider settings)).Expects r)
    {order : List Merge} (ho : order.Perm r.merges) :
    let s := (World.takeAll actions (World.new provider settings)).session
    (applyUpdate r s).2 = mergeAll r.merges s ∧
      (mergeAll r.merges s).Reordered (mergeAll order s) := by
  have hinformed := (World.informed_new provider settings).takeAll actions
  exact ⟨applyUpdate_snd r _, (ready_of_expects hinformed hr).reordered ho.symm⟩

/-- Candidates of cities are loaded on their own. -/
def offeringCities : Provider :=
  { Provider.plain with properties := fun label => { autoLoad := label == "City" } }

/-- One city was offered. -/
def offeredCity : List Row := [Table.ofList [("label", .str "City"), ("count", .ofNat 2)]]

/-- A city shows a candidate while an update is on its way. -/
def showingCity : List Action :=
  [.move (.placeRoot "City" none), .move .beginUpdate,
    .move (.applyAutoLoad ⟨.autoLoad, 2, [⟨0⟩], .completed [offeredCity]⟩),
    .move (.showCandidates ⟨0⟩), .move .beginUpdate]

/-- The answers to the update of the city. The candidates did not arrive. -/
def cityAnswers : UpdateFetched where
  counts := some ⟨.count, 4, [⟨0⟩], .completed [offeredCity]⟩
  autoLoad := some ⟨.autoLoad, 5, [⟨0⟩], .failed "timeout"⟩
  results := some ⟨.results, 6, false, .completed [offeredCity]⟩

/-- The candidate that is shown goes when its node is counted before that, or after. -/
theorem merges_commute_for_city :
    let s := (World.takeAll showingCity (World.new offeringCities {})).session
    (∀ m ∈ cityAnswers.merges, m.isAccepted s.requests = true) ∧
      s.diagram.nodes.map (fun n => (n.id.number, n.count)) = [(0, 0), (1, 2)] ∧
      (mergeAll cityAnswers.merges s).diagram.nodes.map (fun n => (n.id.number, n.count)) =
        [(0, 2)] ∧
      (mergeAll cityAnswers.merges s).Reordered (mergeAll cityAnswers.merges.reverse s) := by
  have hr : (World.takeAll showingCity (World.new offeringCities {})).Expects cityAnswers := by
    refine ⟨fun a ha => ?_, fun a ha => ?_, fun a ha => ?_⟩
    all_goals rw [← Option.some.inj ha]
    · exact ⟨rfl, ⟨.count, 4, [⟨0⟩], false⟩, by decide +kernel, rfl, rfl, rfl⟩
    · exact ⟨rfl, ⟨.autoLoad, 5, [⟨0⟩], false⟩, by decide +kernel, rfl, rfl, rfl⟩
    · exact ⟨rfl, ⟨.results, 6, false, false⟩, by decide +kernel, rfl, rfl, rfl⟩
  exact ⟨by decide +kernel, by decide +kernel, by decide +kernel,
    (merges_commute offeringCities {} showingCity hr (List.reverse_perm _)).2⟩

end Merge

end PatternQuery
