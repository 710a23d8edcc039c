import PatternQuery.Proofs.Request.Succession
import Mathlib.Data.List.Find

/-!
# Lanes

Requests compete in lanes: there is one for every concern, and one for the discoveries of every
node. For every operation on requests this says what becomes of the live request of each lane, of
the guard, and which requests it cancels.
-/

namespace PatternQuery

/-- Where a request competes with others. -/
inductive Lane where
  | concern (c : Concern)
  | node (id : NodeId)
  deriving DecidableEq

/-- The lanes for a concern and a context. A discovery is for relations, but has the lane of its
node. -/
inductive Lane.Of : {κ : Type} → Lane → Concern → κ → Prop where
  | concern {κ : Type} (c : Concern) (context : κ) : Of (.concern c) c context
  | node (id : NodeId) : Of (.node id) .relations id

/-- What becomes of a fetch that ends. -/
def Fetch.answered {κ : Type} (f : Fetch κ) (o : Outcome) : Fetched κ :=
  { concern := f.concern, generation := f.generation, context := f.context, outcome := o }

namespace Lifecycle

variable {l : Lifecycle} {κ : Type} {g : Nat}

/-- The generation of the live request of a lane. -/
def live (l : Lifecycle) : Lane → Option Nat
  | .concern c => l.slots.get c
  | .node id => l.discovery? id

/-- Some batch of the generation was cancelled. -/
def Aborted (l : Lifecycle) (g : Nat) : Prop :=
  ∃ f ∈ l.flights, f.generation = g ∧ f.outcome = some .aborted

/-! ## Cancellation -/

theorem Aborted.of_settle {g' : Nat} {o : Outcome} (h : (l.settle g' o).Aborted g) :
    l.Aborted g ∨ (g = g' ∧ o = .aborted) := by
  obtain ⟨f, hf, rfl, ho⟩ := h
  obtain ⟨f, hmem, rfl⟩ := List.mem_map.1 hf
  split at ho
  · rename_i hg
    rw [if_pos hg]
    exact .inr ⟨hg.1, Option.some.inj ho⟩
  · rename_i hg
    rw [if_neg hg]
    exact .inl ⟨f, hmem, rfl, ho⟩

theorem Aborted.of_cancelEach {gs : List Nat} (h : (l.cancelEach gs).Aborted g) :
    l.Aborted g ∨ g ∈ gs := by
  induction gs generalizing l with
  | nil => exact .inl h
  | cons g' gs ih =>
    rcases ih (l := l.cancel g') h with h | h
    · rcases h.of_settle with h | ⟨rfl, -⟩
      · exact .inl h
      · exact .inr List.mem_cons_self
    · exact .inr (List.mem_cons_of_mem _ h)

theorem Aborted.of_send {batch : Batch} (h : (l.send batch).2.Aborted g) : l.Aborted g := by
  obtain ⟨f, hf, rfl, ho⟩ := h
  rcases List.mem_append.1 hf with hf | hf
  · exact ⟨f, hf, rfl, ho⟩
  · obtain rfl := List.mem_singleton.1 hf
    cases ho

theorem Aborted.le (hb : l.Bounded) (h : l.Aborted g) : g ≤ l.generation := by
  obtain ⟨f, hf, rfl, -⟩ := h
  exact hb f hf

/-! ## Waiting -/

theorem wait_of_none {f : Fetch κ} (h : (l.wait f).1 = none) : (l.wait f).2 = l := by
  unfold wait at h ⊢
  split
  · rfl
  · rename_i o hend
    simp [hend] at h

theorem wait_of_some {f : Fetch κ} {r : Fetched κ} (h : (l.wait f).1 = some r) :
    (l.wait f).2 = if f.guarded then l.releaseGuard f.generation else l := by
  unfold wait at h ⊢
  split
  · rename_i hend
    simp [hend] at h
  · rfl

/-- An answer tells what became of the batch. -/
theorem answered_of_wait {f : Fetch κ} {r : Fetched κ} (h : (l.wait f).1 = some r) :
    ∃ o, r = f.answered o ∧ (o = .aborted → l.Aborted f.generation) := by
  unfold wait at h
  split at h
  · cases h
  · rename_i o hend
    obtain ⟨flight, hf, hflight⟩ := Option.bind_eq_some_iff.1 hend
    have hg : flight.generation = f.generation := by simpa using List.find?_some hf
    exact ⟨o, (Option.some.inj h).symm,
      fun ho => ⟨flight, List.mem_of_find?_eq_some hf, hg, by rw [hflight, ho]⟩⟩

/-! ## The guard -/

@[simp] theorem cancelEach_valueOwner (gs : List Nat) (l : Lifecycle) :
    (l.cancelEach gs).valueOwner = l.valueOwner := by
  induction gs generalizing l with
  | nil => rfl
  | cons g gs ih => exact ih (l.cancel g)

@[simp] theorem cancelEach_discoveries (gs : List Nat) (l : Lifecycle) :
    (l.cancelEach gs).discoveries = l.discoveries := by
  induction gs generalizing l with
  | nil => rfl
  | cons g gs ih => exact ih (l.cancel g)

theorem releaseGuard_valueOwner (g : Nat) (l : Lifecycle) :
    (l.releaseGuard g).valueOwner = if l.valueOwner = some g then none else l.valueOwner := by
  unfold releaseGuard
  split <;> rfl

@[simp] theorem releaseGuard_generation (g : Nat) (l : Lifecycle) :
    (l.releaseGuard g).generation = l.generation := by
  unfold releaseGuard
  split <;> rfl

@[simp] theorem releaseGuard_flights (g : Nat) (l : Lifecycle) :
    (l.releaseGuard g).flights = l.flights := by
  unfold releaseGuard
  split <;> rfl

@[simp] theorem releaseGuard_discoveries (g : Nat) (l : Lifecycle) :
    (l.releaseGuard g).discoveries = l.discoveries := by
  unfold releaseGuard
  split <;> rfl

@[simp] theorem releaseGuard_live (g : Nat) (l : Lifecycle) :
    (l.releaseGuard g).live = l.live := by
  unfold releaseGuard
  split
  · funext lane
    cases lane <;> rfl
  · rfl

@[simp] theorem aborted_releaseGuard {g' : Nat} : (l.releaseGuard g').Aborted g ↔ l.Aborted g := by
  simp [Aborted]

/-! ## Discoveries -/

theorem discovery?_forgetDiscovery (node id : NodeId) (l : Lifecycle) :
    (l.forgetDiscovery node).discovery? id = if id = node then none else l.discovery? id := by
  unfold forgetDiscovery discovery?
  rw [List.find?_filter]
  split
  · rename_i hid
    subst hid
    rw [List.find?_eq_none.2 (by simp)]
    rfl
  · rename_i hid
    rw [List.find?_congr fun e _ => ?_]
    cases hk : e.1 == id
    · simp
    · obtain rfl : e.1 = id := by simpa using hk
      simp [hid]

theorem discovery?_record (node id : NodeId) (g : Nat) (h : l.discovery? node = none) :
    { l with discoveries := l.discoveries ++ [(node, g)] }.discovery? id =
      if id = node then some g else l.discovery? id := by
  unfold discovery? at h ⊢
  rw [List.find?_append, Option.map_or]
  split
  · rename_i hid
    subst hid
    rw [h]
    simp
  · rename_i hid
    have hne : ((node, g).1 == id) = false := by simpa using Ne.symm hid
    rw [List.find?_singleton, hne]
    simp

/-! ## Issuing -/

theorem live_issue (c : Concern) (batch : Batch) (context : κ) (lane : Lane) :
    (l.issue c batch context).2.live lane =
      if lane = .concern c then some (l.generation + 1) else l.live lane := by
  cases lane with
  | concern c' =>
    show (l.issue c batch context).2.slots.get c' = _
    rw [issue_slots, Slots.get_set]
    simp only [Lane.concern.injEq]
    rfl
  | node id =>
    rw [if_neg (by simp)]
    simp [live, discovery?, issue, send]

theorem live_issueDiscovery (node : NodeId) (batch : Batch) (lane : Lane) :
    (l.issueDiscovery node batch).2.live lane =
      if lane = .node node then some (l.generation + 1) else l.live lane := by
  cases lane with
  | concern c =>
    rw [if_neg (by simp)]
    simp [live]
  | node id =>
    let m := (l.cancelEach (l.discovery? node).toList).forgetDiscovery node
    have hm (id : NodeId) : m.discovery? id = if id = node then none else l.discovery? id := by
      rw [discovery?_forgetDiscovery]
      simp only [discovery?, cancelEach_discoveries]
    have hrecord := discovery?_record (l := (m.send batch).2) node id (m.generation + 1)
      ((hm node).trans (if_pos rfl))
    have hg : m.generation = l.generation := cancelEach_generation _ l
    show Lifecycle.discovery? _ id = _
    refine hrecord.trans ?_
    rw [hg]
    simp only [Lane.node.injEq]
    split
    · rfl
    · rename_i hid
      exact (hm id).trans (if_neg hid)

theorem issueDiscovery_generation (node : NodeId) (batch : Batch) (l : Lifecycle) :
    (l.issueDiscovery node batch).2.generation = l.generation + 1 := by
  simp [issueDiscovery, send, forgetDiscovery]

theorem issue_valueOwner (c : Concern) (batch : Batch) (context : κ) (l : Lifecycle) :
    (l.issue c batch context).2.valueOwner = l.valueOwner := by
  simp [issue, send]

theorem issueDiscovery_valueOwner (node : NodeId) (batch : Batch) (l : Lifecycle) :
    (l.issueDiscovery node batch).2.valueOwner = l.valueOwner := by
  simp [issueDiscovery, send, forgetDiscovery]

/-- Issuing a request cancels the live one of its lane only. -/
theorem Aborted.of_issue (c : Concern) (batch : Batch) (context : κ)
    (h : (l.issue c batch context).2.Aborted g) : l.Aborted g ∨ l.live (.concern c) = some g := by
  have h : ((l.cancelEach (l.slots.get c).toList).send batch).2.Aborted g := h
  rcases h.of_send.of_cancelEach with h | h
  · exact .inl h
  · exact .inr (by simpa [Lifecycle.live] using h)

theorem Aborted.of_issueDiscovery (node : NodeId) (batch : Batch)
    (h : (l.issueDiscovery node batch).2.Aborted g) :
    l.Aborted g ∨ l.live (.node node) = some g := by
  have h : (((l.cancelEach (l.discovery? node).toList).forgetDiscovery node).send batch).2.Aborted
    g := h
  have h : (l.cancelEach (l.discovery? node).toList).Aborted g := h.of_send
  rcases h.of_cancelEach with h | h
  · exact .inl h
  · exact .inr (by simpa [Lifecycle.live] using h)

theorem live_cancelAll (lane : Lane) : l.cancelAll.live lane = none := by
  cases lane with
  | concern c => cases c <;> rfl
  | node id => rfl

end Lifecycle

end PatternQuery
