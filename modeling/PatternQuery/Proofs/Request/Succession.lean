import PatternQuery.Request.Lifecycle

/-!
# Requests over time

Whatever happens to requests, generations go up, the batch that was sent under a generation stays
the same, and a request that is not live any more never becomes live again (`Lifecycle.Later`).
Every operation leads to a later state; issuing a request supersedes the live one of its concern.
-/

namespace PatternQuery

/-- What a flight keeps from its departure on. -/
def Flight.stamp (f : Flight) : Nat × Batch := (f.generation, f.batch)

namespace Lifecycle

/-- The batch that was sent under a generation. -/
def batch? (l : Lifecycle) (generation : Nat) : Option Batch :=
  (l.flight? generation).map Flight.batch

/-- No generation has been used that was not given out. -/
def Bounded (l : Lifecycle) : Prop := ∀ f ∈ l.flights, f.generation ≤ l.generation

/-- `l'` may be what becomes of `l`. -/
structure Later (l l' : Lifecycle) : Prop where
  bounded : l'.Bounded
  generation : l.generation ≤ l'.generation
  batch : ∀ g b, l.batch? g = some b → l'.batch? g = some b
  live : ∀ c g, g ≤ l.generation → l'.slots.get c = some g → l.slots.get c = some g

variable {l l' l'' : Lifecycle} {κ : Type} {g : Nat} {c : Concern}

theorem Later.refl (h : l.Bounded) : l.Later l := ⟨h, Nat.le_refl _, fun _ _ => id, fun _ _ _ => id⟩

theorem Later.trans (h : l.Later l') (h' : l'.Later l'') : l.Later l'' where
  bounded := h'.bounded
  generation := Nat.le_trans h.generation h'.generation
  batch g b hb := h'.batch g b (h.batch g b hb)
  live c g hg hl := h.live c g hg (h'.live c g (Nat.le_trans hg h.generation) hl)

theorem batch?_eq (l : Lifecycle) (g : Nat) :
    l.batch? g = ((l.flights.map Flight.stamp).find? fun s => s.1 == g).map Prod.snd := by
  rw [batch?, flight?, List.find?_map, Option.map_map]
  rfl

theorem bounded_iff : l.Bounded ↔ ∀ s ∈ l.flights.map Flight.stamp, s.1 ≤ l.generation := by
  simp [Bounded, Flight.stamp]

/-- Flights may end and slots may be cleared. -/
theorem Bounded.later_of_stamps (h : l.Bounded) (hg : l'.generation = l.generation)
    (hf : l'.flights.map Flight.stamp = l.flights.map Flight.stamp)
    (hs : ∀ c, l'.slots.get c = l.slots.get c ∨ l'.slots.get c = none) : l.Later l' where
  bounded := by
    rw [bounded_iff, hf, hg]
    exact bounded_iff.1 h
  generation := Nat.le_of_eq hg.symm
  batch g b hb := by
    rw [batch?_eq] at hb ⊢
    rwa [hf]
  live c g _ hl := by
    rcases hs c with e | e
    · rwa [e] at hl
    · rw [e] at hl
      simp at hl

/-! ## Answers and cancellation -/

theorem stamp_settle (g : Nat) (o : Outcome) (l : Lifecycle) :
    (l.settle g o).flights.map Flight.stamp = l.flights.map Flight.stamp := by
  simp only [settle, List.map_map]
  refine List.map_congr_left fun f _ => ?_
  simp only [Function.comp]
  split <;> rfl

theorem flight?_settle (g : Nat) (o : Outcome) (l : Lifecycle) :
    (l.settle g o).flight? g = (l.flight? g).map fun f =>
      if f.outcome = none then { f with outcome := some o } else f := by
  have hgeneration : (fun f : Flight => f.generation == g) ∘ (fun f : Flight =>
      if f.generation = g ∧ f.outcome = none then { f with outcome := some o } else f) =
        fun f => f.generation == g := by
    funext f
    simp only [Function.comp]
    split <;> rfl
  simp only [flight?, settle, List.find?_map]
  rw [hgeneration]
  cases hf : l.flights.find? fun f => f.generation == g with
  | none => rfl
  | some f =>
    have : f.generation = g := by simpa using List.find?_some hf
    simp [this]

theorem Bounded.later_settle (h : l.Bounded) (g : Nat) (o : Outcome) : l.Later (l.settle g o) :=
  h.later_of_stamps rfl (stamp_settle g o l) fun _ => .inl rfl

theorem Bounded.later_cancelEach (h : l.Bounded) (gs : List Nat) : l.Later (l.cancelEach gs) := by
  induction gs generalizing l with
  | nil => exact .refl h
  | cons g gs ih =>
    have hg := h.later_settle g .aborted
    exact hg.trans (ih hg.bounded)

@[simp] theorem cancelEach_slots (gs : List Nat) (l : Lifecycle) :
    (l.cancelEach gs).slots = l.slots := by
  induction gs generalizing l with
  | nil => rfl
  | cons g gs ih => exact ih (l.cancel g)

@[simp] theorem cancelEach_generation (gs : List Nat) (l : Lifecycle) :
    (l.cancelEach gs).generation = l.generation := by
  induction gs generalizing l with
  | nil => rfl
  | cons g gs ih => exact ih (l.cancel g)

theorem Bounded.later_releaseGuard (h : l.Bounded) (g : Nat) : l.Later (l.releaseGuard g) := by
  unfold releaseGuard
  split
  · exact h.later_of_stamps rfl rfl fun _ => .inl rfl
  · exact .refl h

@[simp] theorem releaseGuard_slots (g : Nat) (l : Lifecycle) :
    (l.releaseGuard g).slots = l.slots := by
  unfold releaseGuard
  split <;> rfl

theorem Bounded.later_cancelAll (h : l.Bounded) : l.Later l.cancelAll := by
  have h1 := h.later_cancelEach l.slots.toList
  have h2 := h1.bounded.later_cancelEach (l.discoveries.map (·.2))
  exact (h1.trans h2).trans (h2.bounded.later_of_stamps rfl rfl fun c => .inr (by cases c <;> rfl))

/-! ## Issuing -/

theorem Bounded.later_send (h : l.Bounded) (batch : Batch) : l.Later (l.send batch).2 where
  bounded f hf := by
    show f.generation ≤ l.generation + 1
    rcases List.mem_append.1 hf with hf | hf
    · exact Nat.le_succ_of_le (h f hf)
    · obtain rfl := List.mem_singleton.1 hf
      exact Nat.le_refl _
  generation := Nat.le_succ _
  batch g b hb := by
    obtain ⟨f, hf, rfl⟩ := Option.map_eq_some_iff.1 hb
    have hf' : (l.send batch).2.flight? g = some f := by
      rw [flight?] at hf ⊢
      show (l.flights ++ _).find? _ = some f
      rw [List.find?_append, hf, Option.some_or]
    rw [batch?, hf', Option.map_some]
  live _ _ _ hl := hl

/-- The batch is on its way under the new generation. -/
theorem Bounded.flight?_send (h : l.Bounded) (batch : Batch) :
    (l.send batch).2.flight? (l.generation + 1) =
      some { generation := l.generation + 1, batch } := by
  have hnone : (l.flights.find? fun f => f.generation == l.generation + 1) = none := by
    rw [List.find?_eq_none]
    intro f hf e
    have := h f hf
    have : f.generation = l.generation + 1 := by simpa using e
    omega
  rw [flight?]
  show (l.flights ++ _).find? _ = _
  rw [List.find?_append, hnone]
  simp

theorem Bounded.batch?_send (h : l.Bounded) (batch : Batch) :
    (l.send batch).2.batch? (l.generation + 1) = some batch := by
  rw [batch?, h.flight?_send, Option.map_some]

/-- A new generation takes the place of an old one. -/
theorem Bounded.later_issue (h : l.Bounded) (c : Concern) (batch : Batch) (context : κ) :
    l.Later (l.issue c batch context).2 := by
  have hc := h.later_cancelEach (l.slots.get c).toList
  have hsend := hc.trans (hc.bounded.later_send batch)
  refine ⟨hsend.bounded, hsend.generation, hsend.batch, fun c' g hg hl => ?_⟩
  rw [issue] at hl
  simp only [send, Slots.get_set, cancelEach_slots, cancelEach_generation] at hl
  split at hl
  · have := Option.some.inj hl
    omega
  · exact hl

theorem issue_fst (c : Concern) (batch : Batch) (context : κ) (l : Lifecycle) :
    (l.issue c batch context).1 =
      { concern := c, generation := l.generation + 1, context := context } := by
  simp [issue, send]

theorem issue_generation (c : Concern) (batch : Batch) (context : κ) (l : Lifecycle) :
    (l.issue c batch context).2.generation = l.generation + 1 := by
  simp [issue, send]

theorem issue_slots (c : Concern) (batch : Batch) (context : κ) (l : Lifecycle) :
    (l.issue c batch context).2.slots = l.slots.set c (some (l.generation + 1)) := by
  simp [issue, send]

theorem Bounded.batch?_issue (h : l.Bounded) (c : Concern) (batch : Batch) (context : κ) :
    (l.issue c batch context).2.batch? (l.generation + 1) = some batch := by
  have := (h.later_cancelEach (l.slots.get c).toList).bounded.batch?_send batch
  rwa [cancelEach_generation] at this

theorem Bounded.later_issueValue (h : l.Bounded) (batch : Batch) (context : κ) :
    l.Later (l.issueValue batch context).2 := by
  unfold issueValue
  split
  · exact .refl h
  · have hi := h.later_issue .value batch context
    exact hi.trans (hi.bounded.later_of_stamps rfl rfl fun _ => .inl rfl)

/-- A fetch of candidate values touches no slot but its own. -/
theorem issueValue_slots (batch : Batch) (context : κ) (l : Lifecycle) (hc : c ≠ .value) :
    (l.issueValue batch context).2.slots.get c = l.slots.get c := by
  unfold issueValue
  split
  · rfl
  · show (l.issue .value batch context).2.slots.get c = _
    rw [issue_slots, Slots.get_set, if_neg hc]

@[simp] theorem issueDiscovery_slots (node : NodeId) (batch : Batch) (l : Lifecycle) :
    (l.issueDiscovery node batch).2.slots = l.slots := by
  simp [issueDiscovery, send, forgetDiscovery]

theorem Bounded.later_issueDiscovery (h : l.Bounded) (node : NodeId) (batch : Batch) :
    l.Later (l.issueDiscovery node batch).2 := by
  have hc := h.later_cancelEach (l.discovery? node).toList
  have hforget (l' : Lifecycle) (h' : l'.Bounded) : l'.Later (l'.forgetDiscovery node) :=
    h'.later_of_stamps rfl rfl fun _ => .inl rfl
  have hf := hc.trans (hforget _ hc.bounded)
  have hs := hf.trans (hf.bounded.later_send batch)
  exact hs.trans (hs.bounded.later_of_stamps rfl rfl fun _ => .inl rfl)

theorem issueDiscovery_fst (node : NodeId) (batch : Batch) (l : Lifecycle) :
    (l.issueDiscovery node batch).1 =
      { concern := .relations, generation := l.generation + 1, context := node } := by
  simp [issueDiscovery, send, forgetDiscovery]

theorem Bounded.flight?_issueDiscovery (h : l.Bounded) (node : NodeId) (batch : Batch) :
    (l.issueDiscovery node batch).2.flight? (l.generation + 1) =
      some { generation := l.generation + 1, batch } := by
  let before := (l.cancelEach (l.discovery? node).toList).forgetDiscovery node
  have hbounded : before.Bounded := (h.later_cancelEach (l.discovery? node).toList).bounded
  have hg : before.generation = l.generation := cancelEach_generation _ l
  have hsend := hbounded.flight?_send batch
  rwa [hg] at hsend

/-! ## Acceptance -/

/-- Accepting an answer clears the slot of its concern at most. -/
theorem accept_slots (r : Fetched κ) (l : Lifecycle) (c : Concern) :
    (l.accept r).2.slots.get c = l.slots.get c ∨ (l.accept r).2.slots.get c = none := by
  unfold accept
  split
  · exact .inl rfl
  · have hclear : (l.slots.set r.concern none).get c = l.slots.get c ∨
        (l.slots.set r.concern none).get c = none := by
      rw [Slots.get_set]
      split
      · exact .inr rfl
      · exact .inl rfl
    dsimp only
    split
    · rwa [releaseGuard_slots]
    · exact hclear

theorem Bounded.later_accept (h : l.Bounded) (r : Fetched κ) : l.Later (l.accept r).2 := by
  unfold accept
  split
  · exact .refl h
  · have hclear : l.Later { l with slots := l.slots.set r.concern none } := by
      refine h.later_of_stamps rfl rfl fun c => ?_
      rw [Slots.get_set]
      split
      · exact .inr rfl
      · exact .inl rfl
    dsimp only
    split
    · exact hclear.trans (hclear.bounded.later_releaseGuard _)
    · exact hclear

/-- What is accepted was live. -/
theorem live_of_accept {r : Fetched κ} (h : (l.accept r).1 = true) :
    l.slots.get r.concern = some r.generation := by
  unfold accept at h
  split at h
  · simp at h
  · rename_i hn
    have hn : r.outcome ≠ .aborted ∧ l.slots.get r.concern = some r.generation := by
      simpa [isCurrent] using hn
    exact hn.2

/-- Once an answer is accepted, no request is live for its concern. -/
theorem get_of_accept {r : Fetched κ} (h : (l.accept r).1 = true) :
    (l.accept r).2.slots.get r.concern = none := by
  unfold accept at h ⊢
  split at h
  · cases h
  · rename_i hlive
    rw [if_neg hlive]
    dsimp only
    split <;> simp

/-- An answer to a request that is not live is not accepted and changes nothing. -/
theorem accept_of_not_live {r : Fetched κ} (h : l.slots.get r.concern ≠ some r.generation) :
    l.accept r = (false, l) := by
  unfold accept
  rw [if_pos]
  right
  simpa [isCurrent] using h

theorem accept_of_live {r : Fetched κ} (h : l.slots.get r.concern = some r.generation)
    (ho : r.outcome ≠ .aborted) : (l.accept r).1 = true := by
  unfold accept
  rw [if_neg]
  simp [isCurrent, h, ho]

theorem Bounded.later_acceptDiscovery (h : l.Bounded) (r : Fetched NodeId) :
    l.Later (l.acceptDiscovery r).2 := by
  unfold acceptDiscovery
  split
  · exact .refl h
  · exact h.later_of_stamps rfl rfl fun _ => .inl rfl

@[simp] theorem acceptDiscovery_slots (r : Fetched NodeId) (l : Lifecycle) :
    (l.acceptDiscovery r).2.slots = l.slots := by
  unfold acceptDiscovery
  split <;> rfl

/-! ## The end of a request -/

theorem Bounded.later_wait (h : l.Bounded) (f : Fetch κ) : l.Later (l.wait f).2 := by
  unfold wait
  split
  · exact .refl h
  · dsimp only
    split
    · exact h.later_releaseGuard _
    · exact .refl h

@[simp] theorem wait_slots (f : Fetch κ) (l : Lifecycle) : (l.wait f).2.slots = l.slots := by
  unfold wait
  split
  · rfl
  · dsimp only
    split
    · exact releaseGuard_slots f.generation l
    · rfl

@[simp] theorem drop_slots (f : Fetch κ) (l : Lifecycle) : (l.drop f).slots = l.slots := by
  unfold drop
  split
  · exact releaseGuard_slots f.generation _
  · rfl

theorem Bounded.later_drop (h : l.Bounded) (f : Fetch κ) : l.Later (l.drop f) := by
  unfold drop
  split
  · have hs := h.later_settle f.generation .aborted
    exact hs.trans (hs.bounded.later_releaseGuard _)
  · exact .refl h

/-- A discovery that the endpoint answers comes to its end. -/
theorem Bounded.wait_issueDiscovery (h : l.Bounded) {e : Endpoint} {o : Outcome} (node : NodeId)
    {batch : Batch} (ho : e { generation := l.generation + 1, batch } = some o) :
    ∃ l', ((l.issueDiscovery node batch).2.consult e (l.generation + 1)).wait
      (l.issueDiscovery node batch).1 = (some ⟨.relations, l.generation + 1, node, o⟩, l') := by
  have hflight := h.flight?_issueDiscovery node batch
  rw [issueDiscovery_fst, consult, hflight]
  dsimp only
  rw [ho]
  dsimp only
  rw [wait, flight?_settle, hflight]
  exact ⟨_, rfl⟩

end Lifecycle

end PatternQuery
