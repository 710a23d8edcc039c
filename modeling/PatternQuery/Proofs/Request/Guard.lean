import PatternQuery.Proofs.Request.Ledger

/-!
# The guard of candidate values

The guard is taken exactly while the fetch that took it is under way: it is neither dropped nor
waited for to its end, and there was no reset since it was issued (`Ledger.UnderWay`). So there is
never more than one such fetch, and the end of another one does not touch the guard.
-/

namespace PatternQuery

namespace Ledger

variable {L L' : Ledger} {κ : Type}

/-- A fetch that took the guard is held, and there was no reset since it was issued. -/
structure UnderWay (L : Ledger) (p : Σ κ : Type, Fetch κ) : Prop where
  held : p ∈ L.pending
  guarded : p.2.guarded = true
  since : Since L.log (.issued (.concern .value) p.2.generation) (· = .reset)

/-- The guard belongs to the fetch that is under way. -/
def Warded (L : Ledger) : Prop :=
  ∀ g, L.requests.valueOwner = some g ↔ ∃ p, L.UnderWay p ∧ p.2.generation = g

theorem warded_start : Warded {} := fun g =>
  iff_of_false (by simp) fun ⟨_, h, _⟩ => by simpa using h.held

/-- A mark that is neither a reset nor of this generation leaves a fetch as it is. -/
theorem underWay_iff_of_cons {m : Mark} {p : Σ κ : Type, Fetch κ} (hreset : m ≠ .reset)
    (hissued : m ≠ .issued (.concern .value) p.2.generation)
    (held : p ∈ L'.pending ↔ p ∈ L.pending) (log : L'.log = m :: L.log) :
    L'.UnderWay p ↔ L.UnderWay p := by
  have hsince : Since L'.log (.issued (.concern .value) p.2.generation) (· = .reset) ↔
      Since L.log (.issued (.concern .value) p.2.generation) (· = .reset) := by
    rw [log, since_cons]
    simp [hreset, hissued]
  exact ⟨fun h => ⟨held.1 h.held, h.guarded, hsince.1 h.since⟩,
    fun h => ⟨held.2 h.held, h.guarded, hsince.2 h.since⟩⟩

theorem Warded.enter (h : L.Warded) (ht : L.Tallied) {lane : Lane} {p : Σ κ : Type, Fetch κ}
    (fresh : p.2.generation = L.requests.generation + 1)
    (owner : if p.2.guarded then lane = .concern .value ∧ L.requests.valueOwner = none ∧
        L'.requests.valueOwner = some p.2.generation
      else L'.requests.valueOwner = L.requests.valueOwner)
    (pending : L'.pending = p :: L.pending)
    (log : L'.log = .issued lane p.2.generation :: L.log) : L'.Warded := by
  have hnew {q : Σ κ : Type, Fetch κ} (hq : q ∈ L.pending) :
      q.2.generation ≠ p.2.generation := by
    have := ht.le (ht.pending q hq).issued
    omega
  -- the other fetches are under way as before
  have hother {q : Σ κ : Type, Fetch κ} (hne : q.2.generation ≠ p.2.generation) :
      L'.UnderWay q ↔ L.UnderWay q := by
    refine underWay_iff_of_cons (by simp) (by simp [Ne.symm hne]) ?_ log
    rw [pending, List.mem_cons, or_iff_right]
    rintro rfl
    exact hne rfl
  intro g
  cases hg : p.2.guarded with
  | true =>
    rw [if_pos hg] at owner
    obtain ⟨rfl, hfree, htaken⟩ := owner
    rw [htaken]
    constructor
    · intro e
      exact ⟨p, ⟨by simp [pending], hg, by simp [log]⟩, Option.some.inj e⟩
    · rintro ⟨q, hq, rfl⟩
      rcases List.mem_cons.1 (pending ▸ hq.held) with rfl | hmem
      · rfl
      · -- the guard was free, so no fetch was under way
        have := (h q.2.generation).2 ⟨q, (hother (hnew hmem)).1 hq, rfl⟩
        rw [hfree] at this
        cases this
  | false =>
    rw [if_neg (by simp [hg])] at owner
    rw [owner, h]
    constructor
    · rintro ⟨q, hq, rfl⟩
      exact ⟨q, (hother (hnew hq.held)).2 hq, rfl⟩
    · rintro ⟨q, hq, rfl⟩
      rcases List.mem_cons.1 (pending ▸ hq.held) with rfl | hmem
      · exact absurd hq.guarded (by simp [hg])
      · exact ⟨q, (hother (hnew hmem)).1 hq, rfl⟩

theorem Warded.finish (h : L.Warded) (ht : L.Tallied) {p : Σ κ : Type, Fetch κ}
    (mem : p ∈ L.pending)
    (owner : L'.requests.valueOwner =
      if p.2.guarded ∧ L.requests.valueOwner = some p.2.generation then none
      else L.requests.valueOwner)
    (pending : L'.pending = L.pendingBut p.2.generation) (log : L'.log = L.log) : L'.Warded := by
  have hunder (q : Σ κ : Type, Fetch κ) :
      L'.UnderWay q ↔ L.UnderWay q ∧ q.2.generation ≠ p.2.generation := by
    constructor
    · intro hq
      obtain ⟨hmem, hne⟩ := mem_pendingBut.1 (pending ▸ hq.held)
      exact ⟨⟨hmem, hq.guarded, log ▸ hq.since⟩, hne⟩
    · rintro ⟨hq, hne⟩
      exact ⟨pending ▸ mem_pendingBut.2 ⟨hq.held, hne⟩, hq.guarded, log ▸ hq.since⟩
  intro g
  simp only [hunder, and_assoc]
  rw [owner]
  split
  · rename_i hp
    refine iff_of_false (by simp) ?_
    rintro ⟨q, hq, hne, rfl⟩
    have := (h q.2.generation).2 ⟨q, hq, rfl⟩
    exact hne (Option.some.inj (this.symm.trans hp.2))
  · rename_i hp
    rw [h]
    constructor
    · rintro ⟨q, hq, rfl⟩
      refine ⟨q, hq, fun e => hp ?_, rfl⟩
      obtain rfl := ht.pending_eq q hq.held p mem e
      exact ⟨hq.guarded, (h _).2 ⟨q, hq, rfl⟩⟩
    · rintro ⟨q, hq, -, rfl⟩
      exact ⟨q, hq, rfl⟩

theorem Warded.step (h : L.Warded) (ht : L.Tallied) (hs : L.Step L') : L'.Warded := by
  cases hs.change with
  | idle _ _ owner _ pending _ log =>
    intro g
    rw [owner, h]
    exact exists_congr fun p => and_congr_left fun _ =>
      ⟨fun hp => ⟨pending ▸ hp.held, hp.guarded, log ▸ hp.since⟩,
        fun hp => ⟨pending ▸ hp.held, hp.guarded, log ▸ hp.since⟩⟩
  | entered lane p fresh _ _ _ owner _ pending _ log => exact h.enter ht fresh owner pending log
  | struck lane a mem _ _ _ owner _ pending _ log =>
    intro g
    have howner : L'.requests.valueOwner = L.requests.valueOwner := by
      refine owner.resolve_right fun ⟨hold, _⟩ => ?_
      -- a fetch that was answered is not under way any more
      obtain ⟨p, hp, hg⟩ := (h _).1 hold
      exact ht.ended a mem p hp.held hg
    rw [howner, h]
    exact exists_congr fun p => and_congr_left fun _ =>
      (underWay_iff_of_cons (by simp) (by simp) (by rw [pending]) log).symm
  | ended p mem _ _ owner _ pending _ log => exact h.finish ht mem owner pending log
  | cancelled _ _ owner _ _ log =>
    intro g
    rw [owner]
    refine iff_of_false (by simp) ?_
    rintro ⟨p, hp, -⟩
    simpa [log] using hp.since

theorem Reachable.warded (h : L.Reachable) : L.Warded := by
  induction h with
  | start => exact warded_start
  | step h hs ih => exact ih.step h.tallied hs

theorem Warded.isValueBusy_iff (h : L.Warded) :
    L.requests.isValueBusy = true ↔ ∃ p, L.UnderWay p := by
  rw [Lifecycle.isValueBusy, Option.isSome_iff_exists]
  constructor
  · rintro ⟨g, hg⟩
    obtain ⟨p, hp, -⟩ := (h g).1 hg
    exact ⟨p, hp⟩
  · rintro ⟨p, hp⟩
    exact ⟨p.2.generation, (h _).2 ⟨p, hp, rfl⟩⟩

end Ledger

/-! ## Who touches the guard -/

namespace Lifecycle

variable {l : Lifecycle} {κ : Type}

theorem wait_valueOwner {f : Fetch κ} (h : l.valueOwner ≠ some f.generation) :
    (l.wait f).2.valueOwner = l.valueOwner := by
  cases hw : (l.wait f).1 with
  | none => rw [wait_of_none hw]
  | some r =>
    rw [wait_of_some hw]
    split
    · rw [releaseGuard_valueOwner, if_neg h]
    · rfl

theorem drop_valueOwner {f : Fetch κ} (h : l.valueOwner ≠ some f.generation) :
    (l.drop f).valueOwner = l.valueOwner := by
  unfold drop
  split
  · exact (releaseGuard_valueOwner _ _).trans (if_neg h)
  · rfl

theorem issueValue_of_busy (h : l.isValueBusy = true) (batch : Batch) (context : κ) :
    l.issueValue batch context = (.error .valueFetchInProgress, l) := if_pos h

theorem issueValue_of_free (h : l.isValueBusy = false) (batch : Batch) (context : κ) :
    l.issueValue batch context =
      (.ok { (l.issue .value batch context).1 with guarded := true },
        { (l.issue .value batch context).2 with
          valueOwner := some (l.issue .value batch context).1.generation }) :=
  if_neg (by simp [h])

end Lifecycle

namespace Ledger

variable {L : Ledger} {κ : Type}

/-- At any time, the guard is taken if and only if some fetch that took it is under way. There is
only one such fetch, another one is refused without a trace as long as it is under way, and then
only, and the end of no other fetch frees the guard. -/
theorem guard_of_reachable (h : L.Reachable) :
    (L.requests.isValueBusy = true ↔ ∃ p, L.UnderWay p) ∧
    (∀ p q, L.UnderWay p → L.UnderWay q → p = q) ∧
    (∀ (κ : Type) (batch : Batch) (context : κ),
      (L.requests.isValueBusy = true →
        L.requests.issueValue batch context = (.error .valueFetchInProgress, L.requests)) ∧
      (L.requests.isValueBusy = false →
        ∃ f, (L.requests.issueValue batch context).1 = .ok f ∧
          (L.issueValue batch context).UnderWay ⟨κ, f⟩)) ∧
    (∀ (κ : Type) (f : Fetch κ), ⟨κ, f⟩ ∈ L.pending → ∀ q, L.UnderWay q → q ≠ ⟨κ, f⟩ →
      (L.requests.wait f).2.valueOwner = L.requests.valueOwner ∧
      (L.requests.drop f).valueOwner = L.requests.valueOwner) ∧
    ((∀ p ∈ L.pending, p.2.guarded = false) → L.requests.isValueBusy = false) := by
  have ht := h.tallied
  have hw := h.warded
  have howner {p : Σ κ : Type, Fetch κ} (hp : L.UnderWay p) :
      L.requests.valueOwner = some p.2.generation := (hw _).2 ⟨p, hp, rfl⟩
  refine ⟨hw.isValueBusy_iff, fun p q hp hq => ?_,
    fun κ batch context => ⟨fun hb => ?_, fun hb => ?_⟩, fun κ f hf q hq hne => ?_, fun hall => ?_⟩
  · exact ht.pending_eq p hp.held q hq.held (Option.some.inj ((howner hp).symm.trans (howner hq)))
  · exact Lifecycle.issueValue_of_busy hb batch context
  · have hfree := Lifecycle.issueValue_of_free hb batch context
    refine ⟨_, congrArg Prod.fst hfree, ?_⟩
    rw [issueValue, hfree]
    exact ⟨.head _, rfl, since_cons.2 (.inl rfl)⟩
  · have hother : L.requests.valueOwner ≠ some f.generation := fun e =>
      hne (ht.pending_eq q hq.held ⟨κ, f⟩ hf (Option.some.inj ((howner hq).symm.trans e)))
    exact ⟨Lifecycle.wait_valueOwner hother, Lifecycle.drop_valueOwner hother⟩
  · rw [Bool.eq_false_iff, Ne, hw.isValueBusy_iff]
    rintro ⟨p, hp⟩
    simpa [hall p hp.held] using hp.guarded

def valueFetch (generation : Nat) : Fetch Unit :=
  { concern := .value, generation, context := (), guarded := true }

/-- A fetch takes the guard again after a reset, while the one from before is still held. -/
def retaken : Ledger :=
  (({} : Ledger).issueValue [] ()).cancelAll.issueValue [] ()

theorem reachable_retaken : retaken.Reachable :=
  ((Reachable.start.step (.issueValue [] ())).step .cancelAll).step (.issueValue [] ())

/-- The end of the fetch from before the reset does not free the guard. -/
theorem guard_of_retaken :
    retaken.Reachable ∧
    (retaken.requests.issueValue [] ()).1 = .error .valueFetchInProgress ∧
    (retaken.requests.drop (valueFetch 1)).valueOwner = some 2 := by
  obtain ⟨hbusy, -, hissue, hother, -⟩ := guard_of_reachable reachable_retaken
  have hunder : retaken.UnderWay ⟨Unit, valueFetch 2⟩ :=
    ⟨.head _, rfl, since_cons.2 (.inl rfl)⟩
  have hne : (⟨Unit, valueFetch 2⟩ : Σ κ : Type, Fetch κ) ≠ ⟨Unit, valueFetch 1⟩ := fun e => by
    have : (valueFetch 2).generation = (valueFetch 1).generation :=
      congrArg (fun p : Σ κ : Type, Fetch κ => p.2.generation) e
    simp [valueFetch] at this
  refine ⟨reachable_retaken, ?_, ?_⟩
  · rw [(hissue Unit [] ()).1 (hbusy.2 ⟨_, hunder⟩)]
  · exact (hother Unit (valueFetch 1) (.tail _ (.head _)) _ hunder hne).2

end Ledger

end PatternQuery
