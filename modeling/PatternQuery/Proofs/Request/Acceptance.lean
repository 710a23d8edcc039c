import PatternQuery.Proofs.Request.Ledger

/-!
# Which answers are accepted

An answer is accepted if it was not cancelled, nothing was issued in its lane since, there was no
reset since, and it has not been accepted before (`Ledger.Standing`); no other answer is. What
happens in other lanes matters neither for this nor for whether the request is cancelled.
-/

namespace PatternQuery

/-- What ends the time of a request of a lane: a later one, or a reset. -/
def Mark.Supersedes (lane : Lane) : Mark → Prop
  | issued lane' _ => lane' = lane
  | accepted _ => False
  | reset => True

namespace Ledger

variable {L L' : Ledger} {κ : Type}

/-- The request was the last one of a lane, and there was no reset since. -/
def Fresh (log : List Mark) (lane : Lane) (g : Nat) : Prop :=
  Since log (.issued lane g) (Mark.Supersedes lane)

/-- The request is fresh, and its answer was not accepted yet. -/
def Standing (log : List Mark) (lane : Lane) (g : Nat) : Prop :=
  Fresh log lane g ∧ .accepted g ∉ log

section Fresh

variable {log : List Mark} {lane lane' : Lane} {g g' : Nat}

theorem Fresh.issued (h : Fresh log lane g) : .issued lane g ∈ log := h.mem

@[simp] theorem not_fresh_nil : ¬ Fresh [] lane g := not_since_nil

@[simp] theorem fresh_issued : Fresh (.issued lane' g' :: log) lane g ↔
    (lane' = lane ∧ g' = g) ∨ (lane' ≠ lane ∧ Fresh log lane g) := by
  simp [Fresh, Mark.Supersedes]

@[simp] theorem fresh_accepted : Fresh (.accepted g' :: log) lane g ↔ Fresh log lane g := by
  simp [Fresh, Mark.Supersedes]

@[simp] theorem not_fresh_reset : ¬ Fresh (.reset :: log) lane g := by
  simp [Fresh, Mark.Supersedes]

end Fresh

/-- The live request of a lane is the one that stands, and what was cancelled does not stand. -/
structure Faithful (L : Ledger) : Prop where
  live : ∀ lane g, L.requests.live lane = some g ↔ Standing L.log lane g
  once : ∀ g, L.log.count (.accepted g) ≤ 1
  pending : ∀ p ∈ L.pending, L.requests.Aborted p.2.generation →
    ∀ lane, ¬ Fresh L.log lane p.2.generation
  answers : ∀ a ∈ L.answers, a.2.outcome = .aborted →
    ∀ lane, ¬ Fresh L.log lane a.2.generation

theorem faithful_start : Faithful {} where
  live lane g := by
    have hnone : ({} : Lifecycle).live lane = none := by
      cases lane with
      | concern c => cases c <;> rfl
      | node id => rfl
    simp [hnone, Standing]
  once := by simp
  pending := by simp
  answers := by simp

/-- A new request takes the place of the live one of its lane only. -/
theorem Faithful.enter (h : L.Faithful) (ht : L.Tallied) {lane : Lane} {p : Σ κ : Type, Fetch κ}
    (fresh : p.2.generation = L.requests.generation + 1)
    (live : ∀ lane', L'.requests.live lane' =
      if lane' = lane then some p.2.generation else L.requests.live lane')
    (aborted : ∀ g, L'.requests.Aborted g → L.requests.Aborted g ∨ L.requests.live lane = some g)
    (pending : L'.pending = p :: L.pending) (answers : L'.answers = L.answers)
    (log : L'.log = .issued lane p.2.generation :: L.log) : L'.Faithful := by
  have hnew {g : Nat} (hg : Issued L.log g) : g ≠ p.2.generation := by
    have := ht.le hg
    omega
  -- what was not fresh before is not fresh now
  have hstale {g : Nat} (hg : Issued L.log g) (hf : ∀ lane', ¬ Fresh L.log lane' g) (lane' : Lane) :
      ¬ Fresh L'.log lane' g := by
    rw [log, fresh_issued]
    rintro (⟨-, e⟩ | ⟨-, hl⟩)
    · exact hnew hg e.symm
    · exact hf lane' hl
  refine ⟨fun lane' g => ?_, fun g => ?_, ?_, ?_⟩
  · rw [live, log, Standing, fresh_issued]
    by_cases hl : lane' = lane
    · subst hl
      have hnot : Mark.accepted p.2.generation ∉ L.log := fun hm => hnew (ht.accepted _ hm) rfl
      rw [if_pos rfl]
      constructor
      · intro e
        obtain rfl := Option.some.inj e
        exact ⟨.inl ⟨rfl, rfl⟩, by simpa using hnot⟩
      · rintro ⟨⟨-, rfl⟩ | ⟨hne, -⟩, -⟩
        · rfl
        · exact absurd rfl hne
    · rw [if_neg hl, h.live]
      simp [Standing, Ne.symm hl]
  · rw [log]
    simpa using h.once g
  · rw [pending]
    refine List.forall_mem_cons.2 ⟨fun ha => ?_, fun q hq ha => ?_⟩
    · -- the new generation was neither cancelled nor live before
      rcases aborted _ ha with ha | ha
      · have := ha.le ht.bounded
        omega
      · exact absurd rfl (hnew ⟨lane, ((h.live lane _).1 ha).1.issued⟩)
    · rcases aborted _ ha with ha | ha
      · exact hstale (ht.pending q hq).issued (h.pending q hq ha)
      · -- it was the live one of this lane, and of no other
        have hissued := ((h.live lane _).1 ha).1.issued
        intro lane'
        rw [log, fresh_issued]
        rintro (⟨-, e⟩ | ⟨hne, hf⟩)
        · exact hnew ⟨lane, hissued⟩ e.symm
        · exact hne (ht.lane_eq lane lane' _ hissued hf.issued)
  · rw [answers]
    exact fun a ha ho => hstale (ht.answers a ha).issued (h.answers a ha ho)

/-- The live request of a lane is accepted, which no request was twice. -/
theorem Faithful.strike (h : L.Faithful) (ht : L.Tallied) {lane : Lane} {g : Nat}
    (was : L.requests.live lane = some g)
    (live : ∀ lane', L'.requests.live lane' = if lane' = lane then none else L.requests.live lane')
    (aborted : ∀ g, L'.requests.Aborted g → L.requests.Aborted g)
    (pending : L'.pending = L.pending) (answers : L'.answers = L.answers)
    (log : L'.log = .accepted g :: L.log) : L'.Faithful := by
  have hstands := (h.live lane g).1 was
  refine ⟨fun lane' g' => ?_, fun g' => ?_, ?_, ?_⟩
  · rw [live, log, Standing, fresh_accepted, List.mem_cons, not_or]
    by_cases hl : lane' = lane
    · subst hl
      rw [if_pos rfl]
      refine iff_of_false (by simp) fun ⟨hf, hne, hna⟩ => hne ?_
      -- only one request of a lane stands
      have : some g' = some g := ((h.live lane' g').2 ⟨hf, hna⟩).symm.trans was
      rw [Option.some.inj this]
    · rw [if_neg hl, h.live, Standing]
      refine and_congr_right fun hf => ⟨fun hna => ⟨fun e => hl ?_, hna⟩, fun hna => hna.2⟩
      cases e
      exact ht.lane_eq lane' lane _ hf.issued hstands.1.issued
  · rw [log, List.count_cons]
    by_cases e : g = g'
    · subst e
      rw [List.count_eq_zero.2 hstands.2]
      simp
    · simpa [e] using h.once g'
  · rw [pending, log]
    exact fun p hp ha lane' => by simpa using h.pending p hp (aborted _ ha) lane'
  · rw [answers, log]
    exact fun a ha ho lane' => by simpa using h.answers a ha ho lane'

theorem Faithful.step (h : L.Faithful) (ht : L.Tallied) (hs : L.Step L') : L'.Faithful := by
  cases hs.change with
  | idle _ live _ aborted pending answers log =>
    exact ⟨fun lane g => by rw [live, log, h.live], log ▸ h.once,
      log ▸ pending ▸ fun p hp ha => h.pending p hp (aborted _ ha), log ▸ answers ▸ h.answers⟩
  | entered lane p fresh _ _ live _ aborted pending answers log =>
    exact h.enter ht fresh live aborted pending answers log
  | struck lane a _ _ was live _ aborted pending answers log =>
    exact h.strike ht was live aborted pending answers log
  | ended p mem _ live _ aborted pending answers log =>
    refine ⟨fun lane g => by rw [live, log, h.live], log ▸ h.once, fun q hq ha => ?_,
      fun a ha ho => ?_⟩
    · obtain ⟨hq, hne⟩ := mem_pendingBut.1 (pending ▸ hq)
      exact log ▸ h.pending q hq ((aborted _ ha).resolve_right hne)
    · rw [log]
      rcases answers with e | ⟨o, haborted, e⟩
      · exact h.answers a (e ▸ ha) ho
      · rw [e, List.mem_cons] at ha
        rcases ha with rfl | ha
        · exact h.pending p mem (haborted ho)
        · exact h.answers a ha ho
  | cancelled _ live _ _ _ log =>
    exact ⟨fun lane g => by simp [live, log, Standing], fun g => by simpa [log] using h.once g,
      by simp [log], by simp [log]⟩

theorem Reachable.faithful (h : L.Reachable) : L.Faithful := by
  induction h with
  | start => exact faithful_start
  | step h hs ih => exact ih.step h.tallied hs

end Ledger

/-! ## Acceptance -/

namespace Lifecycle

variable {l : Lifecycle} {κ : Type}

theorem accept_iff (r : Fetched κ) : (l.accept r).1 = true ↔
    r.outcome ≠ .aborted ∧ l.live (.concern r.concern) = some r.generation := by
  constructor
  · intro h
    refine ⟨fun ho => ?_, live_of_accept h⟩
    rw [accept, if_pos (.inl ho)] at h
    cases h
  · exact fun ⟨ho, hl⟩ => accept_of_live hl ho

theorem acceptDiscovery_iff (r : Fetched NodeId) : (l.acceptDiscovery r).1 = true ↔
    r.outcome ≠ .aborted ∧ l.live (.node r.context) = some r.generation := by
  unfold acceptDiscovery
  split
  · rename_i h
    refine iff_of_false (by simp) fun ⟨ho, hl⟩ => ?_
    exact h.elim ho fun hne => hne hl
  · rename_i h
    exact iff_of_true rfl ⟨fun ho => h (.inl ho), not_not.1 fun hne => h (.inr hne)⟩

end Lifecycle

namespace Ledger

variable {L : Ledger}

/-- At any time, an answer is accepted if it was not cancelled and stands in the lane of the
function that it is presented to, and no answer is accepted twice. Every answer belongs to just one
lane, and one that was cancelled does not stand there. -/
theorem acceptance_of_reachable (h : L.Reachable) :
    (∀ (κ : Type) (r : Fetched κ), (L.requests.accept r).1 = true ↔
      r.outcome ≠ .aborted ∧ Standing L.log (.concern r.concern) r.generation) ∧
    (∀ r : Fetched NodeId, (L.requests.acceptDiscovery r).1 = true ↔
      r.outcome ≠ .aborted ∧ Standing L.log (.node r.context) r.generation) ∧
    (∀ g, L.log.count (.accepted g) ≤ 1) ∧
    (∀ a ∈ L.answers, ∃ lane : Lane, lane.Of a.2.concern a.2.context ∧
      (∀ lane', .issued lane' a.2.generation ∈ L.log ↔ lane' = lane) ∧
      (a.2.outcome = .aborted → ¬ Fresh L.log lane a.2.generation)) := by
  have ht := h.tallied
  have hf := h.faithful
  refine ⟨fun κ r => ?_, fun r => ?_, hf.once, fun a ha => ?_⟩
  · rw [Lifecycle.accept_iff, hf.live]
  · rw [Lifecycle.acceptDiscovery_iff, hf.live]
  · obtain ⟨lane, hkind, hissued⟩ := ht.answers a ha
    refine ⟨lane, hkind, fun lane' => ⟨fun hm => ht.lane_eq lane' lane _ hm hissued, ?_⟩,
      fun ho => hf.answers a ha ho lane⟩
    rintro rfl
    exact hissued

def resultsFetch (generation : Nat) : Fetch Unit :=
  { concern := .results, generation, context := () }

def discoveryFetch : Fetch NodeId := { concern := .relations, generation := 2, context := ⟨7⟩ }

/-- Results are asked for again after the first answer has come, with a discovery in between, and
all three answers are waited for. -/
def overtaken : Ledger :=
  let L := (({} : Ledger).issue .results [] ()).complete 1 (.completed [])
  let L := (L.issueDiscovery ⟨7⟩ []).issue .results [] ()
  let L := (L.complete 2 (.failed "timeout")).complete 3 (.completed [])
  ((L.wait (resultsFetch 1)).wait discoveryFetch).wait (resultsFetch 3)

theorem reachable_overtaken : overtaken.Reachable := by
  have h := (Reachable.start.step (.issue .results [] ())).step
    (.complete 1 (o := .completed []) (by decide))
  have h := (h.step (.issueDiscovery ⟨7⟩ [])).step (.issue .results [] ())
  have h := (h.step (.complete 2 (o := .failed "timeout") (by decide))).step
    (.complete 3 (o := .completed []) (by decide))
  have h := h.step (.wait (f := resultsFetch 1) (.tail _ (.tail _ (.head _))))
  have h := h.step (.wait (f := discoveryFetch) (.tail _ (.head _)))
  exact h.step (.wait (f := resultsFetch 3) (.head _))

theorem log_overtaken : overtaken.log =
    [.issued (.concern .results) 3, .issued (.node ⟨7⟩) 2, .issued (.concern .results) 1] := rfl

/-- Only the first request for results was overtaken. -/
theorem acceptance_of_overtaken :
    overtaken.Reachable ∧
    overtaken.answers = [⟨Unit, (resultsFetch 3).answered (.completed [])⟩,
      ⟨NodeId, discoveryFetch.answered (.failed "timeout")⟩,
      ⟨Unit, (resultsFetch 1).answered (.completed [])⟩] ∧
    (overtaken.requests.accept ((resultsFetch 1).answered (.completed []))).1 = false ∧
    (overtaken.requests.acceptDiscovery (discoveryFetch.answered (.failed "timeout"))).1 = true ∧
    (overtaken.requests.accept ((resultsFetch 3).answered (.completed []))).1 = true := by
  obtain ⟨haccept, hdiscovery, -, -⟩ := acceptance_of_reachable reachable_overtaken
  refine ⟨reachable_overtaken, rfl, ?_, ?_, ?_⟩
  · rw [Bool.eq_false_iff, Ne, haccept, log_overtaken]
    simp [Standing, resultsFetch, Fetch.answered]
  · rw [hdiscovery, log_overtaken]
    simp [Standing, discoveryFetch, Fetch.answered]
  · rw [haccept, log_overtaken]
    simp [Standing, resultsFetch, Fetch.answered]

end Ledger

end PatternQuery
