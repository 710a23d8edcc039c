import PatternQuery.Proofs.Request.Lanes

/-!
# A ledger of requests

A `Ledger` holds a lifecycle together with all that its callers have of it: the fetches that are
neither dropped nor waited for to their end, the answers that came out of fetches, and a log of what
was issued, accepted and reset. Whoever holds it may issue, wait, drop, accept and cancel in any
order, and batches end in any order (`Ledger.Step`). Answers are never used up, so that one may be
presented again and again.

A step enters a request in a lane, strikes off the live one of a lane, ends a fetch, resets
everything, or leaves all this as it is (`Ledger.Change`). Every invariant of ledgers is kept by
each of these, so by every step.
-/

namespace PatternQuery

/-- An entry of the log. -/
inductive Mark where
  | issued (lane : Lane) (generation : Nat)
  | accepted (generation : Nat)
  | reset
  deriving DecidableEq

/-- A lifecycle and what its callers have of it, with a log whose newest entry comes first. -/
structure Ledger : Type 1 where
  requests : Lifecycle := {}
  pending : List (Σ κ : Type, Fetch κ) := []
  answers : List (Σ κ : Type, Fetched κ) := []
  log : List Mark := []

namespace Ledger

variable {κ : Type}

/-! ## Steps -/

/-- Keeps a fetch that was issued in a lane. -/
def enter (lane : Lane) (issued : Fetch κ × Lifecycle) (L : Ledger) : Ledger :=
  { L with
    requests := issued.2
    pending := ⟨κ, issued.1⟩ :: L.pending
    log := .issued lane issued.1.generation :: L.log }

def issue (c : Concern) (batch : Batch) (context : κ) (L : Ledger) : Ledger :=
  L.enter (.concern c) (L.requests.issue c batch context)

def issueValue (batch : Batch) (context : κ) (L : Ledger) : Ledger :=
  match L.requests.issueValue batch context with
  | (.ok f, l) => L.enter (.concern .value) (f, l)
  | (.error _, l) => { L with requests := l }

def issueDiscovery (node : NodeId) (batch : Batch) (L : Ledger) : Ledger :=
  L.enter (.node node) (L.requests.issueDiscovery node batch)

/-- Notes whether the answer to a request was accepted. -/
def judge (generation : Nat) (verdict : Bool × Lifecycle) (L : Ledger) : Ledger :=
  { L with
    requests := verdict.2
    log := if verdict.1 then .accepted generation :: L.log else L.log }

def accept (r : Fetched κ) (L : Ledger) : Ledger :=
  L.judge r.generation (L.requests.accept r)

def acceptDiscovery (r : Fetched NodeId) (L : Ledger) : Ledger :=
  L.judge r.generation (L.requests.acceptDiscovery r)

def cancelAll (L : Ledger) : Ledger :=
  { L with requests := L.requests.cancelAll, log := .reset :: L.log }

/-- The fetches but one. -/
def pendingBut (generation : Nat) (L : Ledger) : List (Σ κ : Type, Fetch κ) :=
  L.pending.filter fun p => p.2.generation ≠ generation

/-- Waits for a fetch to its end. One that has no answer yet is kept. -/
def wait (f : Fetch κ) (L : Ledger) : Ledger :=
  match L.requests.wait f with
  | (some r, l) =>
    { L with
      requests := l
      pending := L.pendingBut f.generation
      answers := ⟨κ, r⟩ :: L.answers }
  | (none, l) => { L with requests := l }

def drop (f : Fetch κ) (L : Ledger) : Ledger :=
  { L with requests := L.requests.drop f, pending := L.pendingBut f.generation }

/-- A batch completes or fails. -/
def complete (generation : Nat) (o : Outcome) (L : Ledger) : Ledger :=
  { L with requests := L.requests.settle generation o }

/-- What may happen next. Only fetches that are held are waited for or dropped, and only answers
that were waited for are presented, to either function. -/
inductive Step (L : Ledger) : Ledger → Prop where
  | issue (c : Concern) (batch : Batch) {κ : Type} (context : κ) : Step L (L.issue c batch context)
  | issueValue (batch : Batch) {κ : Type} (context : κ) : Step L (L.issueValue batch context)
  | issueDiscovery (node : NodeId) (batch : Batch) : Step L (L.issueDiscovery node batch)
  | accept {κ : Type} {r : Fetched κ} (h : ⟨κ, r⟩ ∈ L.answers) : Step L (L.accept r)
  | acceptDiscovery {r : Fetched NodeId} (h : ⟨NodeId, r⟩ ∈ L.answers) :
      Step L (L.acceptDiscovery r)
  | cancelAll : Step L L.cancelAll
  | wait {κ : Type} {f : Fetch κ} (h : ⟨κ, f⟩ ∈ L.pending) : Step L (L.wait f)
  | drop {κ : Type} {f : Fetch κ} (h : ⟨κ, f⟩ ∈ L.pending) : Step L (L.drop f)
  | complete (generation : Nat) {o : Outcome} (h : o ≠ .aborted) : Step L (L.complete generation o)

/-- What steps lead to from the start. -/
inductive Reachable : Ledger → Prop where
  | start : Reachable {}
  | step {L L' : Ledger} (h : L.Reachable) (hs : L.Step L') : Reachable L'

/-! ## Changes -/

variable {L L' : Ledger}

/-- What a step does to the requests, and what it notes. -/
inductive Change (L L' : Ledger) : Prop where
  /-- Nothing but that some batch may have ended. -/
  | idle (generation : L'.requests.generation = L.requests.generation)
      (live : ∀ lane, L'.requests.live lane = L.requests.live lane)
      (owner : L'.requests.valueOwner = L.requests.valueOwner)
      (aborted : ∀ g, L'.requests.Aborted g → L.requests.Aborted g)
      (pending : L'.pending = L.pending)
      (answers : L'.answers = L.answers)
      (log : L'.log = L.log)
  /-- A request becomes the live one of a lane. It takes the guard, or leaves it alone. -/
  | entered (lane : Lane) (p : Σ κ : Type, Fetch κ)
      (fresh : p.2.generation = L.requests.generation + 1)
      (kind : lane.Of p.2.concern p.2.context)
      (generation : L'.requests.generation = L.requests.generation + 1)
      (live : ∀ lane', L'.requests.live lane' =
        if lane' = lane then some p.2.generation else L.requests.live lane')
      (owner : if p.2.guarded then lane = .concern .value ∧ L.requests.valueOwner = none ∧
          L'.requests.valueOwner = some p.2.generation
        else L'.requests.valueOwner = L.requests.valueOwner)
      (aborted : ∀ g, L'.requests.Aborted g → L.requests.Aborted g ∨ L.requests.live lane = some g)
      (pending : L'.pending = p :: L.pending)
      (answers : L'.answers = L.answers)
      (log : L'.log = .issued lane p.2.generation :: L.log)
  /-- The live request of a lane is accepted. -/
  | struck (lane : Lane) (a : Σ κ : Type, Fetched κ) (mem : a ∈ L.answers)
      (generation : L'.requests.generation = L.requests.generation)
      (was : L.requests.live lane = some a.2.generation)
      (live : ∀ lane', L'.requests.live lane' =
        if lane' = lane then none else L.requests.live lane')
      (owner : L'.requests.valueOwner = L.requests.valueOwner ∨
        (L.requests.valueOwner = some a.2.generation ∧ L'.requests.valueOwner = none))
      (aborted : ∀ g, L'.requests.Aborted g → L.requests.Aborted g)
      (pending : L'.pending = L.pending)
      (answers : L'.answers = L.answers)
      (log : L'.log = .accepted a.2.generation :: L.log)
  /-- A fetch is not held any more. It lets go of the guard if it has it. -/
  | ended (p : Σ κ : Type, Fetch κ) (mem : p ∈ L.pending)
      (generation : L'.requests.generation = L.requests.generation)
      (live : ∀ lane, L'.requests.live lane = L.requests.live lane)
      (owner : L'.requests.valueOwner =
        if p.2.guarded ∧ L.requests.valueOwner = some p.2.generation then none
        else L.requests.valueOwner)
      (aborted : ∀ g, L'.requests.Aborted g → L.requests.Aborted g ∨ g = p.2.generation)
      (pending : L'.pending = L.pendingBut p.2.generation)
      (answers : L'.answers = L.answers ∨ ∃ o : Outcome,
        (o = .aborted → L.requests.Aborted p.2.generation) ∧
        L'.answers = ⟨p.1, p.2.answered o⟩ :: L.answers)
      (log : L'.log = L.log)
  /-- No request is live any more, and the guard is free. -/
  | cancelled (generation : L'.requests.generation = L.requests.generation)
      (live : ∀ lane, L'.requests.live lane = none)
      (owner : L'.requests.valueOwner = none)
      (pending : L'.pending = L.pending)
      (answers : L'.answers = L.answers)
      (log : L'.log = .reset :: L.log)

theorem Change.refl (L : Ledger) : Change L L :=
  .idle rfl (fun _ => rfl) rfl (fun _ => id) rfl rfl rfl

theorem change_issue (c : Concern) (batch : Batch) (context : κ) (L : Ledger) :
    Change L (L.issue c batch context) := by
  have hf := Lifecycle.issue_fst c batch context L.requests
  refine .entered (.concern c) ⟨κ, (L.requests.issue c batch context).1⟩ ?_ ?_ ?_ ?_ ?_
    (fun g h => h.of_issue c batch context) rfl rfl rfl
  · rw [hf]
  · rw [hf]
    exact .concern c context
  · exact Lifecycle.issue_generation c batch context L.requests
  · rw [hf]
    exact Lifecycle.live_issue c batch context
  · rw [hf]
    exact Lifecycle.issue_valueOwner c batch context L.requests

theorem change_issueDiscovery (node : NodeId) (batch : Batch) (L : Ledger) :
    Change L (L.issueDiscovery node batch) := by
  have hf := Lifecycle.issueDiscovery_fst node batch L.requests
  refine .entered (.node node) ⟨NodeId, (L.requests.issueDiscovery node batch).1⟩ ?_ ?_ ?_ ?_ ?_
    (fun g h => h.of_issueDiscovery node batch) rfl rfl rfl
  · rw [hf]
  · rw [hf]
    exact .node node
  · exact Lifecycle.issueDiscovery_generation node batch L.requests
  · rw [hf]
    exact Lifecycle.live_issueDiscovery node batch
  · rw [hf]
    exact Lifecycle.issueDiscovery_valueOwner node batch L.requests

theorem change_issueValue (batch : Batch) (context : κ) (L : Ledger) :
    Change L (L.issueValue batch context) := by
  unfold issueValue Lifecycle.issueValue
  cases ho : L.requests.valueOwner with
  | some g =>
    rw [if_pos (by rw [Lifecycle.isValueBusy, ho]; rfl)]
    exact .refl L
  | none =>
    rw [if_neg (by rw [Lifecycle.isValueBusy, ho]; simp)]
    have hf := Lifecycle.issue_fst .value batch context L.requests
    refine .entered (.concern .value)
      ⟨κ, { (L.requests.issue .value batch context).1 with guarded := true }⟩ ?_ ?_ ?_ ?_ ?_
      (fun g h => Lifecycle.Aborted.of_issue .value batch context h) rfl rfl rfl
    · rw [hf]
    · rw [hf]
      exact .concern .value context
    · exact Lifecycle.issue_generation .value batch context L.requests
    · rw [hf]
      exact Lifecycle.live_issue .value batch context
    · exact ⟨rfl, ho, rfl⟩

/-- An answer that is turned down changes nothing. -/
theorem change_accept {r : Fetched κ} (h : ⟨κ, r⟩ ∈ L.answers) : Change L (L.accept r) := by
  unfold accept Lifecycle.accept
  split
  · exact .refl L
  · rename_i hn
    have hlive : L.requests.slots.get r.concern = some r.generation := by
      simpa [Lifecycle.isCurrent] using (not_or.1 hn).2
    refine .struck (.concern r.concern) ⟨κ, r⟩ h ?_ hlive ?_ ?_ ?_ rfl rfl rfl
    · show Lifecycle.generation (if _ then _ else _) = _
      split <;> simp
    · intro lane
      show Lifecycle.live (if _ then _ else _) lane = _
      cases lane <;> split <;> simp [Lifecycle.live, Lifecycle.discovery?]
    · show Lifecycle.valueOwner (if _ then _ else _) = _ ∨ _
      split
      · by_cases ho : L.requests.valueOwner = some r.generation
        · exact .inr ⟨ho, (Lifecycle.releaseGuard_valueOwner _ _).trans (if_pos ho)⟩
        · exact .inl ((Lifecycle.releaseGuard_valueOwner _ _).trans (if_neg ho))
      · exact .inl rfl
    · intro g hg
      have hg : Lifecycle.Aborted (if _ then _ else _) g := hg
      split at hg
      · simpa [Lifecycle.Aborted] using hg
      · exact hg

theorem change_acceptDiscovery {r : Fetched NodeId} (h : ⟨NodeId, r⟩ ∈ L.answers) :
    Change L (L.acceptDiscovery r) := by
  unfold acceptDiscovery Lifecycle.acceptDiscovery
  split
  · exact .refl L
  · rename_i hn
    have hlive : L.requests.discovery? r.context = some r.generation :=
      not_not.1 (not_or.1 hn).2
    refine .struck (.node r.context) ⟨NodeId, r⟩ h rfl hlive ?_ (.inl rfl) (fun _ => id) rfl rfl rfl
    intro lane
    cases lane with
    | concern c => rfl
    | node id =>
      refine (Lifecycle.discovery?_forgetDiscovery r.context id L.requests).trans ?_
      simp only [Lane.node.injEq]
      rfl

theorem change_cancelAll (L : Ledger) : Change L L.cancelAll := by
  refine .cancelled ?_ (fun _ => Lifecycle.live_cancelAll _) rfl rfl rfl rfl
  simp [cancelAll, Lifecycle.cancelAll]

theorem change_wait {f : Fetch κ} (h : ⟨κ, f⟩ ∈ L.pending) : Change L (L.wait f) := by
  unfold wait
  generalize hw : L.requests.wait f = w
  obtain ⟨o, l⟩ := w
  cases o with
  | none =>
    obtain rfl : l = L.requests := by
      simpa [hw] using Lifecycle.wait_of_none (l := L.requests) (f := f) (by rw [hw])
    exact .refl L
  | some r =>
    have hr : (L.requests.wait f).1 = some r := by rw [hw]
    obtain rfl : l = if f.guarded then L.requests.releaseGuard f.generation else L.requests := by
      simpa [hw] using Lifecycle.wait_of_some hr
    obtain ⟨o, rfl, ho⟩ := Lifecycle.answered_of_wait hr
    refine .ended ⟨κ, f⟩ h ?_ ?_ ?_ ?_ rfl (.inr ⟨o, ho, rfl⟩) rfl
    · dsimp only
      split <;> simp
    · intro lane
      dsimp only
      split <;> simp
    · dsimp only
      cases f.guarded with
      | true => simp [Lifecycle.releaseGuard_valueOwner]
      | false => simp
    · intro g hg
      dsimp only at hg
      split at hg
      · exact .inl (Lifecycle.aborted_releaseGuard.1 hg)
      · exact .inl hg

theorem change_drop {f : Fetch κ} (h : ⟨κ, f⟩ ∈ L.pending) : Change L (L.drop f) := by
  refine .ended ⟨κ, f⟩ h ?_ ?_ ?_ ?_ rfl (.inl rfl) rfl
  · show Lifecycle.generation (if _ then _ else _) = _
    split
    · exact Lifecycle.releaseGuard_generation _ _
    · rfl
  · intro lane
    show Lifecycle.live (if _ then _ else _) lane = _
    split
    · rw [Lifecycle.releaseGuard_live]
      cases lane <;> rfl
    · rfl
  · show Lifecycle.valueOwner (if _ then _ else _) = _
    cases f.guarded with
    | true => simp [Lifecycle.releaseGuard_valueOwner, Lifecycle.cancel, Lifecycle.settle]
    | false => simp
  · intro g hg
    have hg : Lifecycle.Aborted (if _ then _ else _) g := hg
    split at hg
    · rcases (Lifecycle.aborted_releaseGuard.1 hg).of_settle with hg | ⟨hg, -⟩
      · exact .inl hg
      · exact .inr hg
    · exact .inl hg

theorem change_complete (g : Nat) {o : Outcome} (h : o ≠ .aborted) (L : Ledger) :
    Change L (L.complete g o) := by
  refine .idle rfl (fun lane => by cases lane <;> rfl) rfl (fun g' hg => ?_) rfl rfl rfl
  rcases hg.of_settle with hg | ⟨-, ho⟩
  · exact hg
  · exact absurd ho h

theorem Step.change (h : L.Step L') : Change L L' := by
  cases h with
  | issue c batch context => exact change_issue c batch context L
  | issueValue batch context => exact change_issueValue batch context L
  | issueDiscovery node batch => exact change_issueDiscovery node batch L
  | accept h => exact change_accept h
  | acceptDiscovery h => exact change_acceptDiscovery h
  | cancelAll => exact change_cancelAll L
  | wait h => exact change_wait h
  | drop h => exact change_drop h
  | complete g h => exact change_complete g h L

theorem Step.later (h : L.Step L') (hb : L.requests.Bounded) :
    L.requests.Later L'.requests := by
  cases h with
  | issue c batch context => exact hb.later_issue c batch context
  | issueValue batch context =>
    have h := hb.later_issueValue batch context
    unfold Ledger.issueValue
    split <;> rename_i hi <;> rwa [hi] at h
  | issueDiscovery node batch => exact hb.later_issueDiscovery node batch
  | accept => exact hb.later_accept _
  | acceptDiscovery => exact hb.later_acceptDiscovery _
  | cancelAll => exact hb.later_cancelAll
  | @wait κ f =>
    have h := hb.later_wait f
    unfold Ledger.wait
    split <;> rename_i hw <;> rwa [hw] at h
  | @drop κ f => exact hb.later_drop f
  | @complete g o => exact hb.later_settle g o

/-! ## The log -/

/-- A mark stands in the log, and none that bars it came later. -/
def Since (log : List Mark) (m : Mark) (bars : Mark → Prop) : Prop :=
  ∃ later earlier, log = later ++ m :: earlier ∧ ∀ k ∈ later, ¬ bars k

section Since

variable {log : List Mark} {m k : Mark} {bars : Mark → Prop}

@[simp] theorem not_since_nil : ¬ Since [] m bars := by
  rintro ⟨later, earlier, h, -⟩
  simp at h

@[simp] theorem since_cons : Since (k :: log) m bars ↔ k = m ∨ (¬ bars k ∧ Since log m bars) := by
  constructor
  · rintro ⟨later, earlier, h, hl⟩
    cases later with
    | nil => exact .inl (List.cons.inj h).1
    | cons k' later =>
      obtain ⟨rfl, rfl⟩ := List.cons.inj h
      exact .inr ⟨hl k List.mem_cons_self, later, earlier, rfl,
        fun k' hk => hl k' (List.mem_cons_of_mem _ hk)⟩
  · rintro (rfl | ⟨hk, later, earlier, rfl, hl⟩)
    · exact ⟨[], log, rfl, by simp⟩
    · exact ⟨k :: later, earlier, rfl, List.forall_mem_cons.2 ⟨hk, hl⟩⟩

theorem Since.mem (h : Since log m bars) : m ∈ log := by
  obtain ⟨later, earlier, rfl, -⟩ := h
  simp

end Since

/-! ## Generations -/

/-- The generation was given out. -/
def Issued (log : List Mark) (g : Nat) : Prop := ∃ lane, .issued lane g ∈ log

theorem Issued.cons {log : List Mark} {g : Nat} (h : Issued log g) (m : Mark) :
    Issued (m :: log) g :=
  h.imp fun _ => List.mem_cons_of_mem m

/-- The generation was given out in a lane for a concern and a context. -/
def Entered (log : List Mark) (g : Nat) (c : Concern) {κ : Type} (context : κ) : Prop :=
  ∃ lane : Lane, lane.Of c context ∧ .issued lane g ∈ log

theorem Entered.issued {log : List Mark} {g : Nat} {c : Concern} {context : κ}
    (h : Entered log g c context) : Issued log g :=
  h.imp fun _ h => h.2

theorem Entered.cons {log : List Mark} {g : Nat} {c : Concern} {context : κ}
    (h : Entered log g c context) (m : Mark) : Entered (m :: log) g c context :=
  h.imp fun _ h => ⟨h.1, List.mem_cons_of_mem m h.2⟩

/-- A generation is given out once, in one lane, to one fetch; and a fetch that came to an end is
not held any more. -/
structure Tallied (L : Ledger) : Prop where
  bounded : L.requests.Bounded
  issued_le : ∀ lane g, .issued lane g ∈ L.log → g ≤ L.requests.generation
  lane_eq : ∀ lane lane' g, .issued lane g ∈ L.log → .issued lane' g ∈ L.log → lane = lane'
  accepted : ∀ g, .accepted g ∈ L.log → Issued L.log g
  pending : ∀ p ∈ L.pending, Entered L.log p.2.generation p.2.concern p.2.context
  pending_eq : ∀ p ∈ L.pending, ∀ q ∈ L.pending, p.2.generation = q.2.generation → p = q
  answers : ∀ a ∈ L.answers, Entered L.log a.2.generation a.2.concern a.2.context
  ended : ∀ a ∈ L.answers, ∀ p ∈ L.pending, p.2.generation ≠ a.2.generation

theorem tallied_start : Tallied {} where
  bounded := by simp [Lifecycle.Bounded]
  issued_le := by simp
  lane_eq := by simp
  accepted := by simp
  pending := by simp
  pending_eq := by simp
  answers := by simp
  ended := by simp

theorem Tallied.le (h : L.Tallied) {g : Nat} (hg : Issued L.log g) :
    g ≤ L.requests.generation :=
  let ⟨lane, hm⟩ := hg
  h.issued_le lane g hm

theorem Tallied.enter (h : L.Tallied) (hb : L'.requests.Bounded) {lane : Lane}
    {p : Σ κ : Type, Fetch κ} (fresh : p.2.generation = L.requests.generation + 1)
    (kind : lane.Of p.2.concern p.2.context)
    (generation : L'.requests.generation = L.requests.generation + 1)
    (pending : L'.pending = p :: L.pending) (answers : L'.answers = L.answers)
    (log : L'.log = .issued lane p.2.generation :: L.log) : L'.Tallied := by
  have hnew {g : Nat} (hg : Issued L.log g) : g ≠ p.2.generation := by
    have := h.le hg
    omega
  refine ⟨hb, fun lane' g hm => ?_, fun lane' lane'' g hm hm' => ?_, fun g hm => ?_, ?_, ?_, ?_, ?_⟩
  · rw [log, List.mem_cons] at hm
    rcases hm with hm | hm
    · cases hm
      omega
    · have := h.issued_le lane' g hm
      omega
  · rw [log, List.mem_cons] at hm hm'
    rcases hm with hm | hm <;> rcases hm' with hm' | hm'
    · cases hm
      cases hm'
      rfl
    · cases hm
      exact absurd rfl (hnew ⟨_, hm'⟩)
    · cases hm'
      exact absurd rfl (hnew ⟨_, hm⟩)
    · exact h.lane_eq lane' lane'' g hm hm'
  · rw [log] at hm ⊢
    exact (h.accepted g (by simpa using hm)).cons _
  · rw [pending, log]
    exact List.forall_mem_cons.2
      ⟨⟨lane, kind, List.mem_cons_self⟩, fun q hq => (h.pending q hq).cons _⟩
  · intro q hq q' hq' e
    rw [pending, List.mem_cons] at hq hq'
    rcases hq with rfl | hq <;> rcases hq' with rfl | hq'
    · rfl
    · exact absurd e.symm (hnew (h.pending q' hq').issued)
    · exact absurd e (hnew (h.pending q hq).issued)
    · exact h.pending_eq q hq q' hq' e
  · rw [answers, log]
    exact fun a ha => (h.answers a ha).cons _
  · rw [answers, pending]
    exact fun a ha => List.forall_mem_cons.2 ⟨(hnew (h.answers a ha).issued).symm, h.ended a ha⟩

theorem mem_pendingBut {g : Nat} {p : Σ κ : Type, Fetch κ} :
    p ∈ L.pendingBut g ↔ p ∈ L.pending ∧ p.2.generation ≠ g := by
  simp [pendingBut]

theorem Tallied.finish (h : L.Tallied) (hb : L'.requests.Bounded)
    {p : Σ κ : Type, Fetch κ} (mem : p ∈ L.pending)
    (generation : L'.requests.generation = L.requests.generation)
    (pending : L'.pending = L.pendingBut p.2.generation)
    (answers : ∀ a ∈ L'.answers, a ∈ L.answers ∨ ∃ o, a = ⟨p.1, p.2.answered o⟩)
    (log : L'.log = L.log) : L'.Tallied := by
  have hheld {q : Σ κ : Type, Fetch κ} (hq : q ∈ L'.pending) :
      q ∈ L.pending ∧ q.2.generation ≠ p.2.generation := mem_pendingBut.1 (pending ▸ hq)
  refine ⟨hb, log ▸ generation ▸ h.issued_le, log ▸ h.lane_eq, log ▸ h.accepted,
    fun q hq => log ▸ h.pending q (hheld hq).1,
    fun q hq q' hq' => h.pending_eq q (hheld hq).1 q' (hheld hq').1, fun a ha => ?_,
    fun a ha q hq => ?_⟩
  · rw [log]
    rcases answers a ha with ha | ⟨o, rfl⟩
    · exact h.answers a ha
    · exact h.pending p mem
  · rcases answers a ha with ha | ⟨o, rfl⟩
    · exact h.ended a ha q (hheld hq).1
    · exact (hheld hq).2

theorem Tallied.note (h : L.Tallied) (hb : L'.requests.Bounded) {m : Mark}
    (hissued : ∀ lane g, m ≠ .issued lane g) (haccepted : ∀ g, m = .accepted g → Issued L.log g)
    (generation : L'.requests.generation = L.requests.generation)
    (pending : L'.pending = L.pending) (answers : L'.answers = L.answers)
    (log : L'.log = m :: L.log) : L'.Tallied := by
  have hold {lane : Lane} {g : Nat} (hm : .issued lane g ∈ L'.log) : .issued lane g ∈ L.log := by
    rw [log, List.mem_cons] at hm
    exact hm.resolve_left fun e => hissued lane g e.symm
  refine ⟨hb, fun lane g hm => generation ▸ h.issued_le lane g (hold hm),
    fun lane lane' g hm hm' => h.lane_eq lane lane' g (hold hm) (hold hm'), fun g hm => ?_,
    pending ▸ log ▸ fun p hp => (h.pending p hp).cons m, pending ▸ h.pending_eq,
    answers ▸ log ▸ fun a ha => (h.answers a ha).cons m, answers ▸ pending ▸ h.ended⟩
  rw [log, List.mem_cons] at hm
  rw [log]
  exact (hm.elim (fun e => haccepted g e.symm) (h.accepted g)).cons m

theorem Tallied.step (h : L.Tallied) (hs : L.Step L') : L'.Tallied := by
  have hb := (hs.later h.bounded).bounded
  cases hs.change with
  | idle generation _ _ _ pending answers log =>
    exact ⟨hb, log ▸ generation ▸ h.issued_le, log ▸ h.lane_eq, log ▸ h.accepted,
      log ▸ pending ▸ h.pending, pending ▸ h.pending_eq, log ▸ answers ▸ h.answers,
      answers ▸ pending ▸ h.ended⟩
  | entered lane p fresh kind generation _ _ _ pending answers log =>
    exact h.enter hb fresh kind generation pending answers log
  | struck lane a mem generation _ _ _ _ pending answers log =>
    refine h.note hb (by simp) (fun g e => ?_) generation pending answers log
    cases e
    exact (h.answers a mem).issued
  | ended p mem generation _ _ _ pending answers log =>
    refine h.finish hb mem generation pending (fun a ha => ?_) log
    rcases answers with e | ⟨o, -, e⟩
    · exact .inl (e ▸ ha)
    · rw [e, List.mem_cons] at ha
      exact ha.elim (fun e => .inr ⟨o, e⟩) .inl
  | cancelled generation _ _ pending answers log =>
    exact h.note hb (by simp) (by simp) generation pending answers log

theorem Reachable.tallied (h : L.Reachable) : L.Tallied := by
  induction h with
  | start => exact tallied_start
  | step _ hs ih => exact ih.step hs

end Ledger

end PatternQuery
