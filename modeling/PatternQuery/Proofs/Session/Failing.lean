import PatternQuery.Proofs.Request.Guard
import PatternQuery.Proofs.Session.Telling

/-!
# Requests that fail

A request that fails is answered as if nothing had been found (`Session.Degrades`): its merge does
what it does for an answer without any lists of rows. Candidates of a chosen node are the exception:
the node keeps those it has, and the next fetch of candidates may go ahead. A request that was
cancelled is not merged at all (`Session.IgnoresAborted`).
-/

namespace PatternQuery

/-! ## The holder of the guard -/

namespace Lifecycle

variable {l l' : Lifecycle} {κ : Type}

/-- The fetch that holds the guard is the live one. -/
def HeldLive (l : Lifecycle) : Prop := ∀ g, l.valueOwner = some g → l.slots.value = some g

theorem HeldLive.of_owner (h : l.HeldLive) (hslots : l'.slots.value = l.slots.value)
    (howner : ∀ g, l'.valueOwner = some g → l.valueOwner = some g) : l'.HeldLive := by
  intro g hg
  rw [hslots]
  exact h g (howner g hg)

theorem of_releaseGuard_valueOwner {g g' : Nat}
    (h : (l.releaseGuard g').valueOwner = some g) : l.valueOwner = some g ∧ g ≠ g' := by
  rw [releaseGuard_valueOwner] at h
  split at h
  · cases h
  · rename_i hne
    exact ⟨h, fun e => hne (e ▸ h)⟩

theorem HeldLive.issueValue (h : l.HeldLive) (batch : Batch) (context : κ) :
    (l.issueValue batch context).2.HeldLive := by
  cases hbusy : l.isValueBusy with
  | true => rwa [issueValue_of_busy hbusy]
  | false =>
    rw [issueValue_of_free hbusy, issue_fst]
    intro g hg
    show (l.issue .value batch context).2.slots.value = some g
    rw [issue_slots]
    exact hg

theorem HeldLive.accept (h : l.HeldLive) (r : Fetched κ) : (l.accept r).2.HeldLive := by
  unfold Lifecycle.accept
  split
  · exact h
  · rename_i hlive
    have hlive : l.slots.get r.concern = some r.generation := by
      simpa [isCurrent] using (not_or.1 hlive).2
    dsimp only
    split
    · rename_i hc
      -- the holder of the guard is the one that is live, so it lets go
      intro g hg
      obtain ⟨howner, hne⟩ := of_releaseGuard_valueOwner hg
      rw [hc] at hlive
      exact absurd (Option.some.inj ((h g howner).symm.trans hlive)) hne
    · rename_i hc
      refine h.of_owner ?_ fun g hg => hg
      have := Slots.get_set l.slots r.concern .value none
      rwa [if_neg (Ne.symm hc)] at this

theorem Deals.heldLive (hd : l.Deals l') (h : l.HeldLive) : l'.HeldLive := by
  cases hd with
  | @issue κ c hc batch context =>
    refine h.of_owner ?_ fun g hg => by rwa [issue_valueOwner] at hg
    have := Slots.get_set l.slots c .value (some (l.generation + 1))
    rw [if_neg (Ne.symm hc), ← issue_slots c batch context] at this
    exact this
  | issueValue batch context => exact h.issueValue batch context
  | issueDiscovery node batch =>
    exact h.of_owner (by rw [issueDiscovery_slots]) fun g hg => by
      rwa [issueDiscovery_valueOwner] at hg
  | accept r => exact h.accept r
  | acceptDiscovery r =>
    refine h.of_owner (by rw [acceptDiscovery_slots]) fun g hg => ?_
    unfold Lifecycle.acceptDiscovery at hg
    split at hg <;> exact hg
  | settle generation o => exact h.of_owner rfl fun g hg => hg
  | wait f =>
    refine h.of_owner (by rw [wait_slots]) fun g hg => ?_
    unfold Lifecycle.wait at hg
    split at hg
    · exact hg
    · dsimp only at hg
      split at hg
      · exact (of_releaseGuard_valueOwner hg).1
      · exact hg
  | drop f =>
    refine h.of_owner (by rw [drop_slots]) fun g hg => ?_
    unfold Lifecycle.drop at hg
    split at hg
    · exact (of_releaseGuard_valueOwner hg).1
    · exact hg

/-- Once the live fetch of candidates is accepted, nobody holds the guard. -/
theorem HeldLive.free_of_accept (h : l.HeldLive) {r : Fetched κ} (hc : r.concern = .value)
    (hr : (l.accept r).1 = true) : (l.accept r).2.isValueBusy = false := by
  rw [isValueBusy, Option.isSome_eq_false_iff, Option.isNone_iff_eq_none]
  cases howner : (l.accept r).2.valueOwner with
  | none => rfl
  | some g =>
    -- the slot is empty now, and the holder would be on record there
    have hslot : (l.accept r).2.slots.value = none := by
      unfold Lifecycle.accept at hr ⊢
      split at hr
      · cases hr
      · rename_i hlive
        rw [if_neg hlive]
        dsimp only
        rw [if_pos hc, releaseGuard_slots, hc]
        rfl
    have := h.accept r g howner
    rw [hslot] at this
    cases this

end Lifecycle

/-- An update all of whose requests come to the same end. -/
def Update.answered (u : Update) (o : Outcome) : UpdateFetched where
  counts := u.counts.map (·.answered o)
  autoLoad := u.autoLoad.map (·.answered o)
  results := u.results.map (·.answered o)

namespace Session

variable {s s' : Session}

theorem Deed.heldLive (hd : s.Deed s') (h : s.requests.HeldLive) : s'.requests.HeldLive := by
  cases hd with
  | deal hl => exact hl.heldLive h
  | reset ops => exact nofun
  | change | count | results | graphResults | hear => exact h

theorem Deeds.heldLive (hd : s.Deeds s') (h : s.requests.HeldLive) : s'.requests.HeldLive :=
  Deeds.keeps (P := fun t => t.requests.HeldLive) hd (fun _ _ hstep => hstep.heldLive) h

/-! ## Failed answers -/

/-- A failed answer is accepted where an empty one is. -/
theorem accept_failed {κ : Type} (f : Fetch κ) (reason : String) :
    Lifecycle.accept (f.answered (.failed reason)) =
      Lifecycle.accept (f.answered (.completed [])) := by
  funext l
  exact if_congr (by simp [Fetch.answered]) rfl rfl

theorem acceptDiscovery_failed (f : Fetch NodeId) (reason : String) :
    Lifecycle.acceptDiscovery (f.answered (.failed reason)) =
      Lifecycle.acceptDiscovery (f.answered (.completed [])) := by
  funext l
  exact if_congr (by simp [Fetch.answered]) rfl rfl

theorem applyCounts_failed (f : Fetch (List NodeId)) (reason : String) :
    applyCounts (f.answered (.failed reason)) = applyCounts (f.answered (.completed [])) := by
  unfold applyCounts
  rw [accept_failed]
  rfl

theorem applyAutoLoad_failed (f : Fetch (List NodeId)) (reason : String) :
    applyAutoLoad (f.answered (.failed reason)) = applyAutoLoad (f.answered (.completed [])) := by
  unfold applyAutoLoad
  rw [accept_failed]
  rfl

theorem applyResults_failed (f : Fetch Bool) (reason : String) :
    applyResults (f.answered (.failed reason)) = applyResults (f.answered (.completed [])) := by
  unfold applyResults
  rw [accept_failed]
  rfl

theorem applyDiscovery_failed (f : Fetch NodeId) (reason : String) :
    applyDiscovery (f.answered (.failed reason)) = applyDiscovery (f.answered (.completed [])) := by
  unfold applyDiscovery
  rw [acceptDiscovery_failed]
  rfl

theorem applyIfAny_failed {κ : Type} {f : Fetched κ → Call Bool} {reason : String}
    (hf : ∀ a : Fetch κ, f (a.answered (.failed reason)) = f (a.answered (.completed [])))
    (fetch : Option (Fetch κ)) : applyIfAny f (fetch.map (·.answered (.failed reason))) =
      applyIfAny f (fetch.map (·.answered (.completed []))) := by
  cases fetch with
  | none => rfl
  | some a => exact hf a

theorem applyUpdate_failed (u : Update) (reason : String) :
    applyUpdate (u.answered (.failed reason)) = applyUpdate (u.answered (.completed [])) := by
  unfold applyUpdate Update.answered
  dsimp only
  rw [applyIfAny_failed (applyCounts_failed · reason), applyIfAny_failed
    (applyAutoLoad_failed · reason), applyIfAny_failed (applyResults_failed · reason)]

/-- Of a failed fetch of candidates nothing is kept. -/
theorem applyValueFetch_failed (f : Fetch NodeId) (reason : String) (s : Session) :
    applyValueFetch (f.answered (.failed reason)) s =
      (.ok 0, { s with requests := (s.requests.accept (f.answered (.failed reason))).2 }) := by
  unfold applyValueFetch
  rw [Call.bind_ok (Call.onRequests_eq rfl), Call.get_bind]
  cases (s.requests.accept (f.answered (.failed reason))).1 with
  | false => rfl
  | true => cases hn : s.diagram.node? f.context <;> simp [Fetch.answered, hn] <;> rfl

/-! ## Cancelled requests -/

theorem accept_aborted {κ : Type} (f : Fetch κ) (l : Lifecycle) :
    (l.accept (f.answered .aborted)).1 = false := by
  rw [Lifecycle.accept, if_pos (.inl rfl)]

theorem acceptDiscovery_aborted (f : Fetch NodeId) (l : Lifecycle) :
    (l.acceptDiscovery (f.answered .aborted)).1 = false := by
  rw [Lifecycle.acceptDiscovery, if_pos (.inl rfl)]

/-! ## Reachable sessions -/

/-- What comes of requests that fail. -/
structure Degrades (s : Session) (reason : String) : Prop where
  counts (f : Fetch (List NodeId)) : applyCounts (f.answered (.failed reason)) s =
    applyCounts (f.answered (.completed [])) s
  autoLoad (f : Fetch (List NodeId)) : applyAutoLoad (f.answered (.failed reason)) s =
    applyAutoLoad (f.answered (.completed [])) s
  results (f : Fetch Bool) : applyResults (f.answered (.failed reason)) s =
    applyResults (f.answered (.completed [])) s
  update (u : Update) : applyUpdate (u.answered (.failed reason)) s =
    applyUpdate (u.answered (.completed [])) s
  discovery (f : Fetch NodeId) : applyDiscovery (f.answered (.failed reason)) s =
    applyDiscovery (f.answered (.completed [])) s
  /-- Candidates of a chosen node are left alone, and nothing is told. -/
  value (f : Fetch NodeId) : s.ReadsLike (applyValueFetch (f.answered (.failed reason)) s).2 ∧
    (applyValueFetch (f.answered (.failed reason)) s).2.events = s.events
  /-- If the fetch of candidates was live, another one may be issued now. -/
  released (f : Fetch NodeId) (hf : f.concern = .value)
    (hlive : s.requests.slots.value = some f.generation) :
    (applyValueFetch (f.answered (.failed reason)) s).2.isValueFetchInProgress = false

/-- Nothing at all comes of requests that were cancelled. -/
structure IgnoresAborted (s : Session) : Prop where
  counts (f : Fetch (List NodeId)) : applyCounts (f.answered .aborted) s = (.ok false, s)
  autoLoad (f : Fetch (List NodeId)) : applyAutoLoad (f.answered .aborted) s = (.ok false, s)
  results (f : Fetch Bool) : applyResults (f.answered .aborted) s = (.ok false, s)
  update (u : Update) : applyUpdate (u.answered .aborted) s = (.ok false, s)
  discovery (f : Fetch NodeId) : applyDiscovery (f.answered .aborted) s = (.ok [], s)
  value (f : Fetch NodeId) : applyValueFetch (f.answered .aborted) s = (.ok 0, s)

theorem ignoresAborted (s : Session) : s.IgnoresAborted where
  counts f := applyCounts_of_rejected (accept_aborted f _)
  autoLoad f := applyAutoLoad_of_rejected (accept_aborted f _)
  results f := applyResults_of_rejected (accept_aborted f _)
  update u := by
    refine applyUpdate_of_rejected ?_ ?_ ?_
    all_goals
      intro a ha
      obtain ⟨f, -, rfl⟩ := Option.map_eq_some_iff.1 ha
      exact accept_aborted f _
  discovery f := applyDiscovery_of_rejected (acceptDiscovery_aborted f _)
  value f := applyValueFetch_of_rejected (accept_aborted f _)

/-- Whatever happened to a session before, failed requests degrade to empty answers, and cancelled
ones are ignored. -/
theorem failures_degrade (provider : Provider) (settings : QuerySettings) (actions : List Action)
    (reason : String) :
    (performAll actions (new provider settings)).Degrades reason ∧
      (performAll actions (new provider settings)).IgnoresAborted := by
  have hheld : (performAll actions (new provider settings)).requests.HeldLive :=
    (deeds_performAll actions _).heldLive nofun
  generalize performAll actions (new provider settings) = s at hheld ⊢
  refine ⟨?_, ignoresAborted s⟩
  constructor
  case counts => exact fun f => congrFun (applyCounts_failed f reason) s
  case autoLoad => exact fun f => congrFun (applyAutoLoad_failed f reason) s
  case results => exact fun f => congrFun (applyResults_failed f reason) s
  case update => exact fun u => congrFun (applyUpdate_failed u reason) s
  case discovery => exact fun f => congrFun (applyDiscovery_failed f reason) s
  case value =>
    intro f
    rw [applyValueFetch_failed]
    exact ⟨⟨rfl, rfl, rfl⟩, rfl⟩
  case released =>
    intro f hf hlive
    rw [applyValueFetch_failed]
    refine hheld.free_of_accept hf (Lifecycle.accept_of_live ?_ (by simp [Fetch.answered]))
    show s.requests.slots.get f.concern = some f.generation
    rw [hf]
    exact hlive

/-- Candidates of a city are on their way. -/
def choosingCity : List Action :=
  [.move (.placeRoot "City" none), .move (.beginValueFetch ⟨0⟩)]

/-- The request for the candidates of the city. -/
def cityFetch : Fetch NodeId :=
  { concern := .value, generation := 1, context := ⟨0⟩, guarded := true }

/-- No other candidates can be asked for until the fetch fails. -/
theorem released_by_failure :
    (performAll choosingCity (new .plain {})).isValueFetchInProgress = true ∧
      (applyValueFetch (cityFetch.answered (.failed "timeout"))
        (performAll choosingCity (new .plain {}))).2.isValueFetchInProgress = false :=
  ⟨by decide +kernel, (failures_degrade .plain {} choosingCity "timeout").1.released cityFetch rfl
    (by decide +kernel)⟩

end Session

end PatternQuery
