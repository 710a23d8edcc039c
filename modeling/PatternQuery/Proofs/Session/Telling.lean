import PatternQuery.Proofs.Session.Deeds

/-!
# Changes are told

Those who look at a session read its diagram and its rows, and read them again when it publishes an
event. Whatever happens to a session, it publishes one if there is anything new to read, and an
answer that it does not accept leaves everything as it is (`Session.action_tells`).
-/

namespace PatternQuery

/-! ## Answers that are not accepted -/

namespace Lifecycle

variable {l : Lifecycle} {κ : Type}

theorem accept_of_rejected {r : Fetched κ} (h : (l.accept r).1 = false) :
    l.accept r = (false, l) := by
  unfold accept at h ⊢
  split
  · rfl
  · rename_i hlive
    simp [hlive] at h

theorem acceptDiscovery_of_rejected {r : Fetched NodeId} (h : (l.acceptDiscovery r).1 = false) :
    l.acceptDiscovery r = (false, l) := by
  unfold acceptDiscovery at h ⊢
  split
  · rfl
  · rename_i hlive
    simp only [hlive, if_false] at h
    cases h

end Lifecycle

/-- An answer is handed in that is not accepted, nor is any part of it. -/
def Move.isRejected (s : Session) : Move → Bool
  | applyCounts r | applyAutoLoad r => !(s.requests.accept r).1
  | applyResults r => !(s.requests.accept r).1
  | applyUpdate r => r.counts.all (fun r => !(s.requests.accept r).1) &&
    r.autoLoad.all (fun r => !(s.requests.accept r).1) &&
    r.results.all fun r => !(s.requests.accept r).1
  | applyDiscovery r => !(s.requests.acceptDiscovery r).1
  | applyValueFetch r => !(s.requests.accept r).1
  | _ => false

namespace Session

variable {s s' s'' : Session} {κ : Type}

theorem onRequests_of_rejected {r : Fetched κ} (h : (s.requests.accept r).1 = false) :
    Call.onRequests (Lifecycle.accept r) s = (.ok false, s) := by
  unfold Call.onRequests
  rw [Lifecycle.accept_of_rejected h]

theorem ifAccepted_of_rejected {r : Fetched κ} (merge : Call Bool)
    (h : (s.requests.accept r).1 = false) :
    (do if ← Call.onRequests (Lifecycle.accept r) then merge else return false : Call Bool) s =
      (.ok false, s) := by
  rw [Call.bind_ok (onRequests_of_rejected h)]
  rfl

theorem applyCounts_of_rejected {r : Fetched (List NodeId)} (h : (s.requests.accept r).1 = false) :
    applyCounts r s = (.ok false, s) :=
  ifAccepted_of_rejected _ h

theorem applyAutoLoad_of_rejected {r : Fetched (List NodeId)}
    (h : (s.requests.accept r).1 = false) : applyAutoLoad r s = (.ok false, s) :=
  ifAccepted_of_rejected _ h

theorem applyResults_of_rejected {r : Fetched Bool} (h : (s.requests.accept r).1 = false) :
    applyResults r s = (.ok false, s) :=
  ifAccepted_of_rejected _ h

theorem applyIfAny_of_rejected {α : Type} {f : α → Call Bool} {r : Option α}
    (h : ∀ a, r = some a → f a s = (.ok false, s)) : applyIfAny f r s = (.ok false, s) := by
  cases r with
  | none => rfl
  | some a => exact h a rfl

theorem applyUpdate_of_rejected {r : UpdateFetched}
    (hcounts : ∀ f, r.counts = some f → (s.requests.accept f).1 = false)
    (hautoLoad : ∀ f, r.autoLoad = some f → (s.requests.accept f).1 = false)
    (hresults : ∀ f, r.results = some f → (s.requests.accept f).1 = false) :
    applyUpdate r s = (.ok false, s) := by
  unfold applyUpdate
  rw [Call.bind_ok (applyIfAny_of_rejected fun f hf => applyCounts_of_rejected (hcounts f hf)),
    Call.bind_ok (applyIfAny_of_rejected fun f hf => applyAutoLoad_of_rejected (hautoLoad f hf)),
    Call.bind_ok (applyIfAny_of_rejected fun f hf => applyResults_of_rejected (hresults f hf))]
  rfl

theorem applyDiscovery_of_rejected {r : Fetched NodeId}
    (h : (s.requests.acceptDiscovery r).1 = false) : applyDiscovery r s = (.ok [], s) := by
  have haccept : Call.onRequests (Lifecycle.acceptDiscovery r) s = (.ok false, s) := by
    unfold Call.onRequests
    rw [Lifecycle.acceptDiscovery_of_rejected h]
  unfold applyDiscovery
  rw [Call.bind_ok haccept]
  rfl

theorem applyValueFetch_of_rejected {r : Fetched NodeId} (h : (s.requests.accept r).1 = false) :
    applyValueFetch r s = (.ok 0, s) := by
  unfold applyValueFetch
  rw [Call.bind_ok (onRequests_of_rejected h)]
  rfl

theorem perform_of_rejected {m : Move} (h : m.isRejected s = true) :
    m.perform s = ({}, s) := by
  cases m with
  | applyCounts r =>
    exact handing_ok (applyCounts_of_rejected (by simpa [Move.isRejected] using h)) _
  | applyAutoLoad r =>
    exact handing_ok (applyAutoLoad_of_rejected (by simpa [Move.isRejected] using h)) _
  | applyResults r =>
    exact handing_ok (applyResults_of_rejected (by simpa [Move.isRejected] using h)) _
  | applyUpdate r =>
    obtain ⟨⟨hcounts, hautoLoad⟩, hresults⟩ : _ ∧ _ := by
      simpa only [Move.isRejected, Bool.and_eq_true] using h
    exact handing_ok (applyUpdate_of_rejected (fun f hf => by simpa [hf] using hcounts)
      (fun f hf => by simpa [hf] using hautoLoad) fun f hf => by simpa [hf] using hresults) _
  | applyDiscovery r =>
    exact handing_ok (applyDiscovery_of_rejected (by simpa [Move.isRejected] using h)) _
  | applyValueFetch r =>
    exact handing_ok (applyValueFetch_of_rejected (by simpa [Move.isRejected] using h)) _
  | _ => cases h

/-! ## Changes -/

/-- What can be read of both sessions is the same. -/
structure ReadsLike (s s' : Session) : Prop where
  diagram : s'.diagram = s.diagram
  results : s'.results = s.results
  graphResults : s'.graphResults = s.graphResults

theorem ReadsLike.refl (s : Session) : s.ReadsLike s := ⟨rfl, rfl, rfl⟩

theorem ReadsLike.trans (h : s.ReadsLike s') (h' : s'.ReadsLike s'') : s.ReadsLike s'' :=
  ⟨h'.diagram.trans h.diagram, h'.results.trans h.results, h'.graphResults.trans h.graphResults⟩

/-- More events were published, at least one if there is anything new to read. -/
def Tells (s s' : Session) : Prop :=
  ∃ published, s'.events = s.events ++ published ∧ (published ≠ [] ∨ s.ReadsLike s')

theorem Tells.refl (s : Session) : s.Tells s := ⟨[], by simp, .inr (.refl s)⟩

theorem Tells.trans (h : s.Tells s') (h' : s'.Tells s'') : s.Tells s'' := by
  obtain ⟨published, he, hp⟩ := h
  obtain ⟨more, he', hp'⟩ := h'
  refine ⟨published ++ more, by rw [he', he, List.append_assoc], ?_⟩
  rcases hp with hp | hp
  · exact .inl (by simp [hp])
  · rcases hp' with hp' | hp'
    · exact .inl (by simp [hp'])
    · exact .inr (hp.trans hp')

theorem Tells.of_event {k : EventKind} (h : s'.events = s.events ++ [k]) : s.Tells s' :=
  ⟨[k], h, .inl (by simp)⟩

theorem Deed.tells (h : s.Deed s') : s.Tells s' := by
  cases h with
  | change ops k => exact .of_event rfl
  | count nodes counts => exact .of_event rfl
  | results rows => exact .of_event rfl
  | graphResults rows => exact .of_event rfl
  | reset ops => exact .of_event rfl
  | deal hl => exact ⟨[], by simp, .inr ⟨rfl, rfl, rfl⟩⟩
  | hear listening => exact ⟨[], by simp, .inr ⟨rfl, rfl, rfl⟩⟩

theorem Deeds.tells (h : s.Deeds s') : s.Tells s' :=
  Deeds.keeps (P := fun t => s.Tells t) h (fun _ _ hstep hs => hs.trans hstep.tells) (.refl s)

/-- The action hands in an answer that is not accepted. -/
def Action.isRejected (s : Session) : Action → Bool
  | move m => m.isRejected s
  | run _ => false

/-- An action publishes at least one event if there is anything new to read after it, and it does
nothing at all if it hands in an answer that is not accepted. -/
theorem action_tells (a : Action) (s : Session) :
    (∃ published, (a.perform s).events = s.events ++ published ∧
      (published ≠ [] ∨ s.ReadsLike (a.perform s))) ∧
    (a.isRejected s = false ∨ a.perform s = s) := by
  refine ⟨(deeds_perform a s).tells, ?_⟩
  cases ha : a.isRejected s with
  | false => exact .inl rfl
  | true =>
    cases a with
    | move m => exact .inr (congrArg Prod.snd (perform_of_rejected ha))
    | run c => cases ha

end Session

end PatternQuery
