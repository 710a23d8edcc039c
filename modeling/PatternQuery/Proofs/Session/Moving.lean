import PatternQuery.Proofs.Session.BareNegations

/-!
# Calls that wait, as moves

A call that waits comes down to moves, whatever its arguments are (`Session.movesTo_waitingCall`):
each of its parts is a move, and waiting for a request is what the endpoint does and what becomes of
the guard. So a state that actions lead to is one that moves lead to (`Session.movesTo_performAll`).
-/

namespace PatternQuery

namespace Session

/-- What moves lead to, one after the other. -/
def follow (moves : List Move) (s : Session) : Session :=
  moves.foldl (fun s m => (m.perform s).2) s

/-- Some moves lead from one session to the other. -/
def MovesTo (s s' : Session) : Prop := ∃ moves, s.follow moves = s'

variable {s s' s'' : Session}

theorem MovesTo.refl (s : Session) : s.MovesTo s := ⟨[], rfl⟩

theorem MovesTo.trans (h : s.MovesTo s') (h' : s'.MovesTo s'') : s.MovesTo s'' := by
  obtain ⟨moves, rfl⟩ := h
  obtain ⟨more, rfl⟩ := h'
  exact ⟨moves ++ more, List.foldl_append⟩

theorem movesTo_move (m : Move) (s : Session) : s.MovesTo (m.perform s).2 := ⟨[m], rfl⟩

/-- A call is a move, whatever it hands out. -/
theorem MovesTo.of_handing {α : Type} {c : Call α} {hand : α → Handed} (m : Move)
    (hm : m.perform s = Move.handing c hand s) : s.MovesTo (c s).2 := by
  rw [← handing_snd c hand, ← hm]
  exact movesTo_move m s

end Session

namespace Run

open Session

variable {α β κ : Type} {s : Session}

theorem get_bind (f : Session → Run α) : (ofCall Call.get >>= f) s = f s s := rfl

theorem movesTo_bind {r : Run α} {f : α → Run β} (hr : s.MovesTo (r s).2)
    (hf : ∀ a s', r s = (.ok a, s') → s'.MovesTo (f a s').2) : s.MovesTo ((r >>= f) s).2 := by
  rcases hres : r s with ⟨res, s'⟩
  rw [hres] at hr
  cases res with
  | error e => rwa [bind_error hres]
  | ok a =>
    rw [bind_ok hres]
    exact hr.trans (hf a s' hres)

theorem movesTo_bind_pure {r : Run α} {g : α → β} (hr : s.MovesTo (r s).2) :
    s.MovesTo ((r >>= fun a => Pure.pure (g a)) s).2 :=
  movesTo_bind hr fun _ s' _ => .refl s'

theorem movesTo_ofCall {c : Call α} {hand : α → Handed} (m : Move)
    (hm : m.perform s = Move.handing c hand s) : s.MovesTo (ofCall c s).2 := by
  rw [ofCall_snd]
  exact .of_handing m hm

/-! ## Waiting -/

theorem movesTo_consult (e : Endpoint) (g : Nat) (s : Session) :
    s.MovesTo { s with requests := s.requests.consult e g } := by
  unfold Lifecycle.consult
  split
  · split
    · exact movesTo_move (.settle g _) s
    · exact .refl s
  · exact .refl s

theorem movesTo_wait (f : Fetch κ) (s : Session) :
    s.MovesTo { s with requests := (s.requests.wait f).2 } := by
  rw [← World.wait_bare]
  exact movesTo_move (.wait (World.bare f)) s

theorem movesTo_await (e : Endpoint) (f : Fetch κ) (s : Session) : s.MovesTo (await e f s).2 := by
  have hwait : s.MovesTo { s with
      requests := ((s.requests.consult e f.generation).wait f).2 } :=
    (movesTo_consult e f.generation s).trans (movesTo_wait f _)
  unfold await
  split
  · rename_i r l hl
    rwa [hl] at hwait
  · rename_i l hl
    rw [hl] at hwait
    exact hwait.trans (movesTo_move (.drop (World.bare f)) _)

theorem movesTo_awaitIfAny (e : Endpoint) (o : Option (Fetch κ)) (s : Session) :
    s.MovesTo (awaitIfAny e o s).2 := by
  cases o with
  | none => exact .refl s
  | some f => exact movesTo_bind_pure (movesTo_await e f s)

end Run

namespace Session

variable {s : Session}

/-! ## Updates -/

theorem movesTo_finishUpdate (e : Endpoint) (u : Update) (s : Session) :
    s.MovesTo (finishUpdate e u s).2 := by
  unfold finishUpdate
  split
  · exact .refl s
  · exact Run.movesTo_bind (Run.movesTo_awaitIfAny e u.counts s) fun _ s₁ _ =>
      Run.movesTo_bind (Run.movesTo_awaitIfAny e u.autoLoad s₁) fun _ s₂ _ =>
        Run.movesTo_bind (Run.movesTo_awaitIfAny e u.results s₂) fun _ s₃ _ =>
          Run.movesTo_ofCall (.applyUpdate _) rfl

theorem movesTo_update (e : Endpoint) (s : Session) : s.MovesTo (update e s).2 :=
  Run.movesTo_bind (Run.movesTo_ofCall .beginUpdate rfl) fun u s₁ _ =>
    Run.movesTo_bind_pure (movesTo_finishUpdate e u s₁)

theorem movesTo_runChange {α : Type} {c : Call (α × Update)} {hand : α × Update → Handed}
    (e : Endpoint) (m : Move) (hm : m.perform s = Move.handing c hand s) :
    s.MovesTo (runChange e c s).2 :=
  Run.movesTo_bind (Run.movesTo_ofCall m hm) fun a s₁ _ =>
    Run.movesTo_bind_pure (movesTo_finishUpdate e a.2 s₁)

/-! ## Relations -/

theorem movesTo_loadOne (e : Endpoint) (id : NodeId) (s : Session) :
    s.MovesTo (loadOne e id s).2 := by
  refine Run.movesTo_bind (Run.movesTo_ofCall (.beginDiscovery id) rfl) fun d s₁ _ => ?_
  cases d with
  | loaded children => exact .refl s₁
  | pending f =>
    exact Run.movesTo_bind (Run.movesTo_await e f s₁) fun r s₂ _ =>
      Run.movesTo_ofCall (.applyDiscovery r) rfl

theorem movesTo_loadAll (e : Endpoint) (fuel : Nat) (ids : List NodeId) (s : Session) :
    s.MovesTo (loadAll e fuel ids s).2 := by
  induction fuel generalizing s ids with
  | zero => cases ids <;> exact .refl s
  | succ fuel ih =>
    cases ids with
    | nil => exact .refl s
    | cons id rest =>
      rw [loadAll_cons]
      exact Run.movesTo_bind (movesTo_loadOne e id s) fun _ s₁ _ => ih _ s₁

/-! ## Queries and candidates -/

theorem movesTo_start (e : Endpoint) (fuel : Nat) (label : String) (anchor : Option Position)
    (s : Session) : s.MovesTo (start e fuel label anchor s).2 := by
  rw [start, Run.get_bind]
  exact Run.movesTo_bind (Run.movesTo_ofCall (.placeRoot label anchor) rfl) fun root s₁ _ =>
    Run.movesTo_bind (movesTo_loadAll e fuel [root] s₁) fun _ s₂ _ =>
      Run.movesTo_bind_pure (movesTo_update e s₂)

theorem movesTo_startSchema (e : Endpoint) (schema : Schema) (anchor : Option Position)
    (s : Session) : s.MovesTo (startSchema e schema anchor s).2 := by
  rw [startSchema, Run.get_bind]
  exact Run.movesTo_bind (Run.movesTo_ofCall (.placeSchema schema anchor) rfl) fun _ s₁ _ =>
    Run.movesTo_bind_pure (movesTo_update e s₁)

theorem movesTo_expand (e : Endpoint) (fuel : Nat) (id : NodeId) (index : Nat) (s : Session) :
    s.MovesTo (expand e fuel id index s).2 := by
  rw [expand, Run.get_bind]
  exact Run.movesTo_bind (Run.movesTo_ofCall (.addChild id index) rfl) fun child s₁ _ =>
    Run.movesTo_bind (movesTo_loadAll e fuel [child] s₁) fun _ s₂ _ =>
      Run.movesTo_bind_pure (movesTo_update e s₂)

theorem movesTo_choose (e : Endpoint) (id : NodeId) (s : Session) :
    s.MovesTo (choose e id s).2 := by
  have hnode : s.MovesTo (Run.ofCall (Call.requireNode id) s).2 := by
    rw [Run.ofCall_snd, Call.requireNode]
    split <;> exact .refl s
  refine Run.movesTo_bind hnode fun n s₁ _ => ?_
  show s₁.MovesTo ((if n.expanded then Run.ofCall (hideCandidates id) else _ : Run _) s₁).2
  split
  · exact Run.movesTo_ofCall (.hideCandidates id) rfl
  split
  · exact .refl s₁
  split
  · exact Run.movesTo_ofCall (.showCandidates id) rfl
  split
  · exact .refl s₁
  · exact Run.movesTo_bind (Run.movesTo_ofCall (.beginValueFetch id) rfl) fun f s₂ _ =>
      Run.movesTo_bind (Run.movesTo_await e f s₂) fun r s₃ _ =>
        Run.movesTo_bind_pure (Run.movesTo_ofCall (.applyValueFetch r) rfl)

/-! ## Actions -/

theorem movesTo_waitingCall (c : WaitingCall) (s : Session) : s.MovesTo (c.perform s) := by
  cases c with
  | start e fuel label anchor => exact movesTo_start e fuel label anchor s
  | startSchema e schema anchor => exact movesTo_startSchema e schema anchor s
  | load e fuel id => exact movesTo_loadAll e fuel [id] s
  | expand e fuel id index => exact movesTo_expand e fuel id index s
  | update e => exact movesTo_update e s
  | choose e id => exact movesTo_choose e id s
  | selectValue e id => exact movesTo_runChange e (.beginSelectValue id) rfl
  | removeValue e id value => exact movesTo_runChange e (.beginRemoveValue id value) rfl
  | negate e id => exact movesTo_runChange e (.beginNegate id) rfl
  | removeNode e id => exact movesTo_runChange e (.beginRemoveNode id) rfl

theorem movesTo_perform (a : Action) (s : Session) : s.MovesTo (a.perform s) := by
  cases a with
  | move m => exact movesTo_move m s
  | run c => exact movesTo_waitingCall c s

theorem movesTo_performAll (actions : List Action) (s : Session) :
    s.MovesTo (performAll actions s) := by
  induction actions generalizing s with
  | nil => exact .refl s
  | cons a rest ih => exact (movesTo_perform a s).trans (ih (a.perform s))

end Session

end PatternQuery
