import PatternQuery.Proofs.Session.Telling

/-!
# Rows in both modes

A session has two lists of rows, the flat ones and those in graph mode. A `Chronicle` is a session
with the answers that were merged since it was reset last; what the session has are the flat rows of
the last one, and the rows in graph mode of the last one that has any (`Chronicle.Faithful`). Both
lists come from one answer at all times if and only if no answer without rows in graph mode is
merged while those of an earlier one are there (`Chronicle.together_throughout_iff`).
-/

namespace PatternQuery

/-! ## Answers -/

namespace Fetched

/-- The flat rows of an answer. -/
def rows (r : Fetched Bool) : List Row := (Session.answeredRows r.outcome).head?.getD []

/-- The rows of an answer in graph mode, none if they were not asked for. -/
def graphRows (r : Fetched Bool) : List Row :=
  if r.context then (Session.answeredRows r.outcome).tail.head?.getD [] else []

end Fetched

namespace Move

/-- The answer whose rows are merged. -/
def merged? (s : Session) : Move → Option (Fetched Bool)
  | applyResults r => if (s.requests.accept r).1 then some r else none
  | applyUpdate r => r.results.filter fun f => ((s.beforeResults r).requests.accept f).1
  | _ => none

/-- The session is reset, by itself or with its last node. -/
def resets (s : Session) : Move → Bool
  | reset => true
  | placeRoot _ _ | placeSchema _ _ => !s.diagram.isEmpty
  | beginRemoveNode id =>
    match s.diagram.removeNode id with
    | (.ok _, d) => d.isEmpty
    | (.error _, _) => false
  | _ => false

end Move

namespace Session

variable {s s' s'' : Session}

/-! ## What moves do to rows -/

/-- The rows of the result are the same in both modes. -/
structure SameRows (s s' : Session) : Prop where
  results : s'.results = s.results
  graphResults : s'.graphResults = s.graphResults

theorem SameRows.refl (s : Session) : s.SameRows s := ⟨rfl, rfl⟩

theorem SameRows.trans (h : s.SameRows s') (h' : s'.SameRows s'') : s.SameRows s'' :=
  ⟨h'.results.trans h.results, h'.graphResults.trans h.graphResults⟩

theorem Chores.sameRows (h : s.Chores s') : s.SameRows s' := by
  induction h with
  | refl => exact .refl s
  | tail _ hlast ih =>
    cases hlast with
    | change | count | deal => exact ih.trans ⟨rfl, rfl⟩

/-- The flat rows of an answer replace those that are there, and so do those in graph mode if they
were asked for. -/
structure MergesRows (s : Session) (r : Fetched Bool) (s' : Session) : Prop where
  results : s'.results = r.rows
  graphResults : s'.graphResults = if r.context then r.graphRows else s.graphResults

/-- There are no rows. -/
structure NoRows (s : Session) : Prop where
  results : s.results = []
  graphResults : s.graphResults = []

/-- What a move does to rows, and what it says about it. -/
inductive RowStep (s : Session) (m : Move) (s' : Session) : Prop where
  | merge (r : Fetched Bool) (hm : m.merged? s = some r) (hr : m.resets s = false)
    (h : s.MergesRows r s')
  | reset (hm : m.merged? s = none) (hr : m.resets s = true) (h : s'.NoRows)
  | aside (hm : m.merged? s = none) (hr : m.resets s = false) (h : s.SameRows s')

theorem onRequests_of_accept {r : Fetched Bool} (h : (s.requests.accept r).1 = true) :
    Call.onRequests (Lifecycle.accept r) s =
      (.ok true, { s with requests := (s.requests.accept r).2 }) := by
  rw [← h]
  rfl

theorem applyResults_of_accepted {r : Fetched Bool} (h : (s.requests.accept r).1 = true) :
    s.MergesRows r (applyResults r s).2 := by
  rw [applyResults, Call.bind_ok (onRequests_of_accept h)]
  cases hr : r.context with
  | false => exact ⟨rfl, by rw [hr]; rfl⟩
  | true => exact ⟨rfl, by rw [Fetched.graphRows, hr]; rfl⟩

theorem rowStep_applyResults (r : Fetched Bool) (s : Session) :
    s.RowStep (.applyResults r) (applyResults r s).2 := by
  cases h : (s.requests.accept r).1 with
  | true => exact .merge r (by simp [Move.merged?, h]) rfl (applyResults_of_accepted h)
  | false =>
    rw [applyResults_of_rejected h]
    exact .aside (by simp [Move.merged?, h]) rfl (.refl s)

theorem rowStep_applyUpdate (r : UpdateFetched) (s : Session) :
    s.RowStep (.applyUpdate r) (applyUpdate r s).2 := by
  have hbefore := (chores_beforeResults r s).sameRows
  rw [applyUpdate_snd]
  cases hr : r.results with
  | none => exact .aside (by simp [Move.merged?, hr]) rfl hbefore
  | some f =>
    cases h : ((s.beforeResults r).requests.accept f).1 with
    | true =>
      have hmerge := applyResults_of_accepted h
      refine .merge f (by simp [Move.merged?, hr, h]) rfl ⟨hmerge.results, ?_⟩
      rw [← hbefore.graphResults]
      exact hmerge.graphResults
    | false =>
      refine .aside (by simp [Move.merged?, hr, h]) rfl ?_
      rwa [applyIfAny, applyResults_of_rejected h]

/-- A new query takes the place of one that there is, with its rows. -/
theorem rows_replaceDiagram (f : Diagram → NodeId × Diagram) (s : Session) :
    if s.diagram.isEmpty then s.SameRows (replaceDiagram f s).2
    else (replaceDiagram f s).2.NoRows := by
  rw [replaceDiagram, Call.get_bind]
  cases s.diagram.isEmpty with
  | true => exact ⟨rfl, rfl⟩
  | false => exact ⟨rfl, rfl⟩

theorem rowStep_beginRemoveNode (id : NodeId) (s : Session) :
    s.RowStep (.beginRemoveNode id) (beginRemoveNode id s).2 := by
  rcases hd : s.diagram.removeNode id with ⟨res, d⟩
  have hremove : Call.onDiagram (Diagram.removeNode id) s = (res, { s with diagram := d }) :=
    Call.onDiagram_eq hd
  cases res with
  | error e =>
    rw [beginRemoveNode, Call.bind_error hremove]
    exact .aside rfl (by simp [Move.resets, hd]) ⟨rfl, rfl⟩
  | ok held =>
    rw [beginRemoveNode, Call.bind_ok hremove, Call.get_bind]
    split
    · rename_i hempty
      exact .reset rfl (by simpa [Move.resets, hd] using hempty) ⟨rfl, rfl⟩
    · rename_i hempty
      have hrun : (Operation.run s.compiler.provider (.removeNode id) s.diagram).2 = d :=
        congrArg Prod.snd hd
      have hchanged := chores_changed (.removeNode id) (held, ·) s
      rw [hrun] at hchanged
      exact .aside rfl (by simpa [Move.resets, hd] using hempty) hchanged.sameRows

theorem rowStep_move (m : Move) (s : Session) : s.RowStep m (m.perform s).2 := by
  have handing {α : Type} {c : Call α} (hc : s.RowStep m (c s).2) (hand : α → Handed) :
      s.RowStep m (Move.handing c hand s).2 := by
    rwa [handing_snd]
  have placing (f : Diagram → NodeId × Diagram) (hm : m.merged? s = none)
      (hr : m.resets s = !s.diagram.isEmpty) : s.RowStep m (replaceDiagram f s).2 := by
    have hrows := rows_replaceDiagram f s
    cases hempty : s.diagram.isEmpty with
    | true =>
      rw [hempty] at hr hrows
      exact .aside hm hr hrows
    | false =>
      rw [hempty] at hr hrows
      exact .reset hm hr hrows
  cases m with
  | reset => exact handing (.reset rfl rfl ⟨rfl, rfl⟩) _
  | listen => exact .aside rfl rfl ⟨rfl, rfl⟩
  | unlisten => exact .aside rfl rfl ⟨rfl, rfl⟩
  | placeRoot label anchor => exact handing (placing _ rfl rfl) _
  | placeSchema schema anchor => exact handing (placing _ rfl rfl) _
  | beginRemoveNode id => exact handing (rowStep_beginRemoveNode id s) _
  | applyResults r => exact handing (rowStep_applyResults r s) _
  | applyUpdate r => exact handing (rowStep_applyUpdate r s) _
  | _ => exact .aside rfl rfl (chores_move rfl s).sameRows

end Session

/-- An answer without rows in graph mode is merged, and those of an earlier one stay. -/
def Move.leavesBehind (s : Session) (m : Move) : Bool :=
  (m.merged? s).any fun r => !r.context && !s.graphResults.isEmpty

/-- No move leaves rows in graph mode behind when its turn comes. -/
def Session.noneLeavesBehind : List Move → Session → Bool
  | [], _ => true
  | m :: rest, s => !m.leavesBehind s && noneLeavesBehind rest (m.perform s).2

/-! ## Chronicles -/

/-- A session with the answers that were merged since it was reset, the last one first. -/
structure Chronicle where
  session : Session
  merged : List (Fetched Bool) := []

namespace Chronicle

open Session

def new (provider : Provider) (settings : QuerySettings) : Chronicle :=
  { session := .new provider settings }

def next (c : Chronicle) (m : Move) : Chronicle where
  session := (m.perform c.session).2
  merged := if m.resets c.session then [] else (m.merged? c.session).toList ++ c.merged

def follow (c : Chronicle) (moves : List Move) : Chronicle := moves.foldl next c

variable {c : Chronicle} {provider : Provider} {settings : QuerySettings}

theorem follow_session (c : Chronicle) (moves : List Move) :
    (c.follow moves).session = c.session.follow moves := by
  induction moves generalizing c with
  | nil => rfl
  | cons m rest ih => exact ih (c.next m)

/-- The rows are those of the last answer that was merged, and those in graph mode of the last one
that was asked for them. -/
structure Faithful (c : Chronicle) : Prop where
  results : c.session.results = (c.merged.head?.map Fetched.rows).getD []
  graphResults : c.session.graphResults =
    ((c.merged.find? Fetched.context).map Fetched.graphRows).getD []

/-- The rows in both modes are those of the last answer that was merged. -/
structure Together (c : Chronicle) : Prop where
  results : c.session.results = (c.merged.head?.map Fetched.rows).getD []
  graphResults : c.session.graphResults = (c.merged.head?.map Fetched.graphRows).getD []

/-- What a move does to rows and to the answers they come from. -/
inductive Step (c : Chronicle) (m : Move) (c' : Chronicle) : Prop where
  | merge (r : Fetched Bool) (hm : m.merged? c.session = some r) (hc : c'.merged = r :: c.merged)
    (h : c.session.MergesRows r c'.session)
  | reset (hm : m.merged? c.session = none) (hc : c'.merged = []) (h : c'.session.NoRows)
  | aside (hm : m.merged? c.session = none) (hc : c'.merged = c.merged)
    (h : c.session.SameRows c'.session)

theorem step_next (c : Chronicle) (m : Move) : c.Step m (c.next m) := by
  cases rowStep_move m c.session with
  | merge r hm hr h => exact .merge r hm (by simp [next, hm, hr]) h
  | reset hm hr h => exact .reset hm (by simp [next, hr]) h
  | aside hm hr h => exact .aside hm (by simp [next, hm, hr]) h

theorem Faithful.step {c' : Chronicle} {m : Move} (h : c.Faithful) (hs : c.Step m c') :
    c'.Faithful := by
  cases hs with
  | merge r _ hc hrows =>
    refine ⟨by rw [hc]; exact hrows.results, ?_⟩
    rw [hc, hrows.graphResults]
    cases hcontext : r.context with
    | false => simpa [hcontext] using h.graphResults
    | true => simp [hcontext]
  | reset _ hc hrows =>
    exact ⟨by rw [hc]; exact hrows.results, by rw [hc]; exact hrows.graphResults⟩
  | aside _ hc hrows =>
    exact ⟨by rw [hc]; exact hrows.results.trans h.results,
      by rw [hc]; exact hrows.graphResults.trans h.graphResults⟩

theorem Faithful.follow (h : c.Faithful) (moves : List Move) : (c.follow moves).Faithful := by
  induction moves generalizing c with
  | nil => exact h
  | cons m rest ih => exact ih (h.step (c.step_next m))

/-- Rows in graph mode part from the flat ones when they are left behind, and only then. -/
theorem Together.step_iff {c' : Chronicle} {m : Move} (h : c.Together) (hs : c.Step m c') :
    c'.Together ↔ m.leavesBehind c.session = false := by
  cases hs with
  | merge r hm hc hrows =>
    have hiff : c'.Together ↔ c'.session.graphResults = r.graphRows :=
      ⟨fun ht => by rw [ht.graphResults, hc]; rfl, fun hg =>
        ⟨by rw [hc]; exact hrows.results, by rw [hc]; exact hg⟩⟩
    rw [hiff, hrows.graphResults, Move.leavesBehind, hm]
    cases hcontext : r.context with
    | false => simp [Fetched.graphRows, hcontext]
    | true => simp [hcontext]
  | reset hm hc hrows =>
    rw [Move.leavesBehind, hm]
    exact iff_of_true
      ⟨by rw [hc]; exact hrows.results, by rw [hc]; exact hrows.graphResults⟩ rfl
  | aside hm hc hrows =>
    rw [Move.leavesBehind, hm]
    exact iff_of_true ⟨by rw [hc]; exact hrows.results.trans h.results,
      by rw [hc]; exact hrows.graphResults.trans h.graphResults⟩ rfl

theorem together_throughout_from (h : c.Together) (moves : List Move) :
    (∀ taken, taken <+: moves → (c.follow taken).Together) ↔
      noneLeavesBehind moves c.session = true := by
  induction moves generalizing c with
  | nil => simpa [follow, noneLeavesBehind] using h
  | cons m rest ih =>
    rw [noneLeavesBehind, Bool.and_eq_true, Bool.not_eq_true', ← h.step_iff (c.step_next m)]
    constructor
    · intro hall
      have hnext : (c.next m).Together := hall [m] ⟨rest, rfl⟩
      refine ⟨hnext, (ih hnext).1 fun taken ht => ?_⟩
      exact hall (m :: taken) (List.cons_prefix_cons.2 ⟨rfl, ht⟩)
    · rintro ⟨hnext, hrest⟩ taken ht
      cases taken with
      | nil => exact h
      | cons b more =>
        obtain ⟨rfl, hmore⟩ := List.cons_prefix_cons.1 ht
        exact (ih hnext).2 hrest more hmore

/-- Moves reach every session that actions reach, and along them each list of rows has an answer it
comes from. The rows in both modes come from one answer at all times if and only if no move leaves
rows behind. -/
theorem together_throughout_iff (provider : Provider) (settings : QuerySettings) :
    (∀ actions, ∃ moves, ((new provider settings).follow moves).session =
      performAll actions (.new provider settings)) ∧
    ∀ moves, ((new provider settings).follow moves).Faithful ∧
      ((∀ taken, taken <+: moves → ((new provider settings).follow taken).Together) ↔
        noneLeavesBehind moves (.new provider settings) = true) := by
  refine ⟨fun actions => ?_, fun moves => ⟨?_, ?_⟩⟩
  · obtain ⟨moves, hmoves⟩ := movesTo_performAll actions (.new provider settings)
    exact ⟨moves, (follow_session _ moves).trans hmoves⟩
  · exact Faithful.follow ⟨rfl, rfl⟩ moves
  · exact together_throughout_from ⟨rfl, rfl⟩ moves

/-- Somebody who is called by a name. -/
def named (name : String) : Row := Table.ofList [("name", .str name)]

/-- Someone listens to the first answer and does not to the second one. -/
def unheard : List Move :=
  [.listen, .placeSchema (.node "Person" [] [] false) none, .beginResults,
    .applyResults ⟨.results, 1, true, .completed [[named "Ann"], [named "Ann"]]⟩,
    .unlisten, .beginResults, .applyResults ⟨.results, 2, false, .completed [[named "Bob"]]⟩]

/-- The flat rows come from the second answer, those in graph mode from the first one. -/
theorem not_together_of_unheard :
    ((new .plain {}).follow unheard).session.results = [named "Bob"] ∧
      ((new .plain {}).follow unheard).session.graphResults = [named "Ann"] ∧
      ¬ ∀ moves, ((new .plain {}).follow moves).Together := by
  have hgraph : ((new .plain {}).follow unheard).session.graphResults = [named "Ann"] := by
    decide +kernel
  refine ⟨by decide +kernel, hgraph, fun h => ?_⟩
  have hnone := (h unheard).graphResults
  rw [hgraph] at hnone
  revert hnone
  decide +kernel

end Chronicle

end PatternQuery
