import PatternQuery.Proofs.Session.Runs

/-!
# Answers to the current query

Counts and results are merged only while what was sent for them is what the diagram asks
(`World.merged_answers_current`). What carries this is `Session.Backs`: a change of a statement
never comes without a request that supersedes the one under way, and what comes without one only
extends the diagram.
-/

namespace PatternQuery.World

open Session

variable {w : World}

theorem Reachable.applyIfAny (h : w.Reachable) {κ : Type} {f : Fetched κ → Call Bool}
    {r : Option (Fetched κ)} (m : Fetched κ → Move) (hm : ∀ a, r = some a → (m a).Admissible w)
    (hp : ∀ a, (m a).perform w.session = Move.silent (f a) w.session) :
    ∃ w', w'.Reachable ∧ w.MovesTo w' ∧ w'.session = (Session.applyIfAny f r w.session).2 := by
  cases r with
  | none => exact ⟨w, h, .refl w, rfl⟩
  | some a =>
    refine ⟨w.act (m a), h.act _ (hm a rfl), (MovesTo.refl w).act _ (hm a rfl), ?_⟩
    show ((m a).perform w.session).2 = (f a w.session).2
    rw [hp, Move.silent, Move.handing]
    split
    · rename_i hf
      rw [hf]
    · rename_i hf
      rw [hf]

/-- The results of an update are merged in a reachable world too, in which nothing was handed out in
between. -/
theorem Reachable.beforeResults (h : w.Reachable) {r : UpdateFetched}
    (hr : (Move.applyUpdate r).Admissible w) : ∃ w', w'.Reachable ∧ w.MovesTo w' ∧
      w'.session = Session.beforeResults r w.session := by
  obtain ⟨hcounts, hautoLoad, -⟩ := hr
  obtain ⟨w₁, hw₁, hm₁, hs₁⟩ := h.applyIfAny .applyCounts hcounts fun _ => rfl
  have hautoLoad₁ (f : Fetched (List NodeId)) (hf : r.autoLoad = some f) :
      Awaits w₁.handed.lists f := (hautoLoad f hf).mono hm₁.handed.1
  obtain ⟨w₂, hw₂, hm₂, hs₂⟩ := hw₁.applyIfAny .applyAutoLoad hautoLoad₁ fun _ => rfl
  exact ⟨w₂, hw₂, hm₁.trans hm₂, by rw [hs₂, hs₁, Session.beforeResults]⟩

theorem Sound.countsCurrent (h : w.Sound) (hp : w.session.compiler.provider.Local)
    {r : Fetched (List NodeId)} (hr : Awaits w.handed.lists r) (hc : r.concern = .count)
    (haccept : (applyCounts r w.session).1 = .ok true) :
    w.session.CountsCurrent r.generation r.context := by
  obtain ⟨f, hf, ha⟩ := hr
  have hlive := live_of_ifAccepted haccept
  rw [ha.concern] at hc
  rw [ha.concern, hc, ha.generation] at hlive
  rw [ha.generation, ha.context]
  exact (h.backs.lists f hf).current hp hc hlive

theorem Sound.resultsCurrent (h : w.Sound) (hp : w.session.compiler.provider.Local)
    {r : Fetched Bool} (hr : Awaits w.handed.flags r)
    (haccept : (applyResults r w.session).1 = .ok true) :
    w.session.ResultsCurrent r.generation r.context := by
  obtain ⟨f, hf, ha⟩ := hr
  have hb := h.backs.flags f hf
  have hlive := live_of_ifAccepted haccept
  rw [ha.concern, hb.concern, ha.generation] at hlive
  rw [ha.generation, ha.context]
  exact hb.current hp hlive

/-- Whenever counts or results are merged, the statements that were sent for them are those of the
diagram at that moment; as parts of an update, results are merged behind its counts and candidates.
Calls that wait are made of such moments (`Sound.exists_moves`). -/
theorem merged_answers_current (hw : w.Reachable) (hp : w.session.compiler.provider.Local) :
    (∀ r, Awaits w.handed.lists r → r.concern = .count →
      (applyCounts r w.session).1 = .ok true →
        w.session.CountsCurrent r.generation r.context) ∧
    (∀ r, Awaits w.handed.flags r → (applyResults r w.session).1 = .ok true →
      w.session.ResultsCurrent r.generation r.context) ∧
    ∀ r, (Move.applyUpdate r).Admissible w → ∀ f, r.results = some f →
      (applyResults f (w.session.beforeResults r)).1 = .ok true →
        (w.session.beforeResults r).ResultsCurrent f.generation f.context := by
  refine ⟨fun r hr hc => hw.sound.countsCurrent hp hr hc, fun r hr => hw.sound.resultsCurrent hp hr,
    fun r hr f hf haccept => ?_⟩
  obtain ⟨w', hw', hm, hs⟩ := hw.beforeResults hr
  have he := (hm.sound hw.sound).2
  rw [← hs] at haccept ⊢
  refine hw'.sound.resultsCurrent ?_ ((hr.2.2 f hf).mono hm.handed.2.1) haccept
  rwa [he.compiler]

/-- Someone and whom they know. -/
def acquaintance : Schema :=
  .node "Person" [] [{ label := "KNOWS", target := .node "Person" [] [] false }] false

/-- A child is added between an update and its answers. -/
theorem merged_answers_current_after_addChild :
    let w := (((World.new .plain {}).act (.placeSchema acquaintance none)).act .beginUpdate).act
      (.addChild ⟨0⟩ 0)
    w.session.diagram.nodes.length = 3 ∧
      (applyCounts ⟨.count, 1, [⟨0⟩, ⟨1⟩], .completed []⟩ w.session).1 = .ok true ∧
      w.session.CountsCurrent 1 [⟨0⟩, ⟨1⟩] ∧ w.session.ResultsCurrent 2 false := by
  intro w
  have hmoves : (World.new .plain {}).MovesTo w :=
    (((MovesTo.refl _).act (.placeSchema acquaintance none) trivial).act .beginUpdate trivial).act
      (.addChild ⟨0⟩ 0) trivial
  have hw : w.Reachable := ⟨.plain, {}, hmoves.leads⟩
  have hp : w.session.compiler.provider.Local := by
    rw [(hmoves.sound (.new .plain {})).2.compiler]
    exact Provider.plain_local
  have hcounts : (applyCounts ⟨.count, 1, [⟨0⟩, ⟨1⟩], .completed []⟩ w.session).1 = .ok true := by
    decide +kernel
  have hlists : (⟨.count, 1, [⟨0⟩, ⟨1⟩], false⟩ : Fetch (List NodeId)) ∈ w.handed.lists := by
    decide +kernel
  have hflags : (⟨.results, 2, false, false⟩ : Fetch Bool) ∈ w.handed.flags := by
    decide +kernel
  obtain ⟨hcurrent, hcurrent', -⟩ := merged_answers_current hw hp
  refine ⟨by decide +kernel, hcounts, hcurrent _ ⟨_, hlists, rfl, rfl, rfl⟩ rfl hcounts, ?_⟩
  exact hcurrent' ⟨.results, 2, false, .completed []⟩ ⟨_, hflags, rfl, rfl, rfl⟩ (by decide +kernel)

end PatternQuery.World
