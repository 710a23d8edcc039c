import PatternQuery.Proofs.Statement.Placeholders

/-!
# Discovery of relations

The relations that lead on from a node are asked for behind the route to it from the root
(`Diagram.Route`). The statement matches the relations of the route, negated nodes included, and
has no conditions but the predefined constraints of the nodes on the route and the values that can
never change (`Diagram.discovery_of_reachable`).
-/

namespace PatternQuery

theorem eraseDups_of_nodup {α : Type} [DecidableEq α] {l : List α} (h : l.Nodup) :
    l.eraseDups = l := by
  induction l using List.reverseRecOn with
  | nil => rfl
  | append_singleton l a ih =>
    obtain ⟨hl, -, hdisjoint⟩ := List.nodup_append.1 h
    have ha : a ∉ l := fun hmem => hdisjoint a hmem a (List.mem_singleton_self a) rfl
    rw [eraseDups_concat, if_neg ha, ih hl]

namespace Diagram

open Contribution

/-- Relations that lead from one node to another, each from where the one before it has led. -/
inductive Route (d : Diagram) (start : Node) : List Hop → Node → Prop where
  | stay : Route d start [] start
  | go {xs : List Hop} {x : Hop} (before : Route d start xs x.source) (hop : d.IsHop x) :
    Route d start (xs ++ [x]) x.target

/-- The nodes that relations lead through from a node. -/
def visits (start : Node) (xs : List Hop) : List Node := start :: xs.map Hop.target

variable {d : Diagram} {target : NodeId} {needed : Bool} {r n m : Node} {x : Hop} {xs : List Hop}

theorem visits_concat (r : Node) (xs : List Hop) (x : Hop) :
    visits r (xs ++ [x]) = visits r xs ++ [x.target] := by
  rw [visits, List.map_append]
  rfl

/-! ## Routes -/

namespace Route

theorem end_mem (h : d.Route r xs n) : n ∈ visits r xs := by
  cases h with
  | stay => exact List.mem_cons_self
  | go _ _ => simp [visits_concat]

/-- The node that a route leads to is below all that it leads through. -/
theorem belowOrSelf (h : d.Route r xs n) (hd : d.Shape) (hm : m ∈ visits r xs) :
    d.BelowOrSelf n.id m.id := by
  induction h with
  | stay => rw [List.mem_singleton.1 hm]; exact .refl
  | go _ hop ih =>
    rw [visits_concat] at hm
    rcases List.mem_append.1 hm with hm | hm
    · exact .head (hd.hangsFrom_of_hop hop) (ih hm)
    · rw [List.mem_singleton.1 hm]
      exact .refl

theorem target_notMem (h : d.Route r xs x.source) (hd : d.Shape) (hx : d.IsHop x) :
    x.target ∉ visits r xs := by
  intro hmem
  have hle := hd.number_le (h.belowOrSelf hd hmem)
  have hlt := hd.number_lt (hd.hangsFrom_of_hop hx)
  omega

/-- A route leads through no node twice. -/
theorem nodup_visits (h : d.Route r xs n) (hd : d.Shape) : (visits r xs).Nodup := by
  induction h with
  | stay => exact List.nodup_singleton r
  | go before hop ih =>
    rw [visits_concat, List.nodup_append]
    refine ⟨ih, List.nodup_singleton _, ?_⟩
    rintro m hm m' hm' rfl
    rw [List.mem_singleton.1 hm'] at hm
    exact before.target_notMem hd hop hm

theorem eq_nil_iff (h : d.Route r xs n) (hd : d.Shape) : xs = [] ↔ n = r := by
  cases h with
  | stay => simp
  | go before hop =>
    refine iff_of_false (by simp) ?_
    intro e
    exact before.target_notMem hd hop (e ▸ List.mem_cons_self)

end Route

theorem Shape.linksToRoot_target (h : d.Shape) (hx : d.IsHop x) :
    d.linksToRoot x.target.id = d.linksToRoot x.source.id ++ [x.link] := by
  rw [linksToRoot, linksToRoot, hx.target_id, hx.source_id, h.incomingPath_target hx.1,
    List.reverse_cons]

theorem Shape.linksToRoot_root (h : d.Shape) (hr : d.root? = some r) : d.linksToRoot r.id = [] := by
  rw [linksToRoot, List.reverse_eq_nil_iff]
  refine incomingPath_eq_nil (Option.eq_none_iff_forall_not_mem.2 fun l hl => ?_)
  obtain ⟨hl, ht⟩ := mem_of_incomingRelation? hl
  have hb := h.hangsFrom_of_link (mem_relationLinks.1 hl).1
  rw [ht] at hb
  exact h.not_below_root hr (.single hb)

/-- There is a route from the root to every node of the query, by the links that lead there. -/
theorem Shape.exists_route (h : d.Shape) (hr : d.root? = some r) (hn : n ∈ d.nodes)
    (hk : n.kind ≠ .value) : ∃ xs, d.Route r xs n ∧ d.linksToRoot n.id = xs.map Hop.link := by
  generalize hnum : n.id.number = k
  induction k using Nat.strongRecOn generalizing n with
  | ind k ih =>
    by_cases hroot : n.kind = .root
    · obtain rfl := h.eq_root hr hn hroot
      exact ⟨[], .stay, h.linksToRoot_root hr⟩
    · obtain ⟨x, hx, rfl⟩ := h.exists_hop_to hn hk hroot
      have hlt := h.number_lt (h.hangsFrom_of_hop hx)
      obtain ⟨xs, hxs, hlinks⟩ :=
        ih x.source.id.number (by omega) hx.source_mem (h.kind_of_hop hx).1 rfl
      refine ⟨xs ++ [x], hxs.go hx, ?_⟩
      rw [h.linksToRoot_target hx, hlinks, List.map_append]
      rfl

/-! ## What a route contributes -/

/-- What a node contributes that is matched. -/
def nodeContributions (target : NodeId) (needed : Bool) (m : Node) : List Contribution :=
  .standing m :: selectionOf target needed m

/-- What a route contributes that is matched throughout. -/
def routeContributions (target : NodeId) (needed : Bool) (start : Node) (xs : List Hop) :
    List Contribution :=
  nodeContributions target needed start ++
    xs.flatMap fun x => .relation x :: nodeContributions target needed x.target

theorem nodup_nodeContributions : (nodeContributions target needed m).Nodup := by
  rw [nodeContributions, selectionOf]
  split <;> simp

/-- One more relation adds what it contributes and is not there yet. -/
theorem contributions_concat (hr : d.root? = some r) {links : List Link}
    (hx : d.hop? x.link = some x) :
    d.contributions target needed (links ++ [x.link]) =
      d.contributions target needed links ++
        ((d.contributionsOf target needed x).filter
          fun c => c ∉ d.contributions target needed links).eraseDups := by
  have hhops : d.hops (links ++ [x.link]) = d.hops links ++ [x] := by
    rw [hops, List.filterMap_append, List.filterMap_cons_some hx]
    rfl
  simp only [contributions, hr, hhops, List.flatMap_append, List.flatMap_singleton,
    ← List.append_assoc]
  rw [List.eraseDups_append, List.removeAll]
  simp only [List.mem_eraseDups, List.elem_eq_mem, decide_not]

theorem mem_nodeContributions {c : Contribution} (hc : c ∈ nodeContributions target needed m) :
    c = standing m ∨ c = selection m := by
  rw [nodeContributions, List.mem_cons, mem_selectionOf] at hc
  exact hc.imp_right And.left

/-- Contributions of a route are about the nodes that it leads through. -/
theorem mem_routeContributions {c : Contribution}
    (hc : c ∈ routeContributions target needed r xs) :
    (∃ m ∈ visits r xs, c = standing m ∨ c = selection m) ∨ ∃ x ∈ xs, c = relation x := by
  rw [routeContributions, List.mem_append, List.mem_flatMap] at hc
  rcases hc with hc | ⟨x, hx, hc⟩
  · exact .inl ⟨r, List.mem_cons_self, mem_nodeContributions hc⟩
  · have hmem : x.target ∈ visits r xs := List.mem_cons_of_mem r (List.mem_map_of_mem hx)
    rcases List.mem_cons.1 hc with rfl | hc
    · exact .inr ⟨x, hx, rfl⟩
    · exact .inl ⟨x.target, hmem, mem_nodeContributions hc⟩

theorem standing_mem_routeContributions (hm : m ∈ visits r xs) :
    standing m ∈ routeContributions target needed r xs := by
  rw [routeContributions, List.mem_append, List.mem_flatMap]
  rcases List.mem_cons.1 hm with rfl | hm
  · exact .inl List.mem_cons_self
  · obtain ⟨x, hx, rfl⟩ := List.mem_map.1 hm
    exact .inr ⟨x, hx, by simp [nodeContributions]⟩

namespace Route

/-- The next relation of a route adds itself and the node that it leads to. -/
theorem new_contributions (h : d.Route r xs x.source) (hd : d.Shape) (hx : d.IsHop x)
    (hfree : d.excludes target x = false) :
    ((d.contributionsOf target needed x).filter
        fun c => c ∉ routeContributions target needed r xs) =
      relation x :: nodeContributions target needed x.target := by
  have htarget := h.target_notMem hd hx
  have hsource : standing x.source ∈ routeContributions target needed r xs :=
    standing_mem_routeContributions h.end_mem
  have hnew : ∀ c ∈ relation x :: nodeContributions target needed x.target,
      c ∉ routeContributions target needed r xs := by
    intro c hc hmem
    rcases mem_routeContributions hmem with ⟨m, hm, e⟩ | ⟨y, hy, rfl⟩
    · rcases List.mem_cons.1 hc with rfl | hc
      · simp at e
      · rcases mem_nodeContributions hc with rfl | rfl
        · simp only [standing.injEq, reduceCtorEq, or_false] at e
          exact htarget (e ▸ hm)
        · simp only [selection.injEq, reduceCtorEq, false_or] at e
          exact htarget (e ▸ hm)
    · rcases List.mem_cons.1 hc with e | hc
      · obtain rfl := relation.inj e
        exact htarget (List.mem_cons_of_mem r (List.mem_map_of_mem hy))
      · rcases mem_nodeContributions hc with e | e <;> simp at e
  have hof : d.contributionsOf target needed x =
      standing x.source :: relation x :: nodeContributions target needed x.target := by
    rw [contributionsOf, hfree]
    rfl
  rw [hof, List.filter_cons_of_neg (by simpa using hsource), List.filter_eq_self]
  exact fun c hc => decide_eq_true (hnew c hc)

/-- The contributions of a route that is matched throughout, each where it first comes. -/
theorem contributions_eq (h : d.Route r xs n) (hd : d.Shape) (hr : d.root? = some r)
    (hfree : ∀ x ∈ xs, d.excludes target x = false) :
    d.contributions target needed (xs.map Hop.link) = routeContributions target needed r xs := by
  induction h with
  | stay =>
    simp only [contributions, hr, hops, List.map_nil, List.filterMap_nil, List.flatMap_nil,
      List.append_nil, routeContributions]
    exact eraseDups_of_nodup nodup_nodeContributions
  | @go ys y before hop ih =>
    have ih := ih fun z hz => hfree z (List.mem_append_left _ hz)
    have hy := hfree y (List.mem_append_right _ (List.mem_singleton_self y))
    have hnodup : (relation y :: nodeContributions target needed y.target).Nodup := by
      refine List.nodup_cons.2 ⟨fun hc => ?_, nodup_nodeContributions⟩
      rcases mem_nodeContributions hc with e | e <;> simp at e
    rw [List.map_append, List.map_singleton, contributions_concat hr hop.2, ih,
      before.new_contributions hd hop hy, eraseDups_of_nodup hnodup, routeContributions,
      routeContributions, List.flatMap_append, List.flatMap_singleton, List.append_assoc]

/-- No negation applies on a route to the node that is asked about. -/
theorem excludes_eq_false (h : d.Route r xs n) (hd : d.Shape) :
    ∀ x ∈ xs, d.excludes n.id x = false := by
  intro x hx
  refine hd.excludes_eq_false_iff.2 fun _ => h.belowOrSelf hd ?_
  exact List.mem_cons_of_mem r (List.mem_map_of_mem hx)

end Route

/-! ## The clauses of a route -/

theorem matched_append (cs cs' : List Contribution) :
    matched (cs ++ cs') = matched cs ++ matched cs' := List.filterMap_append

theorem matched_nodeContributions : matched (nodeContributions target needed m) = [] := by
  rw [nodeContributions, selectionOf]
  split <;> rfl

theorem matched_routeContributions : matched (routeContributions target needed r xs) = xs := by
  have htail : matched
      (xs.flatMap fun x => relation x :: nodeContributions target needed x.target) = xs := by
    induction xs with
    | nil => rfl
    | cons x xs ih =>
      have hx : matched (relation x :: nodeContributions target needed x.target) = [x] :=
        congrArg (x :: ·) matched_nodeContributions
      rw [List.flatMap_cons, matched_append, hx, ih, List.singleton_append]
  rw [routeContributions, matched_append, matched_nodeContributions, htail, List.nil_append]

/-- What a node contributes to the conditions of a statement that needs no values: its predefined
constraints, and its values if they can never change. -/
theorem conditions_nodeContributions (q : Provider) (settings : QuerySettings) (target : NodeId)
    (m : Node) : (nodeContributions target false m).flatMap (conditions q settings) =
      m.predefinedConstraints q ++
        if m.immutable ∧ m.negative = false ∧ m.selected ≠ [] ∧ m.id ≠ target
        then [m.valuePredicate q] else [] := by
  have hvalue : m.hasValue = decide (m.selected ≠ []) := by
    rw [Node.hasValue]
    cases m.selected <;> rfl
  rw [nodeContributions, List.flatMap_cons, selectionOf]
  congr 1
  by_cases hid : m.id = target
  · simp [hid]
  · cases himm : m.immutable <;> cases hneg : m.negative <;>
      simp [hid, conditions_selection, hvalue, hneg]

theorem conditions_routeContributions (q : Provider) (settings : QuerySettings) (target : NodeId)
    (r : Node) (xs : List Hop) :
    (routeContributions target false r xs).flatMap (conditions q settings) =
      (visits r xs).flatMap fun m => m.predefinedConstraints q ++
        if m.immutable ∧ m.negative = false ∧ m.selected ≠ [] ∧ m.id ≠ target
        then [m.valuePredicate q] else [] := by
  rw [routeContributions, List.flatMap_append, conditions_nodeContributions, visits,
    List.flatMap_cons, List.flatMap_map, List.flatMap_assoc]
  congr 1
  refine List.flatMap_congr fun x _ => ?_
  rw [List.flatMap_cons, conditions_nodeContributions]
  rfl

/-- Relations that lead on from a node are asked for behind the route to it from the root. Its
relations are matched, in their order and whether or not nodes on it are negated, and what leads on
from the node comes after them, or alone for the root. The conditions are the predefined constraints
of the nodes on the route, each of which comes once, and those of their values that can never
change, the node itself and negated nodes excepted. -/
theorem discovery_of_reachable {p : Provider} (h : d.Reachable p) (ht : d.IsQueryNode target)
    {q : Provider} (hq : q.Hookless) (settings : QuerySettings) :
    let c : Compiler := ⟨q, settings⟩
    ∃ (r n : Node) (xs : List Hop) (parts : StatementParts),
      d.root? = some r ∧ n ∈ d.nodes ∧ n.id = target ∧
      d.Route r xs n ∧ (visits r xs).Nodup ∧ d.linksToRoot target = xs.map Hop.link ∧
      (∀ l, l ∈ d.linksToRoot target ↔
        l ∈ d.links ∧ l.kind = .relation ∧ d.BelowOrSelf target l.target) ∧
      c.relationQuery d target = .ok (parts.compile settings.preamble) ∧
      (n = r → parts.patterns = [n.pattern ++ "-[r]->(x)"]) ∧
      (n ≠ r → parts.patterns = (xs.mapIdx fun i x => x.pattern settings ("r" ++ toString i))
        ++ ["(" ++ n.var ++ ")" ++ "-[r]->(x)"]) ∧
      parts.conditions = (visits r xs).flatMap fun m =>
        m.predefinedConstraints q ++
          if m.immutable ∧ m.negative = false ∧ m.selected ≠ [] ∧ m.id ≠ target
          then [m.valuePredicate q] else [] := by
  intro c
  have hs := h.wellFormed.toShape
  obtain ⟨r, hr⟩ := hs.exists_root? ht
  obtain ⟨n, hn, hk⟩ := hs.isQueryNode_iff.1 ht
  obtain rfl := id_of_node? hn
  obtain ⟨xs, hroute, hlinks⟩ := hs.exists_route hr (mem_of_node? hn) hk
  have hpath := hs.pathElements_eq ht hr c.provider c.settings false
  rw [hlinks, hroute.contributions_eq hs hr (hroute.excludes_eq_false hs), ← hlinks] at hpath
  have hnil : (d.linksToRoot n.id).isEmpty = true ↔ n = r := by
    rw [hlinks, List.isEmpty_iff, List.map_eq_nil_iff, hroute.eq_nil_iff hs]
  let e := (QueryElements.ofContributions c.provider c.settings
    (routeContributions n.id false r xs)).orRoot r
  have hpatterns : e.patterns = if xs = [] then [r.pattern]
      else xs.mapIdx fun i x => x.pattern settings ("r" ++ toString i) := by
    rw [QueryElements.orRoot_patterns, matched_routeContributions]
  refine ⟨r, n, xs, c.relationParts e (d.linksToRoot n.id) n, hr, mem_of_node? hn, rfl, hroute,
    hroute.nodup_visits hs, hlinks, ?_, ?_, ?_, ?_, ?_⟩
  · intro l
    rw [linksToRoot, List.mem_reverse, hs.mem_incomingPath_iff ht, mem_relationLinks, and_assoc]
  · rw [Compiler.relationQuery_of_elements hn hpath, Compiler.finish_of_hookless hq]
  · intro hroot
    exact if_pos (hnil.2 hroot)
  · intro hroot
    rw [if_neg (mt (hroute.eq_nil_iff hs).1 hroot)] at hpatterns
    rw [← hpatterns]
    exact if_neg (mt hnil.1 hroot)
  · exact (QueryElements.orRoot_conditions _ r).trans
      (conditions_routeContributions c.provider settings n.id r xs)

/-- A person whose value can never change, with a friend who is negated and likes a movie. What
leads on from the movie is asked for behind both relations, and the value of the friend is left
out. -/
theorem discovery_of_friends_movie :
    let people : Catalogue := { labels := Table.ofList [
      ("Person", { predefinedConstraints := ["$identifier.alive"], immutable := some true })] }
    let friend : Schema := .node "Person" [Table.empty]
      [⟨"LIKES", .node "Movie" [Table.empty] [] false, false⟩] false
    let s : Schema := .node "Person" [Table.empty] [⟨"KNOWS", friend, false⟩] false
    let q := Provider.ofCatalogue people
    let d := Operation.runAll q [.addSchema s none, .negate ⟨2⟩] (.new 10)
    d.Reachable q ∧ d.IsQueryNode ⟨4⟩ ∧
      (Compiler.relationQuery ⟨q, {}⟩ d ⟨4⟩).toOption.map (·.text) = some ("MATCH " ++
        "(person:`Person`)-[r0:`KNOWS`]->(person0:`Person`), " ++
        "(person0:`Person`)-[r1:`LIKES`]->(movie:`Movie`), (movie)-[r]->(x)" ++
        " WHERE person.alive AND ID(person) = $person_internalID AND person0.alive" ++
        " RETURN type(r) AS label, last(labels(x)) AS target, count(r) AS count" ++
        " ORDER BY count(r) DESC") ∧
      ∃ (r n : Node) (xs : List Hop) (parts : StatementParts), d.root? = some r ∧ n.id = ⟨4⟩ ∧
        d.Route r xs n ∧ d.linksToRoot ⟨4⟩ = xs.map Hop.link ∧
        Compiler.relationQuery ⟨q, {}⟩ d ⟨4⟩ = .ok (parts.compile "") ∧
        parts.conditions = (visits r xs).flatMap fun m => m.predefinedConstraints q ++
          if m.immutable ∧ m.negative = false ∧ m.selected ≠ [] ∧ m.id ≠ ⟨4⟩
          then [m.valuePredicate q] else [] := by
  intro people friend s q d
  have hd : d.Reachable q := Reachable.runAll (.new 10) _ (by decide +kernel)
  have ht : d.IsQueryNode ⟨4⟩ := by decide +kernel
  obtain ⟨r, n, xs, parts, hr, -, hid, hroute, -, hlinks, -, hquery, -, -, hconditions⟩ :=
    discovery_of_reachable hd ht (Provider.hookless_ofCatalogue people) {}
  exact ⟨hd, ht, by decide +kernel, r, n, xs, parts, hr, hid, hroute, hlinks, hquery, hconditions⟩

end Diagram

end PatternQuery
