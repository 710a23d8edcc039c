import PatternQuery.Proofs.Diagram.Attempts
import PatternQuery.Proofs.Diagram.Resets
import PatternQuery.Proofs.Diagram.Showing

/-!
# Leafing through candidates

Once candidates are stored and shown, `k` is the number of the page exactly if the rows that are
shown are the `k`-th piece of what is stored (`Diagram.OnPage`). Every turn of a page keeps this
(`Diagram.Leafing.onPage`), so to turn pages until there is no next one shows every candidate once
(`Diagram.Browse.pages_eq`).
-/

namespace PatternQuery.Diagram

/-! ## Pages of rows -/

/-- The number of the last page; the first page is there even if nothing is on it. -/
def lastPage (pageSize : Nat) (rows : List Row) : Nat :=
  max 1 ((rows.length + pageSize - 1) / pageSize)

/-- The rows on a page. -/
def pageOf (pageSize : Nat) (rows : List Row) (k : Nat) : List Row :=
  rows.extract ((k - 1) * pageSize) (k * pageSize)

variable {pageSize k : Nat} {rows : List Row}

theorem one_le_lastPage (pageSize : Nat) (rows : List Row) : 1 ≤ lastPage pageSize rows :=
  Nat.le_max_left _ _

/-- There is another page exactly if the pages up to this one do not hold all rows. -/
theorem lt_lastPage_iff (hsize : 0 < pageSize) (hk : 1 ≤ k) :
    k < lastPage pageSize rows ↔ k * pageSize < rows.length := by
  have hceil : k < (rows.length + pageSize - 1) / pageSize ↔ k * pageSize < rows.length := by
    rw [Nat.lt_iff_add_one_le, Nat.le_div_iff_mul_le hsize, Nat.add_one_mul]
    omega
  rw [← hceil, lastPage]
  omega

theorem pageOf_eq (pageSize : Nat) (rows : List Row) (hk : 1 ≤ k) :
    pageOf pageSize rows k = (rows.drop ((k - 1) * pageSize)).take pageSize := by
  obtain ⟨j, rfl⟩ := Nat.exists_eq_add_of_le' hk
  rw [pageOf, List.extract_eq_take_drop, Nat.add_sub_cancel, Nat.add_one_mul,
    Nat.add_sub_cancel_left]

theorem length_pageOf_le (rows : List Row) (hk : 1 ≤ k) :
    (pageOf pageSize rows k).length ≤ pageSize := by
  rw [pageOf_eq pageSize rows hk]
  exact List.length_take_le _ _

/-- A page and what comes after it. -/
theorem pageOf_append (pageSize : Nat) (rows : List Row) (hk : 1 ≤ k) :
    pageOf pageSize rows k ++ rows.drop (k * pageSize) = rows.drop ((k - 1) * pageSize) := by
  obtain ⟨j, rfl⟩ := Nat.exists_eq_add_of_le' hk
  rw [pageOf_eq pageSize rows hk, Nat.add_sub_cancel, Nat.add_one_mul, ← List.drop_drop]
  exact List.take_append_drop _ _

/-- The pages from `k` on hold the rows from there on. -/
theorem flatten_pages (pageSize : Nat) (rows : List Row) (count : Nat) (hk : 1 ≤ k) :
    ((List.range' k count).map (pageOf pageSize rows)).flatten ++
      rows.drop ((k - 1 + count) * pageSize) = rows.drop ((k - 1) * pageSize) := by
  induction count generalizing k with
  | zero => rfl
  | succ count ih =>
    have hrest := ih (Nat.le_add_left 1 k)
    rw [Nat.add_sub_cancel] at hrest
    have hnext : k - 1 + (count + 1) = k + count := by omega
    rw [List.range'_succ, List.map_cons, List.flatten_cons, List.append_assoc, hnext, hrest,
      pageOf_append pageSize rows hk]

/-- All pages hold all rows. -/
theorem flatten_allPages (hsize : 0 < pageSize) (rows : List Row) :
    ((List.range' 1 (lastPage pageSize rows)).map (pageOf pageSize rows)).flatten = rows := by
  have hlast : ¬ lastPage pageSize rows * pageSize < rows.length := fun hlt =>
    Nat.lt_irrefl _ ((lt_lastPage_iff hsize (one_le_lastPage pageSize rows)).2 hlt)
  have hall := flatten_pages pageSize rows (lastPage pageSize rows) (Nat.le_refl 1)
  rwa [Nat.sub_self, Nat.zero_add, Nat.zero_mul, List.drop_zero,
    List.drop_eq_nil_of_le (Nat.not_lt.1 hlast), List.append_nil] at hall

theorem pageRows_eq_pageOf {n : Node} (pageSize : Nat) (rows : List Row) (hn : 1 ≤ n.page) :
    pageRows pageSize n rows = pageOf pageSize rows n.page := by
  rw [pageRows, pageOf_eq pageSize rows hn, Nat.max_eq_left hn]

/-! ## Being on a page -/

/-- A node shows page `k` of the rows that are stored on it. -/
structure OnPage (d : Diagram) (id : NodeId) (rows : List Row) (k : Nat) : Prop where
  stored : ∃ n, d.node? id = some n ∧ n.data = some rows ∧ n.page = k
  shown : d.shownRows id = (pageOf d.pageSize rows k).map some
  one_le : 1 ≤ k
  le_last : k ≤ lastPage d.pageSize rows

variable {p : Provider} {d e : Diagram} {id : NodeId} {n : Node}

/-- To show the candidates of a node puts it on its page. -/
theorem Linked.onPage_expandValues (h : d.Linked) (hd : d.Displays) (hn : d.node? id = some n)
    (hr : n.data = some rows) (hpage : 1 ≤ n.page) (hlast : n.page ≤ lastPage d.pageSize rows) :
    (d.expandValues id).2.OnPage id rows n.page := by
  have hsize : (d.expandValues id).2.pageSize = d.pageSize :=
    h.pageSize_run .plain (.expandValues id)
  obtain ⟨hshown, n', hn', hkeeps⟩ := h.shownRows_expandValues hd hn hr
  refine ⟨⟨n', hn', hkeeps.data.trans hr, hkeeps.page⟩, ?_, hpage, by rwa [hsize]⟩
  rw [hshown, hsize, pageRows_eq_pageOf d.pageSize rows hpage]

/-- So does a turn of the page, if there is such a page. -/
theorem Linked.onPage_turnPage (h : d.Linked) (hd : d.Displays) (ho : d.OnPage id rows k)
    {turn : Nat → Nat} (hpage : 1 ≤ turn k) (hlast : turn k ≤ lastPage d.pageSize rows) :
    (d.turnPage id turn).2.OnPage id rows (turn k) := by
  obtain ⟨n, hn, hr, rfl⟩ := ho.stored
  have hturned : (d.modify id fun n => { n with page := turn n.page }).Linked :=
    h.modify fun _ => rfl
  have hn' : (d.modify id fun n => { n with page := turn n.page }).node? id =
      some { n with page := turn n.page } := by
    rw [node?_modify_of_some ?_ hn, if_pos (id_of_node? hn)]
    exact fun _ => rfl
  rw [turnPage_snd]
  refine hturned.onPage_expandValues ?_ hn' hr hpage hlast
  exact hd.modify (fun _ => rfl) fun _ => rfl

theorem OnPage.hasNextPage_iff (ho : d.OnPage id rows k) :
    d.hasNextPage id = true ↔ k < lastPage d.pageSize rows := by
  obtain ⟨n, hn, hr, rfl⟩ := ho.stored
  rw [lt_lastPage_iff d.pageSize_pos ho.one_le]
  simp [hasNextPage, hn, hr]

theorem OnPage.hasPreviousPage_iff (ho : d.OnPage id rows k) :
    d.hasPreviousPage id = true ↔ 1 < k := by
  obtain ⟨n, hn, hr, rfl⟩ := ho.stored
  simp [hasPreviousPage, hn]

/-- What the calls for pages do on page `k`. -/
structure Turns (d : Diagram) (id : NodeId) (rows : List Row) (k : Nat) : Prop where
  next : k < lastPage d.pageSize rows →
    (d.nextPage id).1 = .ok true ∧ (d.nextPage id).2.OnPage id rows (k + 1)
  /-- After the last page nothing changes. -/
  atLast : k = lastPage d.pageSize rows → d.nextPage id = (.ok false, d)
  previous : 1 < k →
    (d.previousPage id).1 = .ok true ∧ (d.previousPage id).2.OnPage id rows (k - 1)
  /-- Before the first page nothing changes. -/
  atFirst : k = 1 → d.previousPage id = (.ok false, d)
  refold : (d.collapseValues id).1 = .ok () ∧
    (∃ count, ((d.collapseValues id).2.expandValues id).1 = .ok count) ∧
    ((d.collapseValues id).2.expandValues id).2.OnPage id rows k

theorem Linked.turns (h : d.Linked) (hd : d.Displays) (ho : d.OnPage id rows k) :
    d.Turns id rows k := by
  obtain ⟨n, hn, hr, hk⟩ := ho.stored
  have hok (turn : Nat → Nat) : (d.turnPage id turn).1 = .ok true :=
    Operation.turnPage_fst turn hn
  constructor
  · intro hlast
    rw [nextPage, if_pos (ho.hasNextPage_iff.2 hlast)]
    exact ⟨hok _, h.onPage_turnPage hd ho (Nat.le_add_left 1 k) hlast⟩
  · intro hlast
    rw [nextPage, if_neg]
    rw [ho.hasNextPage_iff]
    omega
  · intro hfirst
    have hlast := ho.le_last
    rw [previousPage, if_pos (ho.hasPreviousPage_iff.2 hfirst)]
    exact ⟨hok _, h.onPage_turnPage hd ho (by omega) (by omega)⟩
  · intro hfirst
    rw [previousPage, if_neg]
    rw [ho.hasPreviousPage_iff]
    omega
  · have hcollapsed := (Traces.refl d).collapseValues id
    obtain ⟨m, hm, hmid⟩ := h.live_collapseValues ⟨n, mem_of_node? hn, id_of_node? hn⟩
    have hkeeps := hcollapsed.keeps_of_node? h.toNumbered hn hm hmid
    have hm' := (h.collapseValues id).node?_of_mem hm
    rw [hmid] at hm'
    have hsize := hcollapsed.pageSize
    obtain ⟨count, d', hcount⟩ := expandValues_ok hm'
    subst hk
    refine ⟨collapseValues_fst hn, ⟨count, congrArg Prod.fst hcount⟩, ?_⟩
    rw [← hkeeps.page]
    refine (h.collapseValues id).onPage_expandValues (h.displays_collapseValues hd id) hm'
      (hkeeps.data.trans hr) ?_ ?_
    · rw [hkeeps.page]
      exact ho.one_le
    · rw [hkeeps.page, hsize]
      exact ho.le_last

/-! ## Leafing -/

/-- `e` comes from `d` by turning pages under a node and by hiding and showing its candidates. -/
inductive Leafing (id : NodeId) (d : Diagram) : Diagram → Prop where
  | start : Leafing id d d
  | next {e : Diagram} (h : Leafing id d e) : Leafing id d (e.nextPage id).2
  | previous {e : Diagram} (h : Leafing id d e) : Leafing id d (e.previousPage id).2
  | refold {e : Diagram} (h : Leafing id d e) :
    Leafing id d ((e.collapseValues id).2.expandValues id).2

/-- To turn to the next page until there is none shows these pages and ends with this diagram. -/
inductive Browse (id : NodeId) : Diagram → List (List (Option Row)) → Diagram → Prop where
  | last {d : Diagram} (h : (d.nextPage id).1 = .ok false) :
    Browse id d [d.shownRows id] (d.nextPage id).2
  | turn {d e : Diagram} {pages : List (List (Option Row))} (h : (d.nextPage id).1 = .ok true)
    (hrest : Browse id (d.nextPage id).2 pages e) : Browse id d (d.shownRows id :: pages) e

theorem Leafing.reachable (hl : Leafing id d e) (h : d.ReachableBy p fun _ _ => True) :
    e.ReachableBy p fun _ _ => True := by
  induction hl with
  | start => exact h
  | next _ ih => exact ih.step (.nextPage id) trivial
  | previous _ ih => exact ih.step (.previousPage id) trivial
  | refold _ ih => exact (ih.step (.collapseValues id) trivial).step (.expandValues id) trivial

theorem Leafing.pageSize_eq (hl : Leafing id d e) (h : d.ReachableBy p fun _ _ => True) :
    e.pageSize = d.pageSize := by
  induction hl with
  | start => rfl
  | next he ih => exact ((he.reachable h).linked.pageSize_run p (.nextPage id)).trans ih
  | previous he ih => exact ((he.reachable h).linked.pageSize_run p (.previousPage id)).trans ih
  | refold he ih =>
    have hcollapsed := (he.reachable h).step (.collapseValues id) trivial
    refine (hcollapsed.linked.pageSize_run p (.expandValues id)).trans ?_
    exact ((he.reachable h).linked.pageSize_run p (.collapseValues id)).trans ih

/-- However the pages are turned, one of them is shown. -/
theorem Leafing.onPage (hl : Leafing id d e) (h : d.ReachableBy p fun _ _ => True)
    (ho : d.OnPage id rows k) : ∃ j, e.OnPage id rows j := by
  induction hl with
  | start => exact ⟨k, ho⟩
  | @next e he ih =>
    obtain ⟨j, hj⟩ := ih
    have hturns := (he.reachable h).linked.turns (he.reachable h).displays hj
    rcases Nat.lt_or_eq_of_le hj.le_last with hlt | heq
    · exact ⟨j + 1, (hturns.next hlt).2⟩
    · rw [hturns.atLast heq]
      exact ⟨j, hj⟩
  | @previous e he ih =>
    obtain ⟨j, hj⟩ := ih
    have hturns := (he.reachable h).linked.turns (he.reachable h).displays hj
    rcases Nat.lt_or_eq_of_le hj.one_le with hlt | heq
    · exact ⟨j - 1, (hturns.previous hlt).2⟩
    · rw [hturns.atFirst heq.symm]
      exact ⟨j, hj⟩
  | @refold e he ih =>
    obtain ⟨j, hj⟩ := ih
    exact ⟨j, ((he.reachable h).linked.turns (he.reachable h).displays hj).refold.2.2⟩

/-- There is a last page to come to. -/
theorem exists_browse (h : d.ReachableBy p fun _ _ => True) (ho : d.OnPage id rows k) :
    ∃ pages e, Browse id d pages e := by
  generalize hleft : lastPage d.pageSize rows - k = left
  induction left generalizing d k with
  | zero =>
    have hturns := h.linked.turns h.displays ho
    have hle := ho.le_last
    exact ⟨_, _, .last (by rw [hturns.atLast (by omega)])⟩
  | succ left ih =>
    have hturns := h.linked.turns h.displays ho
    obtain ⟨hturned, hnext⟩ := hturns.next (by omega)
    have hsize : (d.nextPage id).2.pageSize = d.pageSize := h.linked.pageSize_run p (.nextPage id)
    obtain ⟨pages, e, hrest⟩ := ih (h.step (.nextPage id) trivial) hnext (by
      show lastPage (d.nextPage id).2.pageSize rows - (k + 1) = left
      rw [hsize]
      omega)
    exact ⟨_, _, .turn hturned hrest⟩

/-- To browse from page `k` on shows the pages from there to the last one. -/
theorem Browse.pages_eq {pages : List (List (Option Row))} (hb : Browse id d pages e)
    (h : d.ReachableBy p fun _ _ => True) (ho : d.OnPage id rows k) :
    pages = (List.range' k (lastPage d.pageSize rows + 1 - k)).map fun j =>
      (pageOf d.pageSize rows j).map some := by
  induction hb generalizing k with
  | @last d hlast =>
    have hk : k = lastPage d.pageSize rows := by
      rcases Nat.lt_or_eq_of_le ho.le_last with hlt | heq
      · rw [((h.linked.turns h.displays ho).next hlt).1] at hlast
        cases hlast
      · exact heq
    rw [hk, Nat.add_sub_cancel_left, List.range'_one, List.map_singleton, ← hk, ho.shown]
  | @turn d e pages hturned hrest ih =>
    have hk : k < lastPage d.pageSize rows := by
      rcases Nat.lt_or_eq_of_le ho.le_last with hlt | heq
      · exact hlt
      · rw [(h.linked.turns h.displays ho).atLast heq] at hturned
        cases hturned
    have hsize : (d.nextPage id).2.pageSize = d.pageSize := h.linked.pageSize_run p (.nextPage id)
    have hpages := ih (h.step (.nextPage id) trivial) ((h.linked.turns h.displays ho).next hk).2
    rw [hsize] at hpages
    have hcount : lastPage d.pageSize rows + 1 - k =
        lastPage d.pageSize rows + 1 - (k + 1) + 1 := by
      omega
    rw [hpages, hcount, List.range'_succ, List.map_cons, ho.shown]

/-- To turn to the next page and back shows the same rows again. -/
theorem OnPage.shownRows_back (ho : d.OnPage id rows k) (h : d.ReachableBy p fun _ _ => True)
    (hk : k < lastPage d.pageSize rows) :
    ((d.nextPage id).2.previousPage id).2.shownRows id = d.shownRows id := by
  have hnext : (d.nextPage id).2.ReachableBy p fun _ _ => True := h.step (.nextPage id) trivial
  have honext := ((h.linked.turns h.displays ho).next hk).2
  have hback := ((hnext.linked.turns hnext.displays honext).previous (Nat.lt_add_of_pos_left
    ho.one_le)).2
  have hsize : ((d.nextPage id).2.previousPage id).2.pageSize = d.pageSize :=
    (hnext.linked.pageSize_run p (.previousPage id)).trans (h.linked.pageSize_run p (.nextPage id))
  rw [hback.shown, hsize, Nat.add_sub_cancel, ho.shown]

theorem OnPage.shownRows_refold (ho : d.OnPage id rows k) (h : d.ReachableBy p fun _ _ => True) :
    ((d.collapseValues id).2.expandValues id).2.shownRows id = d.shownRows id := by
  have hsize := (Leafing.refold (.start : Leafing id d d)).pageSize_eq h
  rw [(h.linked.turns h.displays ho).refold.2.2.shown, hsize, ho.shown]

/-- Candidates that were just stored are shown from the first page on. -/
theorem ReachableBy.onPage_setData (h : d.ReachableBy p fun _ _ => True)
    (hn : d.node? id = some n) (rows : List Row) :
    ((d.setData id rows).2.expandValues id).1 = .ok (min d.pageSize rows.length) ∧
      ((d.setData id rows).2.expandValues id).2.OnPage id rows 1 := by
  have hset : (d.setData id rows).2.ReachableBy p fun _ _ => True :=
    h.step (.setData id rows) trivial
  have hsize : (d.setData id rows).2.pageSize = d.pageSize :=
    h.linked.pageSize_run p (.setData id rows)
  have hstored : (d.setData id rows).2.node? id =
      some { n with data := some rows, page := 1 } := by
    unfold setData
    rw [hn]
    dsimp only
    rw [node?_modify_of_some ?_ hn, if_pos (id_of_node? hn)]
    exact fun _ => rfl
  constructor
  · have hcollapsed := ((Traces.refl (d.setData id rows).2).collapseValues id).pageSize
    unfold expandValues
    rw [hstored]
    dsimp only
    rw [pageRows_eq_pageOf _ rows (Nat.le_refl 1), pageOf_eq _ rows (Nat.le_refl 1), hcollapsed,
      hsize]
    simp
  · refine hset.linked.onPage_expandValues hset.displays hstored rfl (Nat.le_refl 1) ?_
    exact one_le_lastPage _ _

/-- Whatever operations made a diagram, candidates that are stored on a node and shown can be leafed
through. The pages from the first to the last, met by turning to the next one until there is none,
hold at most as many rows as fit on one, and all stored rows together, each once and in order.
However pages are turned and hidden in between, the rows that are shown are those of the node's
page. There is a next page on every page but the last and a previous one on every page but the
first, where nothing changes; to go on and back, or to hide the candidates and show them again,
shows the same rows. -/
theorem leafing_shows_every_row {p : Provider} {d : Diagram}
    (h : d.ReachableBy p fun _ _ => True) {id : NodeId} {n : Node} (hn : d.node? id = some n)
    (rows : List Row) :
    let start := ((d.setData id rows).2.expandValues id).2
    (d.setData id rows).1 = .ok () ∧
      ((d.setData id rows).2.expandValues id).1 = .ok (min d.pageSize rows.length) ∧
      (∃ pages e, Browse id start pages e) ∧
      (∀ pages e, Browse id start pages e →
        pages.flatten = rows.map some ∧ (∀ page ∈ pages, page.length ≤ d.pageSize) ∧
          pages.length = lastPage d.pageSize rows) ∧
      ∀ e, Leafing id start e → e.pageSize = d.pageSize ∧ ∃ k, e.OnPage id rows k ∧
        e.Turns id rows k ∧
        (k < lastPage d.pageSize rows →
          ((e.nextPage id).2.previousPage id).2.shownRows id = e.shownRows id) ∧
        ((e.collapseValues id).2.expandValues id).2.shownRows id = e.shownRows id := by
  intro start
  have hset : (d.setData id rows).2.ReachableBy p fun _ _ => True :=
    h.step (.setData id rows) trivial
  have hstart : start.ReachableBy p fun _ _ => True := hset.step (.expandValues id) trivial
  have hsize : start.pageSize = d.pageSize :=
    (hset.linked.pageSize_run p (.expandValues id)).trans
      (h.linked.pageSize_run p (.setData id rows))
  obtain ⟨hcount, ho⟩ := h.onPage_setData hn rows
  refine ⟨(setData_ok hn rows).1, hcount, exists_browse hstart ho, fun pages e hb => ?_,
    fun e hl => ⟨(hl.pageSize_eq hstart).trans hsize, ?_⟩⟩
  · have hpages := hb.pages_eq hstart ho
    rw [hsize, Nat.add_sub_cancel] at hpages
    subst hpages
    refine ⟨?_, fun page hpage => ?_, by rw [List.length_map, List.length_range']⟩
    · conv_rhs => rw [← flatten_allPages d.pageSize_pos rows, List.map_flatten, List.map_map]
      rfl
    · obtain ⟨k, hk, rfl⟩ := List.mem_map.1 hpage
      rw [List.length_map]
      exact length_pageOf_le rows (List.mem_range'_1.1 hk).1
  · have he := hl.reachable hstart
    obtain ⟨k, hk⟩ := hl.onPage hstart ho
    refine ⟨k, hk, he.linked.turns he.displays hk, fun hlast => ?_, hk.shownRows_refold he⟩
    refine hk.shownRows_back he ?_
    rwa [(hl.pageSize_eq hstart).trans hsize]

/-- Four candidates on two full pages: after the second one there is none. -/
theorem leafing_of_full_pages :
    let d := Operation.runAll .plain [.addRoot "Person" none] (.new 2)
    let rows : List Row := ["Ann", "Bob", "Cleo", "Dan"].map fun name =>
      Table.ofList [("name", .str name)]
    let start := ((d.setData ⟨0⟩ rows).2.expandValues ⟨0⟩).2
    (d.ReachableBy .plain fun _ _ => True) ∧ lastPage 2 rows = 2 ∧ lastPage 2 [] = 1 ∧
      (∃ pages e, Browse ⟨0⟩ start pages e) ∧
      ∀ pages e, Browse ⟨0⟩ start pages e →
        pages.flatten = rows.map some ∧ (∀ page ∈ pages, page.length ≤ 2) ∧ pages.length = 2 := by
  intro d rows start
  have hd : d.ReachableBy .plain fun _ _ => True := ReachableBy.runAll (.new 2) _
  obtain ⟨n, hn⟩ : ∃ n, d.node? ⟨0⟩ = some n := Option.isSome_iff_exists.1 (by decide +kernel)
  have hsize : d.pageSize = 2 := by decide +kernel
  have hlast : lastPage 2 rows = 2 := by decide +kernel
  obtain ⟨-, -, hbrowse, hpages, -⟩ := leafing_shows_every_row hd hn rows
  rw [hsize, hlast] at hpages
  exact ⟨hd, hlast, rfl, hbrowse, hpages⟩

end PatternQuery.Diagram
