/-
  The best of what a backend finds.

  Whatever a backend finds for a query, in whatever order, the store answers with the best of it.

  * `IsBest`: which results are the best of the matches found; `isBest_topMatches`: those that the
    store takes, if all scores are numbers;
  * `Reaches`: a query reaches the backend; `run_query_found`: then it answers with those that the
    store takes of what the backend finds within the deadline (`reply`);
  * `query_best`: so it answers with the best.
-/
import VectorStore.Proofs.Store.Noted
import VectorStore.Proofs.Store.Passage
import VectorStore.Proofs.Store.Ranking

namespace VectorStore.Store

variable {α β : Type} {st : Store β} {s : Session β} {ctx : Option Context}
  {name vector topK filter includeVector : Value} {q : QueryRequest} {found : List Match}

/-! ## The best matches -/

/-- The results are the best `k` of the matches found. -/
structure IsBest (k : ℕ) (found results : List Match) : Prop where
  length_eq : results.length = min k found.length
  /-- none stands behind one with a lower score -/
  sorted : results.Pairwise fun a b => ¬a.score < b.score
  /-- What is kept and what is dropped are the matches found, each with its position among them.
      None that is dropped has a higher score than one that is kept, and of two with the same
      score the earlier one is kept, or stands in front. -/
  kept : ∃ kept dropped : List (Match × ℕ), (kept ++ dropped).Perm found.zipIdx ∧
    results = kept.map Prod.fst ∧
    (∀ a ∈ kept, ∀ b ∈ dropped,
      ¬a.1.score < b.1.score ∧ ((a.1.score == b.1.score) = true → a.2 < b.2)) ∧
    kept.Pairwise fun a b => (a.1.score == b.1.score) = true → a.2 < b.2

/-- Of two items with the same score the one goes before whose position is lower. -/
theorem Precedes.lt_of_beq {f : α → Float} {a b : α × ℕ} (h : Precedes f a b)
    (he : (f a.1 == f b.1) = true) : a.2 < b.2 :=
  h.2.resolve_left (Number.not_lt_of_beq he)

/-- **The matches that the store takes are the best**, if all scores are numbers. -/
theorem isBest_topMatches (h : found.all isRanked) (k : ℕ) :
    IsBest k found (topMatches k found) := by
  have hnum : ∀ m ∈ found, (m.score == m.score) = true := List.all_eq_true.1 h
  obtain ⟨order, hperm, hprecedes, hsort⟩ := sortDescending_positions hnum
  have htop : topMatches k found = (order.take k).map Prod.fst := by
    rw [topMatches, ranked_eq h, hsort, List.map_take]
  have hsplit : order.take k ++ order.drop k = order := List.take_append_drop k order
  obtain ⟨hkept, -, hdropped⟩ := List.pairwise_append.1 (hsplit.symm ▸ hprecedes)
  refine ⟨?_, ?_, order.take k, order.drop k, hsplit.symm ▸ hperm, htop, ?_, ?_⟩
  · rw [htop, List.length_map, List.length_take, hperm.length_eq, List.length_zipIdx]
  · rw [htop, List.pairwise_map]
    exact hkept.imp fun hab => hab.1
  · intro a ha b hb
    have hab : Precedes Match.score a b := hdropped a ha b hb
    exact ⟨hab.1, hab.lt_of_beq⟩
  · exact hkept.imp fun hab => hab.lt_of_beq

/-! ## Queries -/

/-- A task of the backend takes no notice of the log and the events. -/
theorem run_byDeadline_noting (ctx : Option Context) (t : Task β Failure α)
    (lines : List LogLine) (events : List Event) (s : Session β) :
    (byDeadline ctx t).run (s.noting lines events) =
      Prod.map id (Session.noting lines events) ((byDeadline ctx t).run s) := by
  have hclock : Task.SameClock (Session.noting (β := β) lines events) :=
    ⟨fun _ => rfl, fun _ _ => rfl⟩
  refine (shows_byDeadline ctx hclock (fun s => ?_) s).run hclock
  exact Task.shows_zoom (fun _ => by rfl) (fun _ _ => by rfl) t s

/-- What a task of the backend comes to within the deadline, once the backend has been asked what
    it can do. -/
def reply (st : Store β) (ctx : Option Context) (s : Session β) (t : Task β Failure α) :
    Except Failure α :=
  ((byDeadline ctx t).run (st.asked s).2).1

/-- The arguments of a query are in order, the limits are kept and the deadline leaves time for it,
    and the sink takes all counts. -/
structure Reaches (st : Store β) (s : Session β) (ctx : Option Context)
    (name vector topK filter includeVector : Value) (q : QueryRequest) : Prop where
  request : requestOf name vector topK filter includeVector = .ok q
  dated : ∀ c ∈ ctx, c.Dated
  now : 0 ≤ s.now
  passes : ∃ caps, Passes st s ctx q caps
  sink : ∀ events e, e.isCounter = true → s.sink events e = none

/-- A query that reaches the backend answers with those of the matches found that the store
    takes. -/
theorem run_query_found (h : Reaches st s ctx name vector topK filter includeVector q)
    (hfound : st.reply ctx s (st.backend.query q ctx) = .ok found) :
    ∃ s', (st.query name vector topK filter includeVector ctx).run s =
      (.ok (topMatches q.topK found), s') := by
  obtain ⟨hq, hctx, hnow, ⟨caps, hpass⟩, hsink⟩ := h
  obtain ⟨events, hasked⟩ := run_asked st s
  rw [hpass.asked] at hasked
  have hcheck := run_checkFilter hpass.enforced { (st.asked s).2 with events }
  -- what the backend finds, and that the sink is still the same
  rcases hrun : (byDeadline ctx (st.backend.query q ctx)).run (st.asked s).2 with ⟨r, s₁⟩
  obtain rfl : r = .ok found := by rw [reply, hrun] at hfound; exact hfound
  have hback := run_byDeadline_noting ctx (st.backend.query q ctx) (warned caps q) events
    (st.asked s).2
  rw [hrun] at hback
  have hsink₁ : s₁.sink = s.sink := by
    have hkept := (unmoved_byDeadline ctx (st.backend.query q ctx) (st.asked s).2 []).1
    rw [hrun] at hkept
    exact hkept.trans (unmoved_ofBackend st.backend.capabilities none s []).1
  obtain ⟨s₂, hanswered, -⟩ := run_answered (s := s₁.noting (warned caps q) events)
    (fun evs e he => (congrFun (congrFun hsink₁ evs) e).trans (hsink evs e he)) st q ctx s.clock
    found
  refine ⟨s₂, run_query_ok hq (inTime_of_leavesTime hctx hnow hpass.inTime) ?_⟩
  rw [querying, Task.run_bind_ok hasked, Task.run_bind_ofExcept, hpass.limits]
  dsimp only
  rw [Task.run_bind_ok hcheck]
  exact (Task.run_bind_ok hback _).trans hanswered

/-- **A query answers with the best of what the backend finds.**  Let the query reach the backend.
    Whatever matches the backend then finds, in whatever order and however often, if only their
    scores are numbers: the answer has as many of them as are asked for, or all, the higher scores
    first and equal scores in the order of the backend, also where the answer is cut. -/
theorem query_best (st : Store β) (s : Session β) (ctx : Option Context)
    (name vector topK filter includeVector : Value)
    (h : Reaches st s ctx name vector topK filter includeVector q)
    (hfound : st.reply ctx s (st.backend.query q ctx) = .ok found)
    (hnum : ∀ m ∈ found, (m.score == m.score) = true) :
    ∃ results s', (st.query name vector topK filter includeVector ctx).run s = (.ok results, s') ∧
      IsBest q.topK found results := by
  obtain ⟨s', hrun⟩ := run_query_found h hfound
  exact ⟨_, s', hrun, isBest_topMatches (List.all_eq_true.2 hnum) q.topK⟩

/-- A store whose backend finds three records, not the best one first. -/
def unordered : Store Unit :=
  ⟨{ Backend.bare "unordered" with
      capabilities := .ret { server := "unordered" }
      query := fun _ _ =>
        .ret [⟨"a", 0.5, [], none⟩, ⟨"b", 0.75, [], none⟩, ⟨"c", 0.75, [], none⟩] },
    Config.default⟩

/-- Of the two best the one is taken that was found first. -/
theorem query_best_unordered :
    ∃ s', (unordered.query (.text "docs") (.list [.float 0.5]) (.int 1) .null (.bool false)
      none).run (Session.start () Session.takesAll) = (.ok [⟨"b", 0.75, [], none⟩], s') := by
  have hnow : 0 ≤ (Session.start () Session.takesAll).now := by
    rw [Session.now_start]
    decide
  have hreaches : Reaches unordered (Session.start () Session.takesAll) none (.text "docs")
      (.list [.float 0.5]) (.int 1) .null (.bool false) ⟨"docs", [0.5], 1, none, false⟩ :=
    ⟨rfl, nofun, hnow, ⟨{ server := "unordered" }, nofun, rfl, rfl, fun h => (nomatch h.1), nofun⟩,
      fun _ _ _ => rfl⟩
  obtain ⟨results, s', hrun, hlength, -, kept, dropped, hperm, rfl, hdropped, -⟩ := query_best
    unordered (Session.start () Session.takesAll) none (.text "docs") (.list [.float 0.5]) (.int 1)
    .null (.bool false) hreaches rfl (by decide +kernel)
  obtain ⟨x, rfl⟩ : ∃ x, kept = [x] := List.length_eq_one_iff.1 (by simpa using hlength)
  have hx : x ∈ [(⟨"a", 0.5, [], none⟩, 0), (⟨"b", 0.75, [], none⟩, 1),
      ((⟨"c", 0.75, [], none⟩ : Match), 2)] := hperm.subset (List.mem_cons_self ..)
  have hb : (⟨"b", 0.75, [], none⟩, 1) ∈ x :: dropped := hperm.mem_iff.2 (by simp)
  rcases List.mem_cons.1 hb with rfl | hb
  · exact ⟨s', hrun⟩
  · obtain ⟨hhigher, htie⟩ := hdropped x (List.mem_cons_self ..) _ hb
    simp only [List.mem_cons, List.not_mem_nil, or_false] at hx
    rcases hx with rfl | rfl | rfl
    · exact absurd (by decide +kernel) hhigher
    · exact absurd (htie (by decide +kernel)) (by decide)
    · exact absurd (htie (by decide +kernel)) (by decide)

end VectorStore.Store
