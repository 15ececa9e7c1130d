/-
  Lanes with a deadline.

  The deadline is an entry of the agenda like any other.

  * `With`: an agenda with the deadline beside the same one without it;
  * `clock_goOn`: no lane goes on past the deadline;
  * `Apart`: no two waits of the lanes are over at the same moment, so that nothing depends on the
    order in which an agenda has entries that are due at one time;
  * `Apart.agrees`: such lanes end by being late or as they would without the deadline, whichever
    their timeline says;
  * `punctual_sideBySide` states this of lanes from their start on.
-/
import VectorStore.Proofs.Task.Lanes
import VectorStore.Proofs.Task.Order
import VectorStore.Proofs.Task.Punctual

namespace VectorStore.Task

variable {σ ε : Type} {d : Deadline ε} {lanes : List (Lane σ)} {i : Nat}
  {line line' : List (Turn ε)} {a a' b b' : Agenda (Turn ε)} {parked : List Nat} {s : σ}
  {time time' : Time}

/-! ## Agendas -/

/-- The second agenda is the first one with the deadline besides. -/
structure With (d : Deadline ε) (a a' : Agenda (Turn ε)) : Prop where
  timely : a.Timely
  timely' : a'.Timely
  once : a.entries.Nodup
  lanes : ∀ late, .deadline late ∉ a.entries
  perm : a'.heap.toList.Perm ((d.time, .deadline d.late) :: a.heap.toList)

theorem with_empty (hd : 0 ≤ d.time) :
    With d .empty (Agenda.empty.push d.time (.deadline d.late)) :=
  ⟨Agenda.timely_empty, Agenda.timely_empty.push hd _, .nil, nofun, Agenda.heap_push _ _ _⟩

theorem With.push (h : With d a a') (ht : 0 ≤ time) (hi : .lane i ∉ a.entries) :
    With d (a.push time (.lane i)) (a'.push time (.lane i)) := by
  have hentries := a.entries_push time (.lane i)
  refine ⟨h.timely.push ht _, h.timely'.push ht _, ?_, fun late hlate => ?_, ?_⟩
  · rw [hentries.nodup_iff, List.nodup_append]
    refine ⟨h.once, List.nodup_singleton _, fun x hx y hy => ?_⟩
    obtain rfl := List.mem_singleton.1 hy
    rintro rfl
    exact hi hx
  · rcases List.mem_append.1 (hentries.mem_iff.1 hlate) with hlate | hlate
    · exact h.lanes late hlate
    · cases List.mem_singleton.1 hlate
  · exact ((a'.heap_push time _).trans (h.perm.append_right _)).trans
      ((a.heap_push time _).symm.cons _)

theorem With.mem_deadline (h : With d a a') : (d.time, .deadline d.late) ∈ a'.heap.toList :=
  h.perm.mem_iff.2 (List.mem_cons_self ..)

/-- The deadline is in the agenda once. -/
theorem With.eq_deadline (h : With d a a') {late : ε}
    (he : (time, .deadline late) ∈ a'.heap.toList) : time = d.time ∧ late = d.late := by
  rcases List.mem_cons.1 (h.perm.mem_iff.1 he) with he | he
  · cases he
    exact ⟨rfl, rfl⟩
  · exact absurd (List.mem_map_of_mem he) (h.lanes late)

/-- What comes out of the second agenda is in the first one, if it is not the deadline. -/
theorem With.mem_of_lane (h : With d a a') {x : Turn ε} (he : (time, x) ∈ a'.heap.toList)
    (hx : x ≠ .deadline d.late) : (time, x) ∈ a.heap.toList := by
  rcases List.mem_cons.1 (h.perm.mem_iff.1 he) with he | he
  · cases he
    exact absurd rfl hx
  · exact he

/-- **What comes out alone without the deadline comes out with it**, and was not late, unless the
    deadline comes out. -/
theorem With.popDue {x : Turn ε} (h : With d a a') (hp : a.popDue? = some (time, [x], b))
    (hlater : ∀ e ∈ b.heap.toList, time < e.1) (hp' : a'.popDue? = some (time', line', b'))
    (hline : .deadline d.late ∉ line') :
    time' = time ∧ line' = [x] ∧ With d b b' ∧ ¬d.Misses time := by
  obtain ⟨y, first, hx, -, hperm⟩ := Agenda.heap_popDue hp
  obtain ⟨x', first', rfl, hbefore, hperm'⟩ := Agenda.heap_popDue hp'
  obtain ⟨rfl, hfirst⟩ := List.cons.inj hx
  obtain rfl : first = [] := List.map_eq_nil_iff.1 hfirst.symm
  obtain ⟨hb, -, -, hpast⟩ := h.timely.popDue hp
  obtain ⟨hb', -, hleast, hpast'⟩ := h.timely'.popDue hp'
  have hall : ((time', x') :: first' ++ b'.heap.toList).Perm
      ((d.time, .deadline d.late) :: (time, x) :: b.heap.toList) :=
    hperm'.trans (h.perm.trans (hperm.symm.cons _))
  have hin : (time, x) ∈ a'.heap.toList :=
    h.perm.mem_iff.2 (List.mem_cons_of_mem _ (hperm.mem_iff.1 (List.mem_cons_self ..)))
  -- the first one to come out is the same
  have hsame : (time', x') = (time, x) := by
    have hmem := hall.mem_iff.1 (List.mem_cons_self ..)
    rcases List.mem_cons.1 hmem with he | hmem
    · cases he
      exact absurd (List.mem_cons_self ..) hline
    · rcases List.mem_cons.1 hmem with he | hmem
      · exact he
      · have hlt : time < time' := hlater (time', x') hmem
        exact absurd hlt (hleast (time, x) hin)
  obtain ⟨rfl, rfl⟩ := Prod.mk.inj hsame
  have hrest : (first' ++ b'.heap.toList).Perm ((d.time, .deadline d.late) :: b.heap.toList) :=
    List.Perm.cons_inv (hall.trans (List.Perm.swap ..))
  have hnone : first' = [] := by
    refine List.eq_nil_iff_forall_not_mem.2 fun e he => ?_
    rcases List.mem_cons.1 (hrest.mem_iff.1 (List.mem_append_left _ he)) with rfl | hmem
    · exact hline (List.mem_cons_of_mem _ (List.mem_map_of_mem he))
    · exact hpast _ hmem (hbefore _ he)
  subst hnone
  have hentries := Agenda.entries_popDue hp
  refine ⟨rfl, rfl, ⟨hb, hb', ?_, fun late hlate => ?_, hrest⟩, ?_⟩
  · exact (hentries.nodup_iff.2 h.once).sublist (List.sublist_append_right ..)
  · exact h.lanes late (hentries.mem_iff.1 (List.mem_append_right _ hlate))
  · rintro (hlate | ⟨-, hlate⟩)
    · exact hleast _ h.mem_deadline hlate
    · exact hpast' _ (hrest.mem_iff.2 (List.mem_cons_self ..)) hlate

/-- **The deadline comes out**: what comes out without it is not in time. -/
theorem With.over (h : With d a a') (hp : a.popDue? = some (time, line, b))
    (hp' : a'.popDue? = some (time', line', b')) (hline : .deadline d.late ∈ line') :
    ¬d.Meets time := by
  obtain ⟨x, first, -, -, hperm⟩ := Agenda.heap_popDue hp
  obtain ⟨x', first', rfl, hbefore, hperm'⟩ := Agenda.heap_popDue hp'
  obtain ⟨-, htime, hfirst, -⟩ := h.timely.popDue hp
  obtain ⟨-, htime', hfirst', -⟩ := h.timely'.popDue hp'
  have hmem : (time, x) ∈ a.heap.toList := hperm.mem_iff.1 (List.mem_cons_self ..)
  have hmem' : (time', x') ∈ a'.heap.toList := hperm'.mem_iff.1 (List.mem_cons_self ..)
  have hnot : ¬time < time' := hfirst' (time, x) (h.perm.mem_iff.2 (List.mem_cons_of_mem _ hmem))
  rintro ⟨hlt, hmoment⟩
  rcases eq_or_ne x' (.deadline d.late) with rfl | hx'
  · rw [(h.eq_deadline hmem').1] at hnot
    exact hnot hlt
  · have hnot' : ¬time' < time := hfirst (time', x') (h.mem_of_lane hmem' hx')
    have hadd : time' + Time.moment = time + Time.moment :=
      Time.add_moment_eq htime' htime hnot' hnot
    obtain ⟨e, he, hx⟩ := List.mem_map.1 ((List.mem_cons.1 hline).resolve_left hx'.symm)
    have hin : (e.1, .deadline d.late) ∈ a'.heap.toList :=
      hx ▸ hperm'.mem_iff.1 (List.mem_append_left _ (List.mem_cons_of_mem _ he))
    have hlate := hbefore e he
    rw [(h.eq_deadline hin).1, hadd] at hlate
    exact hmoment hlate

/-! ## Steps -/

variable [Clocked σ]

/-- A lane that has had its turn is entered by a time from zero on, or not in the agenda. -/
theorem place_cases {rest : Lane σ} (hr : ∀ s, rest.Paces s) (hs : 0 ≤ Clocked.clock s) (i : Nat) :
    (∃ inLine set, ∀ a : Agenda (Turn ε), place s a i rest = (inLine, a, set)) ∨
    ∃ time, 0 ≤ time ∧
      ∀ a : Agenda (Turn ε), place s a i rest = ([], a.push time (.lane i), []) := by
  cases rest with
  | wait u abandon next =>
    rcases hu : u.due? (Clocked.clock s) with _ | time
    · left
      by_cases hw : isWoken s (some (.wait u abandon next)) = true
      · exact ⟨[.lane i], [], fun a => by simp only [place, hu, if_pos hw]⟩
      · exact ⟨[], [i], fun a => by simp only [place, hu, if_neg hw]⟩
    · right
      exact ⟨time, (hr s).1.due hs hu, fun a => by simp only [place, hu]⟩
  | _ => exact .inl ⟨[], [], fun a => rfl⟩

/-- A turn of a lane changes both agendas alike. -/
theorem With.place (h : With d a a') {rest : Lane σ} (hr : ∀ s, rest.Paces s)
    (hs : 0 ≤ Clocked.clock s) (hi : .lane i ∉ a.entries) :
    With d (place s a i rest).2.1 (place s a' i rest).2.1 ∧
      (Task.place s a' i rest).1 = (Task.place s a i rest).1 ∧
      (Task.place s a' i rest).2.2 = (Task.place s a i rest).2.2 := by
  rcases place_cases (ε := ε) hr hs i with ⟨inLine, set, hplace⟩ | ⟨time, htime, hplace⟩
  · rw [hplace, hplace]
    exact ⟨h, rfl, rfl⟩
  · rw [hplace, hplace]
    exact ⟨h.push htime hi, rfl, rfl⟩

/-- A turn of a lane enters it once. -/
theorem nodup_slots_place (h : (slots (.lane i :: line) a parked).Nodup) (next : Lane σ) (s : σ)
    (woken : Nat → Bool) :
    let parting := parked.partition woken
    let placed := Task.place (next.advance s).1 a i (next.advance s).2
    (slots (line ++ parting.1.map .lane ++ placed.1) placed.2.1
      (parting.2 ++ placed.2.2)).Nodup := by
  intro parting placed
  have htelling : Telling (fun (_ : σ) _ => True) fun _ _ => True :=
    ⟨fun _ => trivial, fun _ => trivial, fun _ => trivial⟩
  have hperm : (parting.1 ++ parting.2).Perm parked := by
    simp only [parting, List.partition_eq_filter_filter]
    exact List.filter_append_perm _ _
  exact (entered_place htelling (settled_advance next s) (next.advance s).1 a i).nodup_slots hperm h

/-- A turn of a lane puts no deadline in line. -/
theorem deadline_not_mem_place (late : ε) (s : σ) (a : Agenda (Turn ε)) (i : Nat) (rest : Lane σ) :
    .deadline late ∉ (place s a i rest).1 := by
  unfold place
  split
  · split
    · exact List.not_mem_nil
    · split <;> simp
  · exact List.not_mem_nil

theorem clock_abandonAll (hl : ∀ t ∈ lanes, ∀ s, t.Paces s) (s : σ) :
    Clocked.clock (abandonAll lanes s) = Clocked.clock s := by
  induction lanes generalizing s with
  | nil => rfl
  | cons t lanes ih =>
    rw [List.forall_mem_cons] at hl
    rw [abandonAll, List.foldl_cons]
    refine (ih hl.2 _).trans ?_
    cases t with
    | wait u abandon next => exact ((hl.1 s).2 s).1
    | _ => rfl

/-- What is left of a lane after its turn leaves the clock alone as the lane does. -/
theorem paces_set (hl : ∀ t ∈ lanes, ∀ s, t.Paces s) {next : Lane σ} (hn : next.Paces s) :
    ∀ t ∈ lanes.set i (next.advance s).2, ∀ s, t.Paces s := by
  intro t ht
  rcases List.mem_or_eq_of_mem_set ht with ht | rfl
  · exact hl t ht
  · exact hn.advance.2

/-- **Lanes go on no further than to the deadline**, if it stands in line or is in the agenda. -/
theorem clock_goOn [LawfulClock σ] (lanes : List (Lane σ)) (line : List (Turn ε))
    (a : Agenda (Turn ε)) (parked : List Nat) (s : σ) (ha : a.Timely)
    (hl : ∀ t ∈ lanes, ∀ s, t.Paces s) (hs : 0 ≤ Clocked.clock s)
    (hd : .deadline d.late ∈ line ∨ (d.time, .deadline d.late) ∈ a.heap.toList) :
    let s' := ((goOn lanes line a parked).run s).2
    Clocked.clock s' = Clocked.clock s ∨ ¬d.time < Clocked.clock s' := by
  induction lanes, line, a, parked using goOn_induction generalizing s with
  | empty lanes a parked ih =>
    have hd := hd.resolve_left (List.not_mem_nil)
    by_cases hall : lanes.all hasEnded = true
    · rw [run_goOn_ended hall]
      exact .inl rfl
    rcases hdue : a.popDue? with _ | ⟨time, line, rest⟩
    · rw [run_goOn_idle hall hdue]
      exact .inl rfl
    rw [run_goOn_due hall hdue]
    obtain ⟨hrest, htime, hfirst, -⟩ := ha.popDue hdue
    obtain ⟨x, first, hline, -, hperm⟩ := Agenda.heap_popDue hdue
    have hclock : Clocked.clock (Clocked.atTime time s) = time := LawfulClock.clock_atTime time s
    have hd' : .deadline d.late ∈ line ∨ (d.time, .deadline d.late) ∈ rest.heap.toList := by
      refine (List.mem_append.1 (hperm.mem_iff.2 hd)).imp_left fun h => ?_
      have hline : line = ((time, x) :: first).map (·.2) := hline
      exact hline ▸ List.mem_map_of_mem h
    refine .inr ?_
    rcases ih time line rest hdue _ hrest hl (hclock.symm ▸ htime) hd' with h | h
    · rw [h, hclock]
      exact hfirst (d.time, .deadline d.late) hd
    · exact h
  | deadline lanes late line a parked =>
    rw [run_goOn_deadline]
    exact .inl (clock_abandonAll hl s)
  | turn lanes i line a parked u abandon next h ih =>
    have hn : next.Paces s := ((hl _ (List.mem_of_getElem? h) s).2 s).2
    obtain ⟨hclock, hrest⟩ := hn.advance
    have hline : .deadline d.late ∈ line ∨ (d.time, .deadline d.late) ∈ a.heap.toList := by
      simpa using hd
    rw [run_goOn_lane h]
    dsimp only
    rw [← hclock] at hs ⊢
    rcases place_cases (ε := ε) hrest hs i with ⟨inLine, set, hplace⟩ | ⟨time, htime, hplace⟩
    · rw [hplace]
      exact ih s _ _ _ _ ha (paces_set hl hn) hs (hline.imp_left fun hm => by simp [hm])
    · rw [hplace]
      refine ih s _ _ _ _ (ha.push htime _) (paces_set hl hn) hs ?_
      refine hline.imp (fun hm => by simp [hm]) fun hm => ?_
      exact (a.heap_push time _).mem_iff.2 (List.mem_append_left _ hm)
  | past lanes i line a parked h ih =>
    rw [run_goOn_past h]
    exact ih s ha hl hs (by simpa using hd)

/-- Lanes in front of the deadline go on, and then it comes. -/
theorem run_goOn_late (lanes : List (Lane σ)) (line : List (Turn ε)) (a : Agenda (Turn ε))
    (parked : List Nat) (s : σ) {late : ε} (h : .deadline late ∈ line)
    (honly : ∀ e, .deadline e ∈ line → e = late) :
    ((goOn lanes line a parked).run s).1 = .error late := by
  induction lanes, line, a, parked using goOn_induction generalizing s with
  | empty lanes a parked ih => cases h
  | deadline lanes e line a parked =>
    rw [run_goOn_deadline, honly e (List.mem_cons_self ..)]
  | turn lanes i line a parked u abandon next hi ih =>
    have hmem : .deadline late ∈ line := by simpa using h
    rw [run_goOn_lane hi]
    refine ih s _ _ _ _ (by simp [hmem]) fun e he => ?_
    have hplace : .deadline e ∉ (place (next.advance s).1 a i (next.advance s).2).1 :=
      deadline_not_mem_place e _ a i _
    simp only [List.mem_append, List.mem_map, reduceCtorEq, and_false, exists_false, or_false,
      hplace] at he
    exact honly e (List.mem_cons_of_mem _ he)
  | past lanes i line a parked hi ih =>
    rw [run_goOn_past hi]
    exact ih s (by simpa using h) fun e he => honly e (List.mem_cons_of_mem _ he)

/-! ## Lanes apart -/

/-- No two waits of the lanes are over at the same moment, and none is left waiting. -/
inductive Apart : List (Lane σ) → List (Turn ε) → Agenda (Turn ε) → List Nat → σ → Prop
  | ended {lanes : List (Lane σ)} {a : Agenda (Turn ε)} {parked : List Nat} {s : σ} :
      lanes.all hasEnded = true → Apart lanes [] a parked s
  | due {lanes : List (Lane σ)} {x : Turn ε} {a b : Agenda (Turn ε)} {parked : List Nat} {s : σ}
      {time : Time} : a.popDue? = some (time, [x], b) → (∀ e ∈ b.heap.toList, time < e.1) →
      Apart lanes [x] b parked (Clocked.atTime time s) → Apart lanes [] a parked s
  | turn {lanes : List (Lane σ)} {i : Nat} {line : List (Turn ε)} {a : Agenda (Turn ε)}
      {parked : List Nat} {s : σ} {u : Until σ} {abandon : σ → σ} {next : Lane σ} :
      lanes[i]? = some (.wait u abandon next) →
      (let turn := next.advance s
       let lanes := lanes.set i turn.2
       let parting := parked.partition fun j => isWoken turn.1 lanes[j]?
       let placed := place turn.1 a i turn.2
       Apart lanes (line ++ parting.1.map .lane ++ placed.1) placed.2.1 (parting.2 ++ placed.2.2)
         turn.1) →
      Apart lanes (.lane i :: line) a parked s
  | past {lanes : List (Lane σ)} {i : Nat} {line : List (Turn ε)} {a : Agenda (Turn ε)}
      {parked : List Nat} {s : σ} : (∀ u abandon next, lanes[i]? ≠ some (.wait u abandon next)) →
      Apart lanes line a parked s → Apart lanes (.lane i :: line) a parked s

/-- The lanes with the deadline end as its timeline says, or as they do without it. -/
structure Agrees (d : Deadline ε) (t t' : Task σ ε Unit) (s : σ) : Prop where
  late : (∃ time ∈ t'.timeline s, d.Misses time) → (t.run s).1 = .error d.late
  inTime : (∀ time ∈ t'.timeline s, d.Meets time) → t.run s = t'.run s

theorem agrees_ended (h : lanes.all hasEnded = true) (d : Deadline ε) (a a' : Agenda (Turn ε))
    (parked : List Nat) (s : σ) :
    Agrees d (goOn lanes [] a' parked) (goOn lanes [] a parked) s := by
  rw [goOn_ended h, goOn_ended h]
  refine ⟨?_, fun _ => rfl⟩
  rintro ⟨time, hm, -⟩
  cases hm

theorem Agrees.of_advance {t t' u u' : Task σ ε Unit} {s' : σ} (h : Agrees d u u' s')
    (ht : t.advance s = u.advance s') (ht' : t'.advance s = u'.advance s') : Agrees d t t' s := by
  have hrun : t.run s = u.run s' := by rw [run_advance, ht, ← run_advance]
  have hrun' : t'.run s = u'.run s' := by rw [run_advance, ht', ← run_advance]
  have htimes : t'.timeline s = u'.timeline s' := by
    rw [timeline_advance, ht', ← timeline_advance]
  refine ⟨?_, ?_⟩
  · rw [hrun, htimes]
    exact h.late
  · rw [hrun, hrun', htimes]
    exact h.inTime

/-- **Lanes apart end by being late or as they do without the deadline.** -/
theorem Apart.agrees [LawfulClock σ] (h : Apart lanes line a parked s) (hd : With d a a')
    (hl : ∀ t ∈ lanes, ∀ s, t.Paces s) (hs : 0 ≤ Clocked.clock s)
    (honce : (slots line a parked).Nodup) (hline : ∀ late, .deadline late ∉ line) :
    Agrees d (goOn lanes line a' parked) (goOn lanes line a parked) s := by
  induction h generalizing a' with
  | ended hall => exact agrees_ended hall ..
  | @due lanes x a b parked s time hp hlater _ ih =>
    by_cases hall : lanes.all hasEnded = true
    · exact agrees_ended hall ..
    rcases hp' : a'.popDue? with _ | ⟨time', line', b'⟩
    · have hnone := Agenda.popDue_eq_none_iff.1 hp'
      have hmem : .deadline d.late ∈ a'.entries := List.mem_map_of_mem hd.mem_deadline
      rw [hnone] at hmem
      cases hmem
    rw [goOn_due hall hp, goOn_due hall hp']
    by_cases hmem : .deadline d.late ∈ line'
    · -- the deadline comes out, before what would come out without it or in the same moment
      have hnot := hd.over hp hp' hmem
      have hentries := Agenda.entries_popDue hp'
      have honly (e : ε) (he : .deadline e ∈ line') : e = d.late := by
        obtain ⟨⟨t, x⟩, ht, rfl⟩ := List.mem_map.1 (hentries.mem_iff.1 (List.mem_append_left _ he))
        exact (hd.eq_deadline ht).2
      refine ⟨fun _ => run_goOn_late _ _ _ _ _ hmem honly, fun hmeets => ?_⟩
      exact absurd (hmeets time (List.mem_cons_self ..)) hnot
    · obtain ⟨rfl, rfl, hb, hnot⟩ := hd.popDue hp hlater hp' hmem
      obtain ⟨-, htime, -⟩ := hd.timely.popDue hp
      have hclock : Clocked.clock (Clocked.atTime time' s) = time' :=
        LawfulClock.clock_atTime time' s
      have hentries := Agenda.entries_popDue hp
      have hslots : (slots [x] b parked).Perm (slots [] a parked) := by
        have hperm := (hentries.filterMap Turn.lane?).append_right parked
        rwa [List.filterMap_append] at hperm
      obtain ⟨hlate, hsame⟩ := ih hb hl (hclock.symm ▸ htime) (hslots.nodup_iff.2 honce)
        fun late hm => hd.lanes late (hentries.mem_iff.1 (List.mem_append_left _ hm))
      refine ⟨?_, fun hmeets => hsame fun t ht => hmeets t (List.mem_cons_of_mem _ ht)⟩
      rintro ⟨t, ht, hmiss⟩
      rcases List.mem_cons.1 ht with rfl | ht
      · exact absurd hmiss hnot
      · exact hlate ⟨t, ht, hmiss⟩
  | @turn lanes i line a parked s u abandon next hi _ ih =>
    have hn : next.Paces s := ((hl _ (List.mem_of_getElem? hi) s).2 s).2
    obtain ⟨hclock, hrest⟩ := hn.advance
    have hnew : .lane i ∉ a.entries := by
      have honce : (i :: slots line a parked).Nodup := honce
      exact fun hm => (List.nodup_cons.1 honce).1 (mem_slots.2 (.inr (.inl hm)))
    rw [← hclock] at hs
    obtain ⟨hd', hsameLine, hsameSet⟩ := hd.place hrest hs hnew
    refine Agrees.of_advance (ih hd' (paces_set hl hn) hs (nodup_slots_place honce ..) ?_) ?_
      (advance_goOn_lane hi s)
    · intro late hm
      simp only [List.mem_append, List.mem_map, reduceCtorEq, and_false, exists_false, or_false,
        deadline_not_mem_place] at hm
      exact hline late (List.mem_cons_of_mem _ hm)
    · rw [advance_goOn_lane hi s]
      dsimp only
      rw [hsameLine, hsameSet]
  | @past lanes i line a parked s hi _ ih =>
    rw [goOn_past hi, goOn_past hi]
    have honce : (i :: slots line a parked).Nodup := honce
    exact ih hd hl hs (List.nodup_cons.1 honce).2 fun late hm =>
      hline late (List.mem_cons_of_mem _ hm)

/-! ## Lanes from their start on -/

/-- Lanes that start side by side are apart; they fail with an `ε` if at all. -/
def StartApart (ε : Type) (lanes : List (Lane σ)) (s : σ) : Prop :=
  Apart (lanes.map fun t => .wait (.holds fun _ => true) id t)
    ((List.range lanes.length).map (Turn.lane (ε := ε))) .empty [] s

/-- **Tasks side by side keep their deadline.** -/
theorem punctual_sideBySide [LawfulClock σ] (hd : 0 ≤ d.time) (hl : ∀ t ∈ lanes, ∀ s, t.Paces s)
    (hs : 0 ≤ Clocked.clock s) :
    Punctual (· = ·) d (StartApart ε lanes s) (sideBySide (some d) lanes)
      (sideBySide none lanes) s := by
  have hstart : ∀ t ∈ lanes.map fun t => (.wait (.holds fun _ => true) id t : Lane σ),
      ∀ s, t.Paces s := by
    intro t ht s
    obtain ⟨t, hmem, rfl⟩ := List.mem_map.1 ht
    exact ⟨trivial, fun s => ⟨rfl, hl t hmem s⟩⟩
  have hwith : With d .empty (Agenda.empty.push d.time (.deadline d.late)) := with_empty hd
  let line : List (Turn ε) := (List.range lanes.length).map .lane
  have honce : (slots line .empty []).Nodup := by
    have hslots : slots line .empty [] = List.range lanes.length := by
      have hentries : (Agenda.empty : Agenda (Turn ε)).entries.filterMap Turn.lane? = [] := rfl
      rw [slots, hentries, Turn.filterMap_lane?]
      simp
    rw [hslots]
    exact List.nodup_range
  have hline : ∀ late, .deadline late ∉ line := by simp [line]
  refine ⟨?_, fun hapart => ?_, fun hapart htimes => ?_⟩
  · exact clock_goOn _ _ _ _ s hwith.timely' hstart hs (.inr hwith.mem_deadline)
  · exact (Apart.agrees hapart hwith hstart hs honce hline).late
  · have heq := (Apart.agrees hapart hwith hstart hs honce hline).inTime htimes
    exact ⟨congrArg Prod.fst heq, congrArg Prod.snd heq⟩

end VectorStore.Task
