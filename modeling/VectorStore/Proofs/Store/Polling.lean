/-
  Waiting by an exact clock.

  The polling is stated for any numbers and any clock.  Here the numbers are rationals, and the
  clock is moved by nothing but sleeping (`Watch`).

  * `run_pollUntil`: polling goes through the states before and after its polls up to a poll that
    succeeds, or up to the last one;
  * `pause?_pollTime`: the pauses lead from each time of a poll to the next one;
  * `Course.run_waitBy`: so a wait by an exact clock ends after no more polls than there are pauses,
    and one; `run_watchCount` says what a wait for a count adds to it;
  * `wait_ends`: it succeeds just if one of the polls does, and one for a count warns just if all
    the counts it has seen were too low.
-/
import Mathlib
import VectorStore.Proofs.Store.Runs
import VectorStore.Store.Polling

namespace VectorStore.Polling

/-! ## Times -/

variable {timeout interval : ℚ}

/-- When a poll is made: after so many intervals, or at the end of the time. -/
def pollTime (timeout interval : ℚ) (j : ℕ) : ℚ :=
  if j * interval < timeout then j * interval else max timeout 0

/-- The most pauses: as many as intervals begin before the timeout is over. -/
def pauses (timeout interval : ℚ) : ℕ := ⌈max timeout 0 / interval⌉₊

theorem lt_pauses_iff (h : 0 < interval) {j : ℕ} :
    j < pauses timeout interval ↔ j * interval < timeout := by
  have hnonneg : 0 ≤ j * interval := by positivity
  rw [pauses, Nat.lt_ceil, lt_div_iff₀ h, lt_max_iff, or_iff_left (not_lt.2 hnonneg)]

theorem pollTime_zero : pollTime timeout interval 0 = 0 := by
  rw [pollTime, Nat.cast_zero, zero_mul]
  split_ifs with h
  · rfl
  · exact max_eq_right (not_lt.1 h)

theorem pollTime_pauses (h : 0 < interval) :
    pollTime timeout interval (pauses timeout interval) = max timeout 0 := by
  rw [pollTime, if_neg]
  exact fun hlt => lt_irrefl _ ((lt_pauses_iff h).2 hlt)

/-- Nothing is left of the time at the last poll. -/
theorem pause?_last (start : ℚ) (h : 0 < interval) :
    pause? (start + timeout) interval
      (start + pollTime timeout interval (pauses timeout interval)) = none := by
  rw [pollTime_pauses h, pause?, if_pos]
  have := le_max_left timeout 0
  linarith

/-- **A pause leads to the time of the next poll.** -/
theorem pause?_pollTime (start : ℚ) {k : ℕ} (hk : k * interval < timeout) (h : 0 < interval) :
    ∃ span, pause? (start + timeout) interval (start + pollTime timeout interval k) = some span ∧
      pollTime timeout interval k + span = pollTime timeout interval (k + 1) := by
  have hnow : pollTime timeout interval k = k * interval := if_pos hk
  have hnonneg : 0 ≤ k * interval := by positivity
  have hleft : start + timeout - (start + k * interval) = timeout - k * interval := by ring
  have hsome : ¬timeout - k * interval ≤ 0 := by linarith
  have hnext : ((k + 1 : ℕ) : ℚ) * interval = k * interval + interval := by push_cast; ring
  rw [hnow, pause?, hleft, if_neg hsome]
  refine ⟨_, rfl, ?_⟩
  rw [pollTime, hnext, max_eq_left (by linarith)]
  by_cases hmore : timeout - k * interval < interval
  · rw [if_pos hmore, if_neg (by linarith)]
    ring
  · rw [if_neg hmore]
    split_ifs with hlt
    · rfl
    · linarith

/-! ## Polls -/

/-- **Polling goes on until a poll succeeds or no time is left.**  The states before and after the
    polls are given, and how a poll leads from one to the other, and a pause to the next poll. -/
theorem run_pollUntil {σ : Type} [Clocked σ] {now : σ → ℚ} {sleep : ℚ → Task σ Failure Unit}
    {check : Task σ Failure Bool} {deadline : ℚ} {outcomes : ℕ → Bool} {before after : ℕ → σ}
    {n : ℕ} (hcheck : ∀ k, check.run (before k) = (.ok (outcomes k), after k))
    (hpause : ∀ k < n, ∃ span, pause? deadline interval (now (after k)) = some span ∧
      (sleep span).run (after k) = (.ok (), before (k + 1)))
    (hlast : pause? deadline interval (now (after n)) = none) {k polls : ℕ} (hk : k ≤ n)
    (hpolls : n < k + polls) :
    ∃ m ≤ n, k ≤ m ∧ (∀ j, k ≤ j → j < m → outcomes j = false) ∧
      (outcomes m = false → m = n) ∧
      (pollUntil now sleep check deadline interval polls).run (before k) =
        (.ok (outcomes m), after m) := by
  -- on the polls still allowed, of which there is always one more than pauses are left
  induction polls generalizing k with
  | zero => omega
  | succ polls ih =>
    rw [pollUntil, Task.run_andThen, hcheck]
    dsimp only
    cases hheld : outcomes k with
    | true =>
      refine ⟨k, hk, le_rfl, fun j hkj hjk => by omega, fun h => ?_, by rw [hheld]; rfl⟩
      rw [hheld] at h
      cases h
    | false =>
      rw [if_neg Bool.false_ne_true, Task.run]
      rcases hk.lt_or_eq with hlt | rfl
      · -- some time is left, so another poll follows
        obtain ⟨span, hspan, hsleep⟩ := hpause k hlt
        obtain ⟨m, hm, hkm, hfailed, hend, hrun⟩ := ih (k := k + 1) hlt (by omega)
        refine ⟨m, hm, by omega, fun j hkj hjm => ?_, hend, ?_⟩
        · rcases hkj.eq_or_lt with rfl | hkj
          · exact hheld
          · exact hfailed j hkj hjm
        · rw [hspan]
          dsimp only
          rw [Task.run_andThen, hsleep]
          exact hrun
      · refine ⟨k, le_rfl, le_rfl, fun j hkj hjk => by omega, fun _ => rfl, ?_⟩
        rw [hlast, hheld]
        rfl

/-- The polls that are made at most leave time for all the pauses. -/
theorem pauses_lt_mostPolls (h : 0 < interval) :
    pauses timeout interval < mostPolls timeout interval := by
  rw [mostPolls]
  split_ifs with hboth
  · refine Nat.lt_succ_of_le (Nat.le_succ_of_le (Nat.ceil_le.2 ?_))
    rw [max_eq_left hboth.1.le]
    calc timeout / interval ≤ (timeout / interval).ceil := Rat.le_ceil
      _ ≤ (timeout / interval).ceil.toNat := by exact_mod_cast Int.self_le_toNat _
  · have hover : timeout ≤ 0 := not_lt.1 fun hlt => hboth ⟨hlt, h⟩
    rw [pauses, max_eq_right hover, zero_div, Nat.ceil_zero]
    exact Nat.two_pos

/-- How the states before and after the polls follow each other by an exact clock: a poll takes no
    time, and a pause leads to the next poll. -/
structure Course {σ : Type} [Clocked σ] (now : σ → ℚ) (sleep : ℚ → Task σ Failure Unit)
    (check : Task σ Failure Bool) (timeout interval start : ℚ) (outcomes : ℕ → Bool)
    (before after : ℕ → σ) : Prop where
  starts : now (before 0) = start
  polls : ∀ k, check.run (before k) = (.ok (outcomes k), after k)
  reads : ∀ k, now (after k) = start + pollTime timeout interval k
  sleeps : ∀ k span, pollTime timeout interval k + span = pollTime timeout interval (k + 1) →
    (sleep span).run (after k) = (.ok (), before (k + 1))

/-- **A wait by an exact clock ends with a poll that succeeds, or with the last one.** -/
theorem Course.run_waitBy {σ : Type} [Clocked σ] {now : σ → ℚ} {sleep : ℚ → Task σ Failure Unit}
    {check : Task σ Failure Bool} {start : ℚ} {outcomes : ℕ → Bool} {before after : ℕ → σ}
    (hc : Course now sleep check timeout interval start outcomes before after) (h : 0 < interval)
    (spare : ℕ) :
    ∃ k ≤ pauses timeout interval, (∀ j < k, outcomes j = false) ∧
      (outcomes k = false → k = pauses timeout interval) ∧
      (waitBy now sleep check timeout interval (mostPolls timeout interval + spare)).run
        (before 0) = (.ok (outcomes k), after k) := by
  have hpause : ∀ k < pauses timeout interval,
      ∃ span, pause? (start + timeout) interval (now (after k)) = some span ∧
        (sleep span).run (after k) = (.ok (), before (k + 1)) := by
    intro k hk
    obtain ⟨span, hspan, hnext⟩ := pause?_pollTime start ((lt_pauses_iff h).1 hk) h
    exact ⟨span, by rw [hc.reads, hspan], hc.sleeps k span hnext⟩
  have hlast :
      pause? (start + timeout) interval (now (after (pauses timeout interval))) = none := by
    rw [hc.reads, pause?_last start h]
  have henough : pauses timeout interval < 0 + (mostPolls timeout interval + spare) := by
    rw [Nat.zero_add]
    exact (pauses_lt_mostPolls h).trans_le (Nat.le_add_right _ _)
  obtain ⟨k, hk, -, hfailed, hend, hrun⟩ :=
    run_pollUntil hc.polls hpause hlast (Nat.zero_le _) henough
  refine ⟨k, hk, fun j => hfailed j (Nat.zero_le j), hend, ?_⟩
  rw [waitBy, Task.run, hc.starts]
  exact hrun

/-- A wait for a count ends with the shape seen last, and a warning if it has failed; it fails
    itself if there is no text of the warning. -/
theorem run_watchCount {σ : Type} [Clocked σ] {describe : Task σ Failure Descriptor}
    {wait : Task (σ × Option Descriptor) Failure Bool → Task (σ × Option Descriptor) Failure Bool}
    {expected : Value} (warn : Descriptor → Except Fault (σ → σ)) {s s' : σ} {held : Bool}
    {d : Descriptor}
    (h : (wait (showsCount describe expected)).run (s, none) = (.ok held, s', some d)) :
    (watchCount describe wait expected warn).run s =
      match if held then .ok id else warn d with
      | .ok warned => (.ok d, warned s')
      | .error f => (.error (.fault f), s') := by
  have hlocal := Task.run_withLocal none (wait (showsCount describe expected)) s
  rw [h] at hlocal
  rw [watchCount, Task.run_bind_ok hlocal]
  cases held
  · show (Task.ofExcept ((warn d).mapError Failure.fault) >>= _ :
      Task σ Failure Descriptor).run s' = _
    rw [if_neg Bool.false_ne_true]
    rcases warn d with f | warned <;> rfl
  · rfl

/-! ## An exact clock -/

/-- A clock that is moved only by sleeping, and what was done by it. -/
structure Watch where
  clock : ℚ
  /-- when something was polled -/
  polled : List ℚ := []
  /-- the warnings -/
  notices : List Notice := []

/-- Nothing on a watch waits for the time of the tasks. -/
instance : Clocked Watch where
  clock _ := 0
  atTime _ w := w

namespace Watch

/-- Moves the clock. -/
def sleep (span : ℚ) : Task Watch Failure Unit :=
  .modify fun w => { w with clock := w.clock + span }

/-- Polls what has the given outcomes in turn. -/
def poll {α : Type} (outcomes : ℕ → α) : Task Watch Failure α :=
  .read fun w => .write { w with polled := w.polled ++ [w.clock] } (.ret (outcomes w.polled.length))

/-- Waits until a poll succeeds. -/
def wait (outcomes : ℕ → Bool) (timeout interval : ℚ) (spare : ℕ) : Task Watch Failure Bool :=
  waitBy clock sleep (poll outcomes) timeout interval (mostPolls timeout interval + spare)

/-- Waits until an index, whose shapes are given in turn, reports the expected number of records. -/
def waitForCount (shapes : ℕ → Descriptor) (name shown : Value) (expected : ℤ)
    (timeout interval : ℚ) (spare : ℕ) : Task Watch Failure Descriptor :=
  watchCount (poll shapes)
    (fun check => waitBy (fun s => s.1.clock) (fun span => (sleep span).onFirst) check timeout
      interval (mostPolls timeout interval + spare))
    (.int expected) fun d => do
      let notice ← notCaughtUp name shown (.int expected) d.count
      return fun w => { w with notices := w.notices ++ [notice] }

/-- The watch at the time of a poll, after so many polls. -/
def reading (timeout interval start : ℚ) (k polls : ℕ) : Watch where
  clock := start + pollTime timeout interval k
  polled := (List.range polls).map fun j => start + pollTime timeout interval j

variable (timeout interval start : ℚ)

theorem reading_zero : reading timeout interval start 0 0 = { clock := start } := by
  rw [reading, pollTime_zero, add_zero]
  rfl

theorem run_poll {α : Type} (outcomes : ℕ → α) (k : ℕ) :
    (poll outcomes).run (reading timeout interval start k k) =
      (.ok (outcomes k), reading timeout interval start k (k + 1)) := by
  simp [poll, reading, Task.run, Task.ret, List.range_succ]

theorem run_sleep {k : ℕ} {span : ℚ}
    (h : pollTime timeout interval k + span = pollTime timeout interval (k + 1)) (polls : ℕ) :
    (sleep span).run (reading timeout interval start k polls) =
      (.ok (), reading timeout interval start (k + 1) polls) := by
  simp [sleep, reading, Task.modify, Task.run, Task.ret, ← h, add_assoc]

/-- What an index has shown after so many polls. -/
def seen (shapes : ℕ → Descriptor) : ℕ → Option Descriptor
  | 0 => none
  | polls + 1 => some (shapes polls)

/-- The polls of a wait stop at poll `k`: the first that succeeds, or the one at the end of the
    time.  Those before it were made after each interval within the time. -/
structure StopsAt (outcomes : ℕ → Bool) (k : ℕ) (w : Watch) : Prop where
  bounded : k ≤ pauses timeout interval
  failed : ∀ j < k, outcomes j = false ∧ j * interval < timeout
  last : outcomes k = false →
    k = pauses timeout interval ∧ pollTime timeout interval k = max timeout 0
  polled : w.polled = (List.range (k + 1)).map fun j => start + pollTime timeout interval j

variable {timeout interval start}

/-- Where the polls stop depends on no warnings. -/
theorem StopsAt.congr {outcomes : ℕ → Bool} {k : ℕ} {w w' : Watch}
    (h : StopsAt timeout interval start outcomes k w) (hpolled : w'.polled = w.polled) :
    StopsAt timeout interval start outcomes k w' :=
  { h with polled := hpolled.trans h.polled }

/-- The last poll succeeds just if one of those that there is time for does. -/
theorem StopsAt.succeeds_iff {outcomes : ℕ → Bool} {k : ℕ} {w : Watch}
    (h : StopsAt timeout interval start outcomes k w) :
    outcomes k = true ↔ ∃ j ≤ pauses timeout interval, outcomes j = true := by
  refine ⟨fun hk => ⟨k, h.bounded, hk⟩, fun ⟨j, hj, hheld⟩ => ?_⟩
  by_contra hk
  have hlast := (h.last (Bool.eq_false_iff.2 hk)).1
  rcases (hlast ▸ hj : j ≤ k).lt_or_eq with hlt | rfl
  · rw [(h.failed j hlt).1] at hheld
    cases hheld
  · exact hk hheld

variable (start)

theorem stopsAt_reading (h : 0 < interval) {outcomes : ℕ → Bool} {k : ℕ}
    (hk : k ≤ pauses timeout interval) (hfailed : ∀ j < k, outcomes j = false)
    (hend : outcomes k = false → k = pauses timeout interval) :
    StopsAt timeout interval start outcomes k (reading timeout interval start k (k + 1)) where
  bounded := hk
  failed j hj := ⟨hfailed j hj, (lt_pauses_iff h).1 (hj.trans_le hk)⟩
  last hout := ⟨hend hout, by rw [hend hout, pollTime_pauses h]⟩
  polled := rfl

/-- A wait goes through the readings of the watch. -/
theorem course_poll (outcomes : ℕ → Bool) :
    Course Watch.clock sleep (poll outcomes) timeout interval start outcomes
      (fun k => reading timeout interval start k k)
      (fun k => reading timeout interval start k (k + 1)) where
  starts := by rw [reading_zero]
  polls := run_poll timeout interval start outcomes
  reads _ := rfl
  sleeps _ _ hspan := run_sleep timeout interval start hspan _

/-- A wait for a count goes through the same readings, with the shape seen last. -/
theorem course_showsCount (shapes : ℕ → Descriptor) (expected : ℤ) :
    Course (fun s => s.1.clock) (fun span => (sleep span).onFirst)
      (showsCount (poll shapes) (.int expected)) timeout interval start
      (fun k => !decide ((shapes k).count < expected))
      (fun k => (reading timeout interval start k k, seen shapes k))
      (fun k => (reading timeout interval start k (k + 1), seen shapes (k + 1))) where
  starts := by rw [reading_zero]
  polls k := by
    have hpoll : ((poll shapes).onFirst : Task _ Failure _).run
        (reading timeout interval start k k, seen shapes k) =
          (.ok (shapes k), reading timeout interval start k (k + 1), seen shapes k) := by
      rw [Task.run_onFirst, run_poll]
    exact Task.run_bind_ok hpoll _
  reads _ := rfl
  sleeps k span hspan := by
    rw [Task.run_onFirst, run_sleep timeout interval start hspan]

theorem run_wait (timeout : ℚ) {interval : ℚ} (start : ℚ) (h : 0 < interval)
    (outcomes : ℕ → Bool) (spare : ℕ) :
    ∃ k w, StopsAt timeout interval start outcomes k w ∧
      (wait outcomes timeout interval spare).run { clock := start } = (.ok (outcomes k), w) := by
  obtain ⟨k, hk, hfailed, hend, hrun⟩ := (course_poll start outcomes).run_waitBy h spare
  rw [reading_zero] at hrun
  exact ⟨k, _, stopsAt_reading start h hk hfailed hend, hrun⟩

/-- How a wait for a count ends with a shape, too low or not: it warns if it is too low, and fails
    if there is no text of the warning. -/
def Warns (name shown : Value) (expected : ℤ) (shape : Descriptor) (low : Prop)
    (outcome : Except Failure Descriptor × Watch) : Prop :=
  (¬low → outcome.1 = .ok shape ∧ outcome.2.notices = []) ∧
  (low → match notCaughtUp name shown (.int expected) shape.count with
    | .ok notice => outcome.1 = .ok shape ∧ outcome.2.notices = [notice]
    | .error f => outcome.1 = .error (.fault f) ∧ outcome.2.notices = [])

/-- Such a wait warns of the count at its last poll if that is too low. -/
theorem run_waitForCount (timeout : ℚ) {interval : ℚ} (start : ℚ) (h : 0 < interval)
    (shapes : ℕ → Descriptor) (name shown : Value) (expected : ℤ) (spare : ℕ) :
    let outcome := (waitForCount shapes name shown expected timeout interval spare).run
      { clock := start }
    ∃ k, StopsAt timeout interval start (fun j => !decide ((shapes j).count < expected)) k
        outcome.2 ∧
      Warns name shown expected (shapes k) ((shapes k).count < expected) outcome := by
  intro outcome
  obtain ⟨k, hk, hfailed, hend, hrun⟩ :=
    (course_showsCount start shapes expected).run_waitBy h spare
  rw [reading_zero] at hrun
  have houtcome : outcome = _ := run_watchCount _ hrun
  suffices hends : outcome.2.polled = (reading timeout interval start k (k + 1)).polled ∧
      Warns name shown expected (shapes k) ((shapes k).count < expected) outcome from
    ⟨k, (stopsAt_reading start h hk hfailed hend).congr hends.1, hends.2⟩
  rw [houtcome]
  by_cases hlow : (shapes k).count < expected
  · simp only [hlow, decide_true, Bool.not_true, Bool.false_eq_true, if_false]
    rcases hn : notCaughtUp name shown (.int expected) (shapes k).count with f | notice
    · refine ⟨rfl, fun hnot => absurd trivial hnot, fun _ => ?_⟩
      rw [hn]
      exact ⟨rfl, rfl⟩
    · refine ⟨rfl, fun hnot => absurd trivial hnot, fun _ => ?_⟩
      rw [hn]
      exact ⟨rfl, rfl⟩
  · simp only [hlow, decide_false, Bool.not_false, if_true]
    exact ⟨rfl, fun _ => ⟨rfl, rfl⟩, False.elim⟩

end Watch

end VectorStore.Polling
