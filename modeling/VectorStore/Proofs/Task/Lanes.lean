/-
  What tasks side by side keep.

  The lanes and their state change in turns (`advance`), and the clock between them.

  * `Accounted`: no lane is lost from sight and none is entered twice: one that waits stands in
    line since it may go on (`free`), is in the agenda since it waits for a time, or is parked
    since what it waits for did not hold (`stuck`);
  * `Accounted.turn`: a turn of a lane keeps this, wherever the lane goes from there;
  * `run_goOn`: so whatever turns and the clock keep holds in the end, when every lane has
    ended or is stuck, or when a deadline cuts all of them short;
  * `run_sideBySide` states this of lanes from their start on.
-/
import Mathlib.Data.List.Nodup
import VectorStore.Proofs.Task.Contents
import VectorStore.Proofs.Task.Steps

namespace VectorStore

/-- A wait for time. -/
def Until.Timed {σ : Type} (u : Until σ) : Prop := ∀ condition, u ≠ .holds condition

namespace Task

variable {σ ε : Type}

/-! ## Entries -/

/-- The lane that an entry is for. -/
def Turn.lane? : Turn ε → Option Nat
  | .lane i => some i
  | .deadline _ => none

theorem Turn.lane?_eq_some {x : Turn ε} {i : Nat} : x.lane? = some i ↔ x = .lane i := by
  cases x <;> simp [Turn.lane?]

theorem Turn.filterMap_lane? (is : List Nat) :
    (is.map (Turn.lane (ε := ε))).filterMap Turn.lane? = is := by
  induction is with
  | nil => rfl
  | cons i is ih => simp [Turn.lane?, ih]

/-- The lanes that are entered somewhere. -/
def slots (line : List (Turn ε)) (agenda : Agenda (Turn ε)) (parked : List Nat) : List Nat :=
  line.filterMap Turn.lane? ++ agenda.entries.filterMap Turn.lane? ++ parked

theorem mem_slots {line : List (Turn ε)} {agenda : Agenda (Turn ε)} {parked : List Nat} {i : Nat} :
    i ∈ slots line agenda parked ↔ .lane i ∈ line ∨ .lane i ∈ agenda.entries ∨ i ∈ parked := by
  simp [slots, Turn.lane?_eq_some]

section

variable (free : σ → Until σ → Prop) (stuck : σ → (σ → Bool) → Prop)

/-- Every lane waits or has ended; those that wait are entered once, in the line if they may go on,
    among the parked if they are stuck. -/
structure Accounted (lanes : List (Lane σ)) (line : List (Turn ε)) (agenda : Agenda (Turn ε))
    (parked : List Nat) (s : σ) : Prop where
  settled : ∀ t ∈ lanes, t.Settled
  once : (slots line agenda parked).Nodup
  entered : ∀ i t, lanes[i]? = some t → hasEnded t = true ∨ i ∈ slots line agenda parked
  line : ∀ i, .lane i ∈ line → ∀ u abandon next, lanes[i]? = some (.wait u abandon next) → free s u
  agenda : ∀ i, .lane i ∈ agenda.entries → ∀ u abandon next,
    lanes[i]? = some (.wait u abandon next) → u.Timed
  parked : ∀ i ∈ parked, ∀ u abandon next, lanes[i]? = some (.wait u abandon next) →
    ∃ condition, u = .holds condition ∧ stuck s condition

/-- Where a lane is entered that has had its turn. -/
inductive Entered (s : σ) (agenda : Agenda (Turn ε)) (i : Nat) : Lane σ →
    List (Turn ε) → Agenda (Turn ε) → List Nat → Prop
  | ended {r} : Entered s agenda i (.done r) [] agenda []
  | line {u abandon next} : free s u → Entered s agenda i (.wait u abandon next) [.lane i] agenda []
  | agenda {u abandon next} (time : Time) : u.Timed →
      Entered s agenda i (.wait u abandon next) [] (agenda.push time (.lane i)) []
  | parked {condition abandon next} : stuck s condition →
      Entered s agenda i (.wait (.holds condition) abandon next) [] agenda [i]

end

/-- What tells whether a lane may go on: one that waits for time may, and one that waits for a state
    of things may if it holds; else it is stuck. -/
structure Telling (free : σ → Until σ → Prop) (stuck : σ → (σ → Bool) → Prop) : Prop where
  timed {s u} : u.Timed → free s u
  holds {s condition} : condition s = true → free s (.holds condition)
  lacks {s condition} : condition s = false → stuck s condition

/-- What the turns of lanes and the clock keep.  A turn leaves the others free that were, and time
    frees nobody who is stuck. -/
structure Kept (free : σ → Until σ → Prop) (stuck : σ → (σ → Bool) → Prop)
    (I : List (Lane σ) → σ → Prop) [Clocked σ] : Prop extends Telling free stuck where
  turn {lanes s i u abandon next} : I lanes s → lanes[i]? = some (.wait u abandon next) →
    free s u → I (lanes.set i (next.advance s).2) (next.advance s).1 ∧
      ∀ j, j ≠ i → ∀ u' abandon' next', lanes[j]? = some (.wait u' abandon' next') →
        free s u' → free (next.advance s).1 u'
  clock {lanes s} (time : Time) : I lanes s → I lanes (Clocked.atTime time s) ∧
    ∀ condition abandon next, .wait (.holds condition) abandon next ∈ lanes →
      stuck s condition → stuck (Clocked.atTime time s) condition

/-- A deadline is on its way. -/
def Pending (late : ε) (line : List (Turn ε)) (agenda : Agenda (Turn ε)) : Prop :=
  .deadline late ∈ line ∨ .deadline late ∈ agenda.entries

variable {free : σ → Until σ → Prop} {stuck : σ → (σ → Bool) → Prop} {lanes : List (Lane σ)}
  {i : Nat} {line inLine : List (Turn ε)} {agenda agenda' : Agenda (Turn ε)}
  {parked woken parked' set : List Nat} {rest : Lane σ} {s s' : σ}

/-- The lane is entered at most once, and it is if it waits. -/
theorem Entered.slots_perm (h : Entered free stuck s agenda i rest inLine agenda' set) :
    ∃ own : List Nat, own.Sublist [i] ∧ (hasEnded rest = true ∨ i ∈ own) ∧
      (slots inLine agenda' set).Perm (own ++ agenda.entries.filterMap Turn.lane?) := by
  cases h with
  | ended => exact ⟨[], List.nil_sublist _, .inl rfl, by simp [slots]⟩
  | line => exact ⟨[i], .refl _, .inr (List.mem_singleton_self i), by simp [slots, Turn.lane?]⟩
  | agenda time =>
    refine ⟨[i], .refl _, .inr (List.mem_singleton_self i), ?_⟩
    have hp := (agenda.entries_push time (.lane i)).filterMap Turn.lane?
    rw [List.filterMap_append] at hp
    have hs : slots [] (agenda.push time (.lane i)) [] =
        (agenda.push time (.lane i)).entries.filterMap (Turn.lane? (ε := ε)) := by simp [slots]
    rw [hs]
    exact hp.trans List.perm_append_comm
  | parked =>
    refine ⟨[i], .refl _, .inr (List.mem_singleton_self i), ?_⟩
    have hs : slots [] agenda [i] = agenda.entries.filterMap (Turn.lane? (ε := ε)) ++ [i] := by
      simp [slots]
    rw [hs]
    exact List.perm_append_comm

/-- What is in the line and in the agenda besides was there before. -/
theorem Entered.mem (h : Entered free stuck s agenda i rest inLine agenda' set) {x : Turn ε} :
    (x ∈ inLine → x = .lane i) ∧ (x ∈ agenda'.entries → x = .lane i ∨ x ∈ agenda.entries) := by
  cases h with
  | ended => exact ⟨nofun, .inr⟩
  | line => exact ⟨List.mem_singleton.1, .inr⟩
  | agenda time =>
    refine ⟨nofun, fun hx => ?_⟩
    have hx := (agenda.entries_push time _).mem_iff.1 hx
    simpa [or_comm] using hx
  | parked => exact ⟨nofun, .inr⟩

/-- No turn of a lane sets a deadline. -/
theorem Entered.pending (h : Entered free stuck s agenda i rest inLine agenda' set) {late : ε}
    (hp : Pending late (line ++ woken.map .lane ++ inLine) agenda') :
    Pending late (.lane i :: line) agenda := by
  rcases hp with hp | hp
  · simp only [List.mem_append, List.mem_map, reduceCtorEq, and_false, exists_false, or_false] at hp
    rcases hp with hp | hp
    · exact .inl (List.mem_cons_of_mem _ hp)
    · cases h.mem.1 hp
  · rcases h.mem.2 hp with hp | hp
    · cases hp
    · exact .inr hp

theorem isWoken_eq_true {t : Option (Lane σ)} : isWoken s t = true ↔
    ∃ condition abandon next, t = some (.wait (.holds condition) abandon next) ∧
      condition s = true := by
  constructor
  · intro h
    match t with
    | some (.wait (.holds condition) abandon next) => exact ⟨condition, abandon, next, rfl, h⟩
  · rintro ⟨condition, abandon, next, rfl, h⟩
    exact h

/-- A turn of a lane enters no other lane and leaves none out. -/
theorem Entered.slots_turn (line : List (Turn ε))
    (he : Entered free stuck s' agenda i rest inLine agenda' set)
    (hperm : (woken ++ parked').Perm parked) : ∃ own : List Nat, own.Sublist [i] ∧
      (hasEnded rest = true ∨ i ∈ own) ∧
      (slots (line ++ woken.map .lane ++ inLine) agenda' (parked' ++ set)).Perm
        (own ++ slots line agenda parked) := by
  obtain ⟨own, hown, hwaits, hentered⟩ := he.slots_perm
  refine ⟨own, hown, hwaits, List.perm_iff_count.2 fun k => ?_⟩
  have h₁ := hentered.count_eq k
  have h₂ := hperm.count_eq k
  simp only [slots, List.filterMap_append, Turn.filterMap_lane?, List.count_append] at h₁ h₂ ⊢
  omega

/-- A turn of a lane enters none twice. -/
theorem Entered.nodup_slots (he : Entered free stuck s' agenda i rest inLine agenda' set)
    (hperm : (woken ++ parked').Perm parked) (h : (slots (.lane i :: line) agenda parked).Nodup) :
    (slots (line ++ woken.map .lane ++ inLine) agenda' (parked' ++ set)).Nodup := by
  have h : (i :: slots line agenda parked).Nodup := h
  obtain ⟨hi, hnodup⟩ := List.nodup_cons.1 h
  obtain ⟨own, hown, -, hnew⟩ := he.slots_turn line hperm
  rw [hnew.nodup_iff, List.nodup_append]
  refine ⟨(List.nodup_singleton i).sublist hown, hnodup, fun j hj k hk => ?_⟩
  obtain rfl := List.mem_singleton.1 (hown.subset hj)
  rintro rfl
  exact hi hk

/-- **A turn of a lane loses no lane from sight.** -/
theorem Accounted.turn (ha : Accounted free stuck lanes (.lane i :: line) agenda parked s)
    (ht : Telling free stuck) (hr : rest.Settled)
    (hfree : ∀ j, j ≠ i → ∀ u abandon next, lanes[j]? = some (.wait u abandon next) →
      free s u → free s' u)
    (hperm : (woken ++ parked').Perm parked)
    (hwoken : ∀ j ∈ woken, isWoken s' (lanes.set i rest)[j]? = true)
    (hparked : ∀ j ∈ parked', isWoken s' (lanes.set i rest)[j]? = false)
    (he : Entered free stuck s' agenda i rest inLine agenda' set) :
    Accounted free stuck (lanes.set i rest) (line ++ woken.map .lane ++ inLine) agenda'
      (parked' ++ set) s' := by
  obtain ⟨own, -, hwaits, hnew⟩ := he.slots_turn line hperm
  have honce := ha.once
  have hslots : slots (.lane i :: line) agenda parked = i :: slots line agenda parked := rfl
  rw [hslots, List.nodup_cons, mem_slots, not_or, not_or] at honce
  obtain ⟨⟨hline, hagenda, hnot⟩, -⟩ := honce
  have hother : ∀ j, j ≠ i → (lanes.set i rest)[j]? = lanes[j]? := fun j hj =>
    List.getElem?_set_ne (Ne.symm hj)
  have hself : ∀ t, (lanes.set i rest)[i]? = some t → rest = t := fun t hi => by
    rw [List.getElem?_set_self'] at hi
    rcases hl : lanes[i]? with _ | t' <;> rw [hl] at hi <;> cases hi
    rfl
  refine ⟨fun t ht => ?_, he.nodup_slots hperm ha.once, fun j t hj => ?_,
    fun j hj u abandon next hu => ?_, fun j hj u abandon next hu => ?_,
    fun j hj u abandon next hu => ?_⟩
  · rcases List.mem_or_eq_of_mem_set ht with ht | rfl
    · exact ha.settled t ht
    · exact hr
  · rw [hnew.mem_iff, List.mem_append]
    by_cases hij : j = i
    · subst hij
      rw [← hself t hj]
      exact hwaits.imp_right .inl
    · rw [hother j hij] at hj
      refine (ha.entered j t hj).imp_right fun h => .inr ?_
      rw [hslots, List.mem_cons] at h
      exact h.resolve_left hij
  · simp only [List.mem_append, List.mem_map] at hj
    rcases hj with (hj | ⟨k, hk, hj⟩) | hj
    · have hij : j ≠ i := fun h => hline (h ▸ hj)
      rw [hother j hij] at hu
      exact hfree j hij u abandon next hu (ha.line j (List.mem_cons_of_mem _ hj) u abandon next hu)
    · cases hj
      obtain ⟨condition, _, _, hc, htrue⟩ := isWoken_eq_true.1 (hwoken j hk)
      rw [hu] at hc
      cases hc
      exact ht.holds htrue
    · cases he.mem.1 hj
      cases hself _ hu
      cases he with
      | line h => exact h
      | _ => cases hj
  · rcases he.mem.2 hj with hj' | hj'
    · cases hj'
      cases hself _ hu
      cases he with
      | agenda time h => exact h
      | _ => exact absurd hj hagenda
    · have hij : j ≠ i := fun h => hagenda (h ▸ hj')
      rw [hother j hij] at hu
      exact ha.agenda j hj' u abandon next hu
  · rcases List.mem_append.1 hj with hj | hj
    · have hmem : j ∈ parked := hperm.mem_iff.1 (List.mem_append_right _ hj)
      have hij : j ≠ i := fun h => hnot (h ▸ hmem)
      have hasleep := hparked j hj
      rw [hu] at hasleep
      rw [hother j hij] at hu
      obtain ⟨condition, rfl, -⟩ := ha.parked j hmem u abandon next hu
      exact ⟨condition, rfl, ht.lacks hasleep⟩
    · cases he with
      | parked h =>
        obtain rfl := List.mem_singleton.1 hj
        cases hself _ hu
        exact ⟨_, rfl, h⟩
      | _ => cases hj

/-! ## Runs -/

/-- A lane that goes no further: it has ended, or it waits for a state of things and is stuck. -/
inductive Still (stuck : σ → (σ → Bool) → Prop) (s : σ) : Lane σ → Prop
  | ended {r} : Still stuck s (.done r)
  | stuck {condition abandon next} : stuck s condition →
      Still stuck s (.wait (.holds condition) abandon next)

/-- How lanes end up from where they stand: all have ended or are stuck, or a deadline that was
    on its way cut them short. -/
def Ends (stuck : σ → (σ → Bool) → Prop) (I : List (Lane σ) → σ → Prop) (line : List (Turn ε))
    (agenda : Agenda (Turn ε)) (outcome : Except ε Unit × σ) : Prop :=
  ∃ lanes s, I lanes s ∧
    ((∀ t ∈ lanes, Still stuck s t) ∧ outcome = (.ok (), s) ∨
      ∃ late, Pending late line agenda ∧ outcome = (.error late, abandonAll lanes s))

theorem Ends.mono {I : List (Lane σ) → σ → Prop} {line' : List (Turn ε)}
    {outcome : Except ε Unit × σ} (h : Ends stuck I line agenda outcome)
    (hp : ∀ late, Pending late line agenda → Pending late line' agenda') :
    Ends stuck I line' agenda' outcome := by
  obtain ⟨lanes, s, hi, h | ⟨late, hl, ho⟩⟩ := h
  · exact ⟨lanes, s, hi, .inl h⟩
  · exact ⟨lanes, s, hi, .inr ⟨late, hp late hl, ho⟩⟩

variable [Clocked σ]

theorem entered_place (ht : Telling free stuck) (hr : rest.Settled) (s : σ)
    (agenda : Agenda (Turn ε)) (i : Nat) : Entered free stuck s agenda i rest
      (place s agenda i rest).1 (place s agenda i rest).2.1 (place s agenda i rest).2.2 := by
  cases hr with
  | done => exact .ended
  | @wait u abandon next =>
    cases u with
    | passed span => exact .agenda (Clocked.clock s + span) nofun
    | reached time => exact .agenda time nofun
    | holds condition =>
      rcases hc : condition s
      · have h : Entered free stuck s agenda i (.wait (.holds condition) abandon next) [] agenda [i] :=
          .parked (ht.lacks hc)
        simpa [place, Until.due?, isWoken, hc] using h
      · have h : Entered free stuck s agenda i (.wait (.holds condition) abandon next) [.lane i]
            agenda [] := .line (ht.holds hc)
        simpa [place, Until.due?, isWoken, hc] using h

/-- **What turns and the clock keep holds in the end.** -/
theorem run_goOn {I : List (Lane σ) → σ → Prop} (hI : Kept free stuck I) (lanes : List (Lane σ))
    (line : List (Turn ε)) (agenda : Agenda (Turn ε)) (parked : List Nat) (s : σ)
    (hs : I lanes s) (ha : Accounted free stuck lanes line agenda parked s) :
    Ends stuck I line agenda ((goOn lanes line agenda parked).run s) := by
  induction lanes, line, agenda, parked using goOn_induction generalizing s with
  | empty lanes agenda parked ih =>
    by_cases hall : lanes.all hasEnded = true
    · rw [run_goOn_ended hall]
      rw [List.all_eq_true] at hall
      refine ⟨lanes, s, hs, .inl ⟨fun t ht => ?_, rfl⟩⟩
      cases ha.settled t ht with
      | done => exact .ended
      | wait => exact nomatch hall _ ht
    rcases hdue : agenda.popDue? with _ | ⟨time, due, rest⟩
    · rw [run_goOn_idle hall hdue]
      have he := Agenda.popDue_eq_none_iff.1 hdue
      refine ⟨lanes, s, hs, .inl ⟨fun t ht => ?_, rfl⟩⟩
      obtain ⟨i, hi⟩ := List.getElem?_of_mem ht
      cases ha.settled t ht with
      | done => exact .ended
      | wait =>
        have h := ha.entered i _ hi
        rw [mem_slots, he] at h
        rcases h with h | h | h | h
        · cases h
        · cases h
        · cases h
        · obtain ⟨condition, rfl, hstuck⟩ := ha.parked i h _ _ _ hi
          exact .stuck hstuck
    · rw [run_goOn_due hall hdue]
      have hp := Agenda.entries_popDue hdue
      have hslots : (slots due rest parked).Perm (slots [] agenda parked) := by
        have h := (hp.filterMap Turn.lane?).append_right parked
        simpa [slots] using h
      obtain ⟨hs', hstill⟩ := hI.clock time hs
      refine (ih _ _ _ hdue _ hs' ⟨ha.settled, hslots.nodup_iff.2 ha.once, fun i t hi => ?_,
        fun i hi u abandon next hu => ?_, fun i hi u abandon next hu => ?_,
        fun i hi u abandon next hu => ?_⟩).mono fun late hl => ?_
      · rw [hslots.mem_iff]
        exact ha.entered i t hi
      · exact hI.timed (ha.agenda i (hp.mem_iff.1 (List.mem_append_left _ hi)) _ _ _ hu)
      · exact ha.agenda i (hp.mem_iff.1 (List.mem_append_right _ hi)) _ _ _ hu
      · obtain ⟨condition, rfl, hstuck⟩ := ha.parked i hi _ _ _ hu
        exact ⟨condition, rfl, hstill _ _ _ (List.mem_of_getElem? hu) hstuck⟩
      · exact .inr (hp.mem_iff.1 (List.mem_append.2 hl))
  | deadline lanes late line agenda parked =>
    rw [run_goOn_deadline]
    exact ⟨lanes, s, hs, .inr ⟨late, .inl (List.mem_cons_self ..), rfl⟩⟩
  | turn lanes i line agenda parked u abandon next h ih =>
    have hr := settled_advance next s
    obtain ⟨hs', hfree⟩ := hI.turn hs h (ha.line i (List.mem_cons_self ..) _ _ _ h)
    have he := entered_place hI.toTelling hr (next.advance s).1 agenda i
    rw [run_goOn_lane h]
    simp only [List.partition_eq_filter_filter]
    refine (ih s _ _ _ _ hs' (ha.turn hI.toTelling hr hfree ?_ ?_ ?_ he)).mono fun late => he.pending
    · exact List.filter_append_perm _ _
    · exact fun j hj => (List.mem_filter.1 hj).2
    · exact fun j hj => by simpa using (List.mem_filter.1 hj).2
  | past lanes i line agenda parked h ih =>
    rw [run_goOn_past h]
    have honce : (i :: slots line agenda parked).Nodup := ha.once
    refine (ih s hs ⟨ha.settled, (List.nodup_cons.1 honce).2, fun j t hj => ?_,
      fun j hj => ha.line j (List.mem_cons_of_mem _ hj), ha.agenda, ha.parked⟩).mono
        fun late hl => hl.imp_left fun h' => List.mem_cons_of_mem _ h'
    rcases ha.entered j t hj with h' | h'
    · exact .inl h'
    · have h' : j ∈ i :: slots line agenda parked := h'
      rcases List.mem_cons.1 h' with rfl | h'
      · -- the lane neither waits nor is it read or written on, so it has ended
        cases ha.settled t (List.mem_of_getElem? hj) with
        | done => exact .inl rfl
        | wait => exact absurd hj (h _ _ _)
      · exact .inr h'

/-- **What turns and the clock keep holds in the end of lanes that start side by side.** -/
theorem run_sideBySide {I : List (Lane σ) → σ → Prop} (hI : Kept free stuck I)
    (d : Option (Deadline ε)) (lanes : List (Lane σ)) (s : σ)
    (hs : I (lanes.map fun t => .wait (.holds fun _ => true) id t) s) :
    ∃ lanes' s', I lanes' s' ∧
      ((∀ t ∈ lanes', Still stuck s' t) ∧ (sideBySide d lanes).run s = (.ok (), s') ∨
        ∃ due ∈ d, (sideBySide d lanes).run s = (.error due.late, abandonAll lanes' s')) := by
  let line : List (Turn ε) := (List.range lanes.length).map .lane
  have hline : ∀ late, Turn.deadline late ∉ line := by simp [line]
  -- nobody but the deadline, if there is one, is in the agenda
  have ha : ∀ agenda : Agenda (Turn ε), agenda.entries.filterMap Turn.lane? = [] →
      Accounted free stuck (lanes.map fun t => .wait (.holds fun _ => true) id t) line agenda []
        s := by
    intro agenda hagenda
    have hslots : slots line agenda [] = List.range lanes.length := by
      rw [slots, hagenda, Turn.filterMap_lane?]
      simp
    refine ⟨fun t ht => ?_, hslots ▸ List.nodup_range, fun i t hi => .inr ?_,
      fun i _ u abandon next hu => ?_, fun i hi => ?_, nofun⟩
    · obtain ⟨t, -, rfl⟩ := List.mem_map.1 ht
      exact .wait
    · obtain ⟨hi, -⟩ := List.getElem?_eq_some_iff.1 hi
      rw [List.length_map] at hi
      rw [hslots]
      exact List.mem_range.2 hi
    · obtain ⟨t, -, ht⟩ := List.mem_map.1 (List.mem_of_getElem? hu)
      cases ht
      exact hI.holds rfl
    · have hnone : i ∈ agenda.entries.filterMap Turn.lane? :=
        List.mem_filterMap.2 ⟨_, hi, rfl⟩
      rw [hagenda] at hnone
      cases hnone
  cases d with
  | none =>
    obtain ⟨lanes', s', hi, h | ⟨late, hl, -⟩⟩ := run_goOn hI _ line .empty [] s hs (ha _ rfl)
    · exact ⟨lanes', s', hi, .inl h⟩
    · rcases hl with hl | hl
      · exact absurd hl (hline late)
      · cases hl
  | some due =>
    have hentries : ((Agenda.empty : Agenda (Turn ε)).push due.time (.deadline due.late)).entries =
        [.deadline due.late] :=
      List.perm_singleton.1 (Agenda.empty.entries_push due.time (Turn.deadline due.late))
    obtain ⟨lanes', s', hi, h | ⟨late, hl, h⟩⟩ := run_goOn hI _ line
      (Agenda.empty.push due.time (.deadline due.late)) [] s hs (ha _ (by rw [hentries]; rfl))
    · exact ⟨lanes', s', hi, .inl h⟩
    · rcases hl with hl | hl
      · exact absurd hl (hline late)
      · rw [hentries, List.mem_singleton] at hl
        cases hl
        exact ⟨lanes', s', hi, .inr ⟨due, rfl, h⟩⟩

end Task

end VectorStore
