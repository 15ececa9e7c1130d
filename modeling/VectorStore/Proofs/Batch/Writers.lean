/-
  What workers do.

  * `run_worker`: a single worker takes the dispatch along a history until it is `Through`;
  * `Stage`: what each of several workers is at, side by side; `stage_turn`: its turns are
    events of the dispatch; `kept_manned`: so turns of any of them keep to a history;
  * `run_writeAll`: however many workers there are, what writers noted is a history of the
    dispatch; what is in flight in the end has a writer that is `Blocked`, and with nothing in
    flight the dispatch is through.
-/
import Mathlib.Data.List.Perm.Basic
import Mathlib.Data.List.ReduceOption
import VectorStore.Proofs.Batch.Noted
import VectorStore.Proofs.Task.Lanes

namespace VectorStore.Batch

open Dispatch (Follows start)

variable {σ ε α ρ : Type} {halts : ε → Bool}

/-! ## One worker -/

/-- Nothing is left to begin, or the write was stopped. -/
def Through (d : Dispatch α (Except ε ρ)) : Prop := d.pending = [] ∨ d.aborted = true

/-- The history leads the dispatch of the chunks to `d`, with writers that end as they may. -/
abbrev Leads (halts : ε → Bool) (limit : Nat) (cs : List (Chunk α))
    (write : Chunk α → Task σ ε ρ) :
    History α (Except ε ρ) → Dispatch α (Except ε ρ) → Prop :=
  Follows (stops halts) (fun c => (write c).MayEnd) (start limit cs)

variable {limit : Nat} {cs : List (Chunk α)}

/-- **A single worker takes the dispatch along a history until it is through.** -/
theorem run_worker [Clocked σ] (hlimit : 0 < limit) (write : Chunk α → Task σ ε ρ) (most : Nat)
    (s : σ) (h : History α (Except ε ρ)) (d : Dispatch α (Except ε ρ))
    (hf : Leads halts limit cs write h d) (hcs : (cs.map (·.index)).Nodup)
    (hd : d.flying = []) (hmost : d.pending.length ≤ most) :
    ∃ s' h' d', ((worker (noted write) halts (.ret ()) most).run ((s, h), d)).2 = ((s', h'), d') ∧
      Leads halts limit cs write h' d' ∧ d'.flying = [] ∧ Through d' := by
  induction most generalizing s h d with
  | zero => exact ⟨s, h, d, rfl, hf, hd, .inl (List.length_eq_zero_iff.1 (by omega))⟩
  | succ most ih =>
    rw [worker_succ, Task.run]
    rcases hn : d.next? with _ | ⟨c, d'⟩
    · refine ⟨s, h, d, rfl, hf, hd, ?_⟩
      rcases Dispatch.next?_eq_none hn with hp | ha | hl
      · exact .inl hp
      · exact .inr ha
      · rw [(hf.consistent hcs).limit_eq, hd, List.length_nil] at hl
        omega
    · obtain ⟨hp, -, -, he⟩ := Dispatch.next?_eq_some hn
      have hc : d'.flying = [c] := by rw [he, hd]; rfl
      have hbegan := hf.began hn
      have hended := hbegan.ended (hc ▸ List.mem_singleton_self c) ((write c).mayEnd_run s)
      have hp' : d'.pending.length ≤ most := by
        rw [hp, List.length_cons] at hmost
        omega
      have hd' : ∀ r halt, (d'.finish c r halt).flying = [] := by simp [Dispatch.finish, hc]
      rw [Task.run, run_noted, run_writing]
      exact ih _ _ _ hended (hd' _ _) hp'

/-! ## Workers side by side -/

variable (halts) in
/-- What a worker is at, and the chunk that it is writing: it waits for its turn, it waits in the
    writer of a chunk, or it has ended because the dispatch was through. -/
inductive Stage (write : Chunk α → Task σ ε ρ) (d : Dispatch α (Except ε ρ)) :
    Task.Lane (Noted σ ε α ρ) → Option (Chunk α) → Prop
  | waiting {most} : d.pending.length ≤ most →
      Stage write d (.wait (.holds fun _ => true) id (worker (noted write) halts .turn most)) none
  | writing {most c u abandon next} : d.pending.length ≤ most →
      (write c).Remainder (.wait u abandon next) →
      Stage write d
        (writing halts c (Task.turn.andThen fun _ => worker (noted write) halts .turn most)
          (.wait u abandon next)) (some c)
  | ended : Through d → Stage write d (.done (.ok ())) none

/-- The dispatch is further on. -/
structure Further (d d' : Dispatch α (Except ε ρ)) : Prop where
  pending_le : d'.pending.length ≤ d.pending.length
  aborted : d.aborted = true → d'.aborted = true

theorem Further.trans {d d' d'' : Dispatch α (Except ε ρ)} (h : Further d d')
    (h' : Further d' d'') : Further d d'' :=
  ⟨Nat.le_trans h'.pending_le h.pending_le, fun ha => h'.aborted (h.aborted ha)⟩

theorem Further.through {d d' : Dispatch α (Except ε ρ)} (hd : Further d d') (h : Through d) :
    Through d' := by
  rcases h with h | h
  · have hle := hd.pending_le
    rw [h] at hle
    exact .inl (List.length_eq_zero_iff.1 (by simpa using hle))
  · exact .inr (hd.aborted h)

variable {write : Chunk α → Task σ ε ρ}

theorem Stage.further {d d' : Dispatch α (Except ε ρ)} {t : Task.Lane (Noted σ ε α ρ)}
    {held : Option (Chunk α)} (h : Stage halts write d t held) (hd : Further d d') :
    Stage halts write d' t held := by
  have hle := hd.pending_le
  cases h with
  | waiting hp => exact .waiting (by omega)
  | writing hp hr => exact .writing (by omega) hr
  | ended ht => exact .ended (hd.through ht)

/-- A turn in the writer of a chunk: it goes on waiting, or the chunk has ended. -/
theorem stage_writing {most : Nat} {c : Chunk α} {t : Task σ ε ρ} {s : σ}
    {h : History α (Except ε ρ)} {d : Dispatch α (Except ε ρ)}
    (hf : Leads halts limit cs write h d) (hc : c ∈ d.flying)
    (hmost : d.pending.length ≤ most) (hr : (write c).Remainder (t.advance s).2) :
    ∃ s' h' d' rest held, (writing halts c
        (Task.turn.andThen fun _ => worker (noted write) halts .turn most) t).advance ((s, h), d) =
          (((s', h'), d'), rest) ∧
      Leads halts limit cs write h' d' ∧ Stage halts write d' rest held ∧ Further d d' ∧
      (held = some c ∧ d' = d ∨ held = none ∧ ∃ r, d' = d.finish c r (stops halts r)) := by
  have hset := Task.settled_advance t s
  rw [advance_writing]
  generalize (t.advance s).1 = s', (t.advance s).2 = t' at *
  cases hset with
  | @done r =>
    rw [advance_writing_done]
    have hfurther : Further d (d.finish c r (stops halts r)) :=
      ⟨Nat.le_refl _, fun ha => by simp [Dispatch.finish, ha]⟩
    exact ⟨_, _, _, _, none, rfl, hf.ended hc hr, .waiting hmost, hfurther, .inr ⟨rfl, r, rfl⟩⟩
  | wait =>
    exact ⟨_, _, _, _, some c, rfl, hf, .writing hmost hr, ⟨Nat.le_refl _, id⟩, .inl ⟨rfl, rfl⟩⟩

theorem flying_finish_perm {h : History α (Except ε ρ)} {d : Dispatch α (Except ε ρ)} {c : Chunk α}
    {others : List (Chunk α)} (hd : Dispatch.Consistent (stops halts) limit cs h d)
    (hcs : (cs.map (·.index)).Nodup) (hp : d.flying.Perm (c :: others)) (r : Except ε ρ)
    (halt : Bool) : (d.finish c r halt).flying.Perm others := by
  have hnodup := (hp.map (·.index)).nodup_iff.1 (hd.nodup_flying hcs)
  rw [List.map_cons, List.nodup_cons] at hnodup
  have hothers : others.filter (·.index ≠ c.index) = others := by
    refine List.filter_eq_self.2 fun e he => ?_
    have hne : e.index ≠ c.index := fun hi => hnodup.1 (hi ▸ List.mem_map_of_mem he)
    simpa using hne
  have hfilter := hp.filter (·.index ≠ c.index)
  rw [List.filter_cons_of_neg (by simp), hothers] at hfilter
  exact hfilter

/-- Whether the chunk goes on being written or has ended, the `others` are in flight besides. -/
theorem flying_of_held {h : History α (Except ε ρ)} {d d' : Dispatch α (Except ε ρ)} {c : Chunk α}
    {held : Option (Chunk α)} {others : List (Chunk α)}
    (hd : Dispatch.Consistent (stops halts) limit cs h d) (hcs : (cs.map (·.index)).Nodup)
    (hp : d.flying.Perm (c :: others))
    (hheld : held = some c ∧ d' = d ∨ held = none ∧ ∃ r, d' = d.finish c r (stops halts r)) :
    d'.flying.Perm (held.toList ++ others) := by
  rcases hheld with ⟨rfl, rfl⟩ | ⟨rfl, r, rfl⟩
  · exact hp
  · exact flying_finish_perm hd hcs hp r _

/-- **A turn of a worker is a history of the dispatch.**  Whatever `others` are being written,
    the chunk that this worker is writing is in flight besides them. -/
theorem stage_turn {s : σ} {h : History α (Except ε ρ)} {d : Dispatch α (Except ε ρ)}
    {t next : Task.Lane (Noted σ ε α ρ)} {u : Until (Noted σ ε α ρ)}
    {abandon : Noted σ ε α ρ → Noted σ ε α ρ} {held : Option (Chunk α)} {others : List (Chunk α)}
    (hs : Stage halts write d t held) (ht : t = .wait u abandon next)
    (hf : Leads halts limit cs write h d) (hcs : (cs.map (·.index)).Nodup)
    (hp : d.flying.Perm (held.toList ++ others)) (hl : held = none → others.length < limit) :
    ∃ s' h' d' rest held', next.advance ((s, h), d) = (((s', h'), d'), rest) ∧
      Leads halts limit cs write h' d' ∧ Stage halts write d' rest held' ∧
      Further d d' ∧ d'.flying.Perm (held'.toList ++ others) := by
  have hd := hf.consistent hcs
  cases hs with
  | ended => cases ht
  | @waiting most hmost =>
    cases ht
    cases most with
    | zero =>
      have hnil : d.pending = [] := List.length_eq_zero_iff.1 (by omega)
      exact ⟨s, h, d, _, none, rfl, hf, .ended (.inl hnil), ⟨Nat.le_refl _, id⟩, hp⟩
    | succ most =>
      rw [worker_succ, Task.advance]
      rcases hn : d.next? with _ | ⟨c, d'⟩
      · refine ⟨s, h, d, _, none, rfl, hf, .ended ?_, ⟨Nat.le_refl _, id⟩, hp⟩
        rcases Dispatch.next?_eq_none hn with hnil | ha | hlimit
        · exact .inl hnil
        · exact .inr ha
        · rw [hd.limit_eq, hp.length_eq] at hlimit
          exact absurd (hl rfl) (by simpa using hlimit)
      · obtain ⟨hpend, -, -, he⟩ := Dispatch.next?_eq_some hn
        have hfly : d'.flying = d.flying ++ [c] := by rw [he]
        have hp' : d'.flying.Perm (c :: others) := by
          rw [hfly]
          exact (List.perm_append_singleton c d.flying).trans (hp.cons c)
        have hmost' : d'.pending.length ≤ most := by
          rw [hpend, List.length_cons] at hmost
          omega
        have hfurther : Further d d' := by
          refine ⟨by rw [hpend]; exact Nat.le_succ _, fun ha => ?_⟩
          rw [he]
          exact ha
        have hbegan := hf.began hn
        have hc : c ∈ d'.flying := by rw [hfly]; simp
        rw [Task.advance, advance_noted]
        obtain ⟨s', h', d'', rest, held', hadv, hf', hstage, hfur, hheld⟩ :=
          stage_writing hbegan hc hmost' (.first s : (write c).Remainder _)
        refine ⟨s', h', d'', rest, held', hadv, hf', hstage, hfurther.trans hfur, ?_⟩
        exact flying_of_held (hbegan.consistent hcs) hcs hp' hheld
  | @writing most c u' abandon' next' hmost hr =>
    have hc : c ∈ d.flying := hp.mem_iff.2 (by simp)
    injection ht with hu ha hnext
    rw [← hnext]
    obtain ⟨s', h', d', rest, held', hadv, hf', hstage, hfur, hheld⟩ :=
      stage_writing hf hc hmost (.next s hr : (write c).Remainder _)
    exact ⟨s', h', d', rest, held', hadv, hf', hstage, hfur, flying_of_held hd hcs hp hheld⟩

/-! ## All workers -/

/-- What is held in one place, and what is held besides. -/
theorem reduceOption_perm {held : List (Option (Chunk α))} {i : Nat} {x : Option (Chunk α)}
    (hi : held[i]? = some x) :
    held.reduceOption.Perm (x.toList ++ (held.eraseIdx i).reduceOption) ∧
      ∀ y, (held.set i y).reduceOption.Perm (y.toList ++ (held.eraseIdx i).reduceOption) := by
  have hcons : ∀ (y : Option (Chunk α)) (l : List (Option (Chunk α))),
      (y :: l).reduceOption = y.toList ++ l.reduceOption := fun y l => by
    rw [← List.singleton_append, List.reduceOption_append, List.reduceOption_singleton]
  obtain ⟨hlt, rfl⟩ := List.getElem?_eq_some_iff.1 hi
  refine ⟨?_, fun y => ?_⟩
  · rw [← hcons]
    exact ((List.getElem_cons_eraseIdx_perm hlt).filterMap id).symm
  · rw [← hcons]
    exact (List.set_perm_cons_eraseIdx hlt y).filterMap id

variable (halts write limit cs) in
/-- Each of at most `limit` workers is at some stage, together they write what is in flight, and
    what was noted is a history of the dispatch. -/
structure Manned (lanes : List (Task.Lane (Noted σ ε α ρ))) (p : Noted σ ε α ρ) : Prop where
  follows : Leads halts limit cs write p.1.2 p.2
  number : lanes.length = min limit cs.length
  held : ∃ held : List (Option (Chunk α)), held.length = lanes.length ∧
    held.reduceOption.Perm p.2.flying ∧
    ∀ (i : Nat) t x, lanes[i]? = some t → held[i]? = some x → Stage halts write p.2 t x

/-- What a worker waits for does not hold in some state. -/
def Lacking (_ : Noted σ ε α ρ) (condition : Noted σ ε α ρ → Bool) : Prop :=
  ∃ p, condition p = false

/-- Turns of the workers and the clock keep this. -/
theorem kept_manned [Clocked σ] (hcs : (cs.map (·.index)).Nodup) :
    Task.Kept (fun _ _ => True) Lacking (Manned halts limit cs write) where
  timed _ := trivial
  holds _ := trivial
  lacks h := ⟨_, h⟩
  turn {lanes p i u abandon next} hp hi _ := by
    obtain ⟨⟨s, h⟩, d⟩ := p
    obtain ⟨hf, hnum, held, hlen, hperm, hstage⟩ := hp
    obtain ⟨hlt, -⟩ := List.getElem?_eq_some_iff.1 hi
    have hx : held[i]? = some held[i] := List.getElem?_eq_getElem (hlen ▸ hlt)
    obtain ⟨hpi, hset⟩ := reduceOption_perm hx
    have hl : (held.eraseIdx i).reduceOption.length < limit := by
      have hle := (held.eraseIdx i).reduceOption_length_le
      rw [List.length_eraseIdx_of_lt (hlen ▸ hlt)] at hle
      omega
    obtain ⟨s', h', d', rest, held', hadv, hf', hstage', hfur, hperm'⟩ :=
      stage_turn (s := s) (hstage i _ _ hi hx) rfl hf hcs (hperm.symm.trans hpi) fun _ => hl
    rw [hadv]
    refine ⟨⟨hf', by simpa using hnum, held.set i held', by simpa using hlen,
      (hset held').trans hperm'.symm, fun j t x ht hx => ?_⟩, fun _ _ _ _ _ _ _ => trivial⟩
    by_cases hij : i = j
    · subst hij
      rw [List.getElem?_set_self hlt] at ht
      rw [List.getElem?_set_self (hlen ▸ hlt)] at hx
      cases ht
      cases hx
      exact hstage'
    · rw [List.getElem?_set_ne hij] at ht hx
      exact (hstage j t x ht hx).further hfur
  clock time hp := ⟨⟨hp.follows, hp.number, hp.held⟩, fun _ _ _ _ h => h⟩

/-- A writer that has come to wait for a state of things that does not hold in some state. -/
def Blocked (t : Task σ ε ρ) : Prop :=
  ∃ condition abandon next s, t.Remainder (.wait (.holds condition) abandon next) ∧
    condition s = false

/-- A worker is stuck in the writer of a chunk only if that writer is blocked. -/
theorem blocked_of_still {t : Task σ ε ρ} {c : Chunk α} {rest : Task (Noted σ ε α ρ) Empty Unit}
    {u : Until σ} {abandon : σ → σ} {next : Task σ ε ρ} {p : Noted σ ε α ρ}
    (hr : t.Remainder (.wait u abandon next))
    (h : Task.Still Lacking p (writing halts c rest (.wait u abandon next))) : Blocked t := by
  generalize he : writing halts c rest (.wait u abandon next) = lane at h
  cases h with
  | ended => cases he
  | stuck hc =>
    obtain ⟨p, hc⟩ := hc
    injection he with hu
    cases u with
    | holds condition =>
      cases hu
      exact ⟨condition, abandon, next, p.1.1, hr, hc⟩
    | passed => cases hu
    | reached => cases hu

/-- A worker that goes no further has ended, or is in the writer of a chunk that is blocked. -/
theorem Stage.stop {p : Noted σ ε α ρ} {t : Task.Lane (Noted σ ε α ρ)} {held : Option (Chunk α)}
    (h : Stage halts write p.2 t held) (ht : Task.Still Lacking p t) :
    held = none ∧ Through p.2 ∨ ∃ c, held = some c ∧ Blocked (write c) := by
  cases h with
  | waiting =>
    cases ht with
    | stuck hc =>
      obtain ⟨_, hc⟩ := hc
      cases hc
  | writing _ hr => exact .inr ⟨_, rfl, blocked_of_still hr ht⟩
  | ended h => exact .inl ⟨rfl, h⟩

/-- A writer that waits for nothing but time is not blocked. -/
theorem not_blocked_of_timed {t : Task σ ε ρ} (h : t.Timed) : ¬Blocked t := by
  rintro ⟨condition, abandon, next, s, hr, -⟩
  exact (h.remainder hr).1 condition rfl

/-- Where every worker has ended or is stuck, what is in flight has a blocked writer; with
    nothing in flight the dispatch is through. -/
theorem Manned.stop {lanes : List (Task.Lane (Noted σ ε α ρ))} {p : Noted σ ε α ρ}
    (hp : Manned halts limit cs write lanes p) (hlimit : 0 < limit)
    (hcs : (cs.map (·.index)).Nodup) (hall : ∀ t ∈ lanes, Task.Still Lacking p t) :
    (∀ c ∈ p.2.flying, Blocked (write c)) ∧ (p.2.flying = [] → Through p.2) := by
  obtain ⟨hf, hnum, held, hlen, hperm, hstage⟩ := hp
  have hstop : ∀ i (hi : i < held.length), ∃ t, Stage halts write p.2 t held[i] ∧
      Task.Still Lacking p t := fun i hi =>
    have hlt : i < lanes.length := hlen ▸ hi
    ⟨lanes[i], hstage i _ _ (List.getElem?_eq_getElem hlt) (List.getElem?_eq_getElem hi),
      hall _ (List.getElem_mem hlt)⟩
  refine ⟨fun c hc => ?_, fun hnil => ?_⟩
  · rw [← hperm.mem_iff, List.reduceOption_mem_iff] at hc
    obtain ⟨i, hi, hx⟩ := List.getElem_of_mem hc
    obtain ⟨t, hs, ht⟩ := hstop i hi
    rcases hs.stop ht with ⟨hn, -⟩ | ⟨c', hc', hb⟩
    · rw [hx] at hn
      cases hn
    · rw [hx] at hc'
      cases hc'
      exact hb
  · by_cases hzero : cs = []
    · have hp := (hf.consistent hcs).begun_pending
      rw [hzero, List.append_eq_nil_iff] at hp
      exact .inl hp.2
    · have hpos := List.length_pos_iff.2 hzero
      have hi : 0 < held.length := by omega
      obtain ⟨t, hs, ht⟩ := hstop 0 hi
      rcases hs.stop ht with ⟨-, hd⟩ | ⟨c, hx, -⟩
      · exact hd
      · have hc := List.reduceOption_mem_iff.2 (hx ▸ List.getElem_mem hi)
        rw [hperm.mem_iff, hnil] at hc
        cases hc

/-- **What writers note is a history of the dispatch.**  What is in flight in the end has a
    blocked writer, and with nothing in flight the dispatch is through. -/
theorem run_writeAll [Clocked σ] (hlimit : 0 < limit) (hcs : (cs.map (·.index)).Nodup) (s : σ) :
    ∃ s' h' d, (writeAll limit none (noted write) halts cs).run (s, []) = (.ok d, s', h') ∧
      Leads halts limit cs write h' d ∧ (∀ c ∈ d.flying, Blocked (write c)) ∧
      (d.flying = [] → Through d) := by
  rw [writeAll, Task.run_andThen, Task.run_withLocal]
  split_ifs with hone
  · obtain ⟨s', h', d, hrun, hf, hnil, hthrough⟩ :=
      run_worker hlimit write cs.length s [] (start limit cs) .nil hcs rfl (Nat.le_refl _)
    refine ⟨s', h', d, ?_, hf, by simp [hnil], fun _ => hthrough⟩
    rw [writeInOrder, Task.bounded, Task.run_certain, hrun]
    rfl
  · have hstart : Manned halts limit cs write
        ((List.replicate (min limit cs.length) (worker (noted write) halts .turn cs.length)).map
          fun t => .wait (.holds fun _ => true) id t) ((s, []), start limit cs) := by
      refine ⟨.nil, by simp, List.replicate (min limit cs.length) none, by simp, ?_, ?_⟩
      · rw [List.reduceOption_replicate_none]
        rfl
      · intro i t x ht hx
        rw [List.map_replicate] at ht
        obtain ⟨-, rfl⟩ := List.mem_replicate.1 (List.mem_of_getElem? ht)
        obtain ⟨-, rfl⟩ := List.mem_replicate.1 (List.mem_of_getElem? hx)
        exact .waiting (Nat.le_refl _)
    obtain ⟨lanes, ⟨⟨s', h'⟩, d⟩, hp, ⟨hall, hrun⟩ | ⟨due, hdue, -⟩⟩ :=
      Task.run_sideBySide (ε := ε) (kept_manned hcs) none _ ((s, []), start limit cs) hstart
    · obtain ⟨hblocked, hthrough⟩ := hp.stop hlimit hcs hall
      refine ⟨s', h', d, ?_, hp.follows, hblocked, hthrough⟩
      rw [writeSideBySide, hrun]
      rfl
    · cases hdue

end VectorStore.Batch
