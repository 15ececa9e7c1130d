/-
  Writers that get along.

  A `Conduct` has rules for the writers of chunks, what a writer holds when its chunk is begun and
  when it has ended, and an invariant of the state, of the history and of what all writers hold.

  * `Conduct.protocol`: then workers have a protocol, in which one that writes no chunk holds
    nothing; `worker_obeys`: they obey it if writers obey the rules;
  * `run_writeAll_conducted`: so every chunk that is begun ends, whatever writers wait for, and the
    invariant holds then;
  * `Call.run_conducted` states this of a call.
-/
import Mathlib.Data.Multiset.Filter
import VectorStore.Proofs.Batch.Calls
import VectorStore.Proofs.Task.Protocol

namespace VectorStore.Batch

variable {σ ε α ρ G : Type} [Clocked σ]

/-- How the writers of chunks get along. -/
structure Conduct (σ ε α ρ G : Type) [Clocked σ] extends Task.Rules σ G where
  /-- what the writer of a chunk holds at first -/
  begins : Chunk α → G
  /-- the writer of a chunk may end so, with what it holds -/
  ends : Chunk α → Except ε ρ → σ → G → Prop
  inv : σ → History α (Except ε ρ) → Multiset G → Prop
  keeps {s g s' g' h others} : step s g s' g' → inv s h (g ::ₘ others) →
    inv s' h (g' ::ₘ others) ∧ ∀ o ∈ others, ready s o → ready s' o
  began {s h m} (c : Chunk α) : inv s h m → inv s (h ++ [.began c]) (begins c ::ₘ m)
  ended {s g h c r others} : ends c r s g → inv s h (g ::ₘ others) →
    inv s (h ++ [.ended c r]) others
  clock {s h m} (time : Time) : inv s h m →
    inv (Clocked.atTime time s) h m ∧ ∀ g, ready (Clocked.atTime time s) g → ready s g
  /-- somebody may always go on -/
  progress {s h m} : inv s h m → (∀ g ∈ m, ¬ready s g) → m = 0

namespace Conduct

variable (K : Conduct σ ε α ρ G)

/-- What workers hold that write a chunk: the chunk, and what its writer holds. -/
def busy (m : Multiset (Option (Chunk α × G))) : Multiset (Chunk α × G) := m.filterMap id

@[simp] theorem busy_none (m : Multiset (Option (Chunk α × G))) : busy (none ::ₘ m) = busy m :=
  Multiset.filterMap_cons_none _ _ rfl

@[simp] theorem busy_some (x : Chunk α × G) (m : Multiset (Option (Chunk α × G))) :
    busy (some x ::ₘ m) = x ::ₘ busy m :=
  Multiset.filterMap_cons_some id _ _ rfl

theorem mem_busy {m : Multiset (Option (Chunk α × G))} {x : Chunk α × G} :
    x ∈ busy m ↔ some x ∈ m := by
  simp [busy]

/-- What a worker may do to the state and the history: what the writer of its chunk may do, begin a
    chunk, and end it. -/
inductive Moves : σ × History α (Except ε ρ) → Option (Chunk α × G) →
    σ × History α (Except ε ρ) → Option (Chunk α × G) → Prop
  | stays (p x) : Moves p x p x
  | writes {s g s' g' h c} : K.step s g s' g' → Moves (s, h) (some (c, g)) (s', h) (some (c, g'))
  | begins (s h c) : Moves (s, h) none (s, h ++ [.began c]) (some (c, K.begins c))
  | ends {s g h c r} : K.ends c r s g → Moves (s, h) (some (c, g)) (s, h ++ [.ended c r]) none

/-- A worker may go on unless its writer may not. -/
def Goes (p : σ × History α (Except ε ρ)) (x : Option (Chunk α × G)) : Prop :=
  ∀ c g, x = some (c, g) → K.ready p.1 g

/-- Every chunk that was begun has ended or has a worker, and the invariant holds. -/
structure Holds (p : σ × History α (Except ε ρ)) (m : Multiset (Option (Chunk α × G))) : Prop where
  begun : (p.2.begun : Multiset (Chunk α)) =
    (p.2.endings.map (·.1) : List (Chunk α)) + (busy m).map (·.1)
  inv : K.inv p.1 p.2 ((busy m).map (·.2))

variable {K} in
theorem Moves.keeps {p p' : σ × History α (Except ε ρ)} {x x' : Option (Chunk α × G)}
    {others : Multiset (Option (Chunk α × G))} (h : K.Moves p x p' x')
    (hp : K.Holds p (x ::ₘ others)) :
    K.Holds p' (x' ::ₘ others) ∧ ∀ o ∈ others, K.Goes p o → K.Goes p' o := by
  obtain ⟨hbegun, hinv⟩ := hp
  cases h with
  | stays => exact ⟨⟨hbegun, hinv⟩, fun _ _ h => h⟩
  | writes hstep =>
    simp only [busy_some, Multiset.map_cons] at hbegun hinv
    obtain ⟨hinv', hothers⟩ := K.keeps hstep hinv
    refine ⟨⟨by simpa using hbegun, by simpa using hinv'⟩, fun o ho hr c g hx => ?_⟩
    subst hx
    exact hothers g (Multiset.mem_map_of_mem _ (mem_busy.2 ho)) (hr c g rfl)
  | begins s h c =>
    simp only [busy_none] at hbegun hinv
    refine ⟨⟨?_, by simpa using K.began c hinv⟩, fun _ _ h => h⟩
    simp only [busy_some, Multiset.map_cons, History.begun_append_began,
      History.endings_append_began, Multiset.add_cons, ← hbegun]
    exact Multiset.coe_eq_coe.2 (List.perm_append_singleton _ _)
  | ends hends =>
    simp only [busy_some, Multiset.map_cons] at hbegun hinv
    refine ⟨⟨?_, by simpa using K.ended hends hinv⟩, fun _ _ h => h⟩
    simp only [busy_none, History.begun_append_ended, History.endings_append_ended, hbegun,
      List.map_append, List.map_singleton, ← Multiset.coe_add, Multiset.coe_singleton,
      Multiset.add_assoc, Multiset.singleton_add]

theorem Holds.progress {p : σ × History α (Except ε ρ)} {m : Multiset (Option (Chunk α × G))}
    (hp : K.Holds p m) (hm : ∀ x ∈ m, x = none ∨ ¬K.Goes p x) : ∀ x ∈ m, K.Goes p x := by
  have hnone := K.progress hp.inv fun g hg hr => by
    obtain ⟨⟨c, g⟩, hx, rfl⟩ := Multiset.mem_map.1 hg
    rcases hm _ (mem_busy.1 hx) with h | h
    · cases h
    · exact h fun c' g' h' => by
        cases h'
        exact hr
  rintro x hx c g rfl
  have hmem := Multiset.mem_map_of_mem Prod.snd (mem_busy.2 hx)
  rw [hnone] at hmem
  exact absurd hmem (Multiset.notMem_zero _)

/-- The protocol of the workers, to which the dispatch does not matter. -/
def protocol : Task.Protocol (Noted σ ε α ρ) (Option (Chunk α × G)) where
  step p x p' x' := K.Moves p.1 x p'.1 x'
  ready p x := K.Goes p.1 x
  inv p m := K.Holds p.1 m
  rests x := x = none
  keeps := Moves.keeps
  clock time hp := by
    obtain ⟨hinv, hready⟩ := K.clock time hp.inv
    exact ⟨⟨hp.begun, hinv⟩, fun x hx c g h => hready g (hx c g h)⟩
  progress := Holds.progress K

end Conduct

variable {K : Conduct σ ε α ρ G} {write : Chunk α → Task σ ε ρ} {halts : ε → Bool}

/-- A pause in which a worker holds nothing. -/
def Pauses (K : Conduct σ ε α ρ G) (pause : Task (Noted σ ε α ρ) Empty Unit) : Prop :=
  ∀ (post : Noted σ ε α ρ → Option (Chunk α × G) → Except Empty Unit → Prop),
    (∀ p, post p none (.ok ())) → ∀ p, pause.Obeys K.protocol.toRules post p none

theorem pauses_ret : Pauses K (.ret ()) := fun _ h p => h p

theorem pauses_turn : Pauses K .turn := fun _ h _ =>
  ⟨fun _ => iff_of_true (Until.open_holds.2 rfl) nofun, fun p _ => ⟨none, .stays p.1 none, h p⟩⟩

/-- What is noted of a writer is what a worker may do. -/
theorem noting_obeys {c : Chunk α}
    (hw : ∀ s, (write c).Obeys K.toRules (fun s g r => K.ends c r s g) s (K.begins c))
    (p : Noted σ ε α ρ) : (noting c (write c)).onFirst.Obeys K.protocol.toRules
      (fun _ x _ => x = none) p (some (c, K.begins c)) := by
  let rules : Task.Rules (σ × History α (Except ε ρ)) (Option (Chunk α × G)) := ⟨K.Moves, K.Goes⟩
  have hnoting : (noting c (write c)).Obeys rules (fun _ x _ => x = none) p.1
      (some (c, K.begins c)) := by
    let hold (g : G) : Option (Chunk α × G) := some (c, g)
    have hready (q : σ × History α (Except ε ρ)) (g : G) :
        rules.ready q (hold g) ↔ K.ready q.1 g := by
      refine ⟨fun h => h c g rfl, fun h c' g' hx => ?_⟩
      cases hx
      exact h
    have hwrite : (write c).onFirst.Obeys rules
        (fun q x r => ∃ g, x = some (c, g) ∧ K.ends c r q.1 g) p.1 (some (c, K.begins c)) :=
      Task.Obeys.zoom Task.part_fst (fun _ _ _ _ h => Conduct.Moves.writes h) hready
        (fun q g r h => ⟨g, rfl, h⟩) (hw p.1.1)
    refine Task.Obeys.andThen (Task.Obeys.attempt (hwrite.mono ?_))
    rintro q x r ⟨g, rfl, hends⟩
    exact ⟨none, .ends hends, rfl⟩
  let hold (x : Option (Chunk α × G)) := x
  have hready (q : Noted σ ε α ρ) x : K.protocol.ready q (hold x) ↔ rules.ready q.1 x := Iff.rfl
  exact Task.Obeys.zoom Task.part_fst (fun _ _ _ _ h => h) hready (fun _ _ _ h => h) hnoting

variable (halts) in
/-- **Workers obey the protocol if their writers obey the rules.** -/
theorem worker_obeys
    (hw : ∀ c s, (write c).Obeys K.toRules (fun s g r => K.ends c r s g) s (K.begins c))
    {pause : Task (Noted σ ε α ρ) Empty Unit} (hpause : Pauses K pause) (most : Nat)
    (p : Noted σ ε α ρ) : (worker (noted write) halts pause most).Obeys K.protocol.toRules
      (fun _ x _ => x = none) p none := by
  induction most generalizing p with
  | zero => rfl
  | succ most ih =>
    rw [worker_succ, Task.Obeys]
    rcases p.2.next? with _ | ⟨c, d⟩
    · rfl
    refine ⟨none, .stays p.1 none, some (c, K.begins c), .begins p.1.1 p.1.2 c, ?_⟩
    refine Task.Obeys.andThen (Task.Obeys.attempt ((noting_obeys (hw c) _).mono ?_))
    rintro q x outcome rfl
    refine ⟨none, .stays q.1 none, Task.Obeys.andThen (hpause _ (fun q => ?_) _)⟩
    exact ih q

variable (halts) in
/-- **However many writers obey the rules, every chunk that is begun ends.** -/
theorem run_writeAll_conducted
    (hw : ∀ c s, (write c).Obeys K.toRules (fun s g r => K.ends c r s g) s (K.begins c))
    (limit : Nat) (cs : List (Chunk α)) (s : σ) (hinv : K.inv s [] 0) :
    ∃ d s' h, (writeAll limit none (noted write) halts cs).run (s, []) = (.ok d, s', h) ∧
      K.inv s' h 0 ∧ (h.begun : Multiset (Chunk α)) = (h.endings.map (·.1) : List (Chunk α)) := by
  have hstart (n : Nat) : K.protocol.inv ((s, []), Dispatch.start limit cs)
      (Multiset.replicate n none) := by
    have hbusy : Conduct.busy (Multiset.replicate n (none : Option (Chunk α × G))) = 0 := by
      induction n with
      | zero => rfl
      | succ n ih => rw [Multiset.replicate_succ, Conduct.busy_none, ih]
    refine ⟨?_, ?_⟩ <;> rw [hbusy]
    · rfl
    · exact hinv
  have hend {p : Noted σ ε α ρ} {m : Multiset (Option (Chunk α × G))} (hp : K.protocol.inv p m)
      (hm : ∀ x ∈ m, x = none) : K.inv p.1.1 p.1.2 0 ∧
        (p.1.2.begun : Multiset (Chunk α)) = (p.1.2.endings.map (·.1) : List (Chunk α)) := by
    have hbusy : Conduct.busy m = 0 := Multiset.eq_zero_of_forall_notMem fun x hx => by
      cases hm _ (Conduct.mem_busy.1 hx)
    obtain ⟨hbegun, hinv⟩ := hp
    rw [hbusy] at hbegun hinv
    exact ⟨hinv, by simpa using hbegun⟩
  rw [writeAll, Task.run_andThen, Task.run_withLocal]
  split_ifs with hone
  · obtain ⟨x, hp, rfl⟩ := (worker_obeys halts hw pauses_ret cs.length
      ((s, []), Dispatch.start limit cs)).run (hstart 1)
    generalize hr : (worker (noted write) halts (.ret ()) cs.length).run
      ((s, []), Dispatch.start limit cs) = r at hp
    obtain ⟨r, ⟨s', h⟩, d⟩ := r
    refine ⟨d, s', h, ?_, hend hp fun x hx => Multiset.mem_singleton.1 hx⟩
    rw [writeInOrder, Task.bounded, Task.run_certain, hr]
    rfl
  · obtain ⟨⟨⟨s', h⟩, d⟩, m, hrun, hp, hm⟩ := Task.run_sideBySide_obeying (ε := ε) K.protocol
      (List.replicate (min limit cs.length) (worker (noted write) halts .turn cs.length))
      ((s, []), Dispatch.start limit cs) (g := none) (fun _ _ _ hx => by cases hx)
      (fun p => .stays p.1 none)
      (fun t ht p => by
        obtain ⟨-, rfl⟩ := List.mem_replicate.1 ht
        exact worker_obeys halts hw pauses_turn cs.length p)
      (hstart _)
    refine ⟨d, s', h, ?_, hend hp hm⟩
    rw [writeSideBySide, hrun]
    rfl

/-! ## Calls -/

namespace Call

/-- **In a call whose writers obey the rules, every chunk that is begun ends**, and the invariant
    holds in the end. -/
theorem run_conducted {K : Conduct σ Failure α Reported G} (call : Call σ α)
    (hw : ∀ c s, (call.write c).Obeys K.toRules (fun s g r => K.ends c r s g) s (K.begins c))
    (hwarn : ∀ message s h, K.inv s h 0 → K.inv (call.warn message s) h 0)
    (hinv : K.inv call.state [] 0) :
    ∃ s, (upsert call.idOf call.write call.warn none call.records (.int call.size)
        (.int call.limit)).run call.state = (call.answer, s) ∧
      K.inv s call.history 0 ∧ call.history.inFlight = [] := by
  obtain ⟨d, s, h, hrun, hinv, hbegun⟩ := run_writeAll_conducted call.halts hw call.width
    call.chunks call.state hinv
  obtain ⟨r, s', hrec, hinv'⟩ : ∃ r s', call.recorded.run (call.state, []) = (r, s', h) ∧
      K.inv s' h 0 := by
    rw [recorded, upsert_eq, Task.run_andThen, hrun]
    dsimp only
    split
    · exact ⟨_, s, rfl, hinv⟩
    · split
      · exact ⟨_, s, rfl, hinv⟩
      · exact ⟨_, _, rfl, hwarn _ s h hinv⟩
  have hhistory : call.history = h := by rw [history, hrec]
  have hanswer : call.answer = r := by
    rw [answer, call.run_recorded [], hrec]
    rfl
  refine ⟨s', ?_, hhistory ▸ hinv', ?_⟩
  · rw [call.run_recorded [], hrec, hanswer]
    rfl
  · rw [hhistory, History.inFlight, List.filter_eq_nil_iff]
    intro c hc
    have hmem : c ∈ h.endings.map (·.1) := (Multiset.coe_eq_coe.1 hbegun).mem_iff.1 hc
    obtain ⟨e, he, rfl⟩ := List.mem_map.1 hmem
    simpa [History.hasEnded] using ⟨e.1, ⟨e.2, he⟩, rfl⟩

end Call

end VectorStore.Batch
