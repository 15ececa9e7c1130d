/-
  A ledger of the calls that write.

  It is noted of a service when it is called to write records, and when a call fails (`Note`).
  For every chunk that is begun a call is due, until it is made or another one fails (`Debt`);
  a writer may have to pass a turnstile on its way.

  * `desk`: what the writer of a chunk may do: call once what is due, note a failure, and pass the
    turnstile;
  * `Balanced`: unless a call failed, what was called and what is due together are what the chunks
    that were begun stand for;
  * `ledger`: the conduct of writers that keeps this.
-/
import VectorStore.Proofs.Batch.Conduct
import VectorStore.Proofs.Task.Tickets
import VectorStore.Store.Record

namespace VectorStore

/-- What is noted of a service. -/
inductive Note (κ : Type) where
  | called (call : κ)
  | failed

/-- How far a writer is with the call that its chunk stands for. -/
inductive Debt (κ : Type) where
  | due (call : κ)
  | settled
  /-- something that was asked for has failed -/
  | failed

/-- The debt of a chunk that is begun. -/
def Debt.opened : Option κ → Debt κ
  | some call => .due call
  | none => .settled

/-- The note of a call that is due. -/
def Debt.note? : Debt κ → Option (Note κ)
  | .due call => some (.called call)
  | .settled | .failed => none

namespace Note

variable {κ α β : Type}

/-- What may be noted, and what becomes of the debt. -/
inductive Recorded : List (Note κ) → Debt κ → List (Note κ) → Debt κ → Prop
  | stays (notes a) : Recorded notes a notes a
  | calls (notes call) : Recorded notes (.due call) (notes ++ [.called call]) .settled
  | fails (notes a) : Recorded notes a (notes ++ [.failed]) .failed

theorem Recorded.failed {notes notes' : List (Note κ)} {a a' : Debt κ}
    (h : Recorded notes a notes' a') (hf : .failed ∈ notes) : .failed ∈ notes' := by
  cases h with
  | stays => exact hf
  | calls => exact List.mem_append_left _ hf
  | fails => exact List.mem_append_left _ hf

/-- The calls that are due. -/
def dues (m : Multiset (Debt κ)) : Multiset (Note κ) := m.filterMap Debt.note?

@[simp] theorem dues_settled (m : Multiset (Debt κ)) : dues (.settled ::ₘ m) = dues m :=
  Multiset.filterMap_cons_none _ _ rfl

@[simp] theorem dues_due (call : κ) (m : Multiset (Debt κ)) :
    dues (.due call ::ₘ m) = .called call ::ₘ dues m :=
  Multiset.filterMap_cons_some Debt.note? _ _ rfl

variable (call? : Batch.Chunk α → Option κ)

/-- The calls for which chunks stand. -/
def calls (cs : List (Batch.Chunk α)) : List (Note κ) := cs.filterMap fun c => (call? c).map .called

/-- What was called and what is due are what the chunks that were begun stand for, besides what was
    noted before; nothing has failed that was asked for, and no chunk that stands for a call. -/
structure Balanced (before notes : List (Note κ))
    (h : Batch.History α (Except Failure Batch.Reported)) (m : Multiset (Debt κ)) : Prop where
  notes_add : (notes : Multiset (Note κ)) + dues m = (before ++ calls call? h.begun : List (Note κ))
  sound : .failed ∉ m
  written : ∀ c r, .ended c r ∈ h → (call? c).isSome → r = .ok []

variable {call?} {before notes notes' : List (Note κ)}
  {h : Batch.History α (Except Failure Batch.Reported)} {a a' : Debt κ}
  {m : Multiset (Debt κ)}

/-- What may be noted keeps the balance, unless it is that a call failed. -/
theorem Recorded.balanced (hr : Recorded notes a notes' a')
    (hb : Balanced call? before notes h (a ::ₘ m)) :
    .failed ∈ notes' ∨ Balanced call? before notes' h (a' ::ₘ m) := by
  cases hr with
  | stays => exact .inr hb
  | calls call =>
    refine .inr ⟨?_, by simpa using hb.sound, hb.written⟩
    rw [← hb.notes_add, dues_settled, dues_due, ← Multiset.coe_add, Multiset.coe_singleton,
      Multiset.add_assoc, Multiset.singleton_add]
  | fails => exact .inl (List.mem_append_right _ (List.mem_singleton_self _))

theorem Balanced.began (hb : Balanced call? before notes h m) (c : Batch.Chunk α) :
    Balanced call? before notes (h ++ [.began c]) (.opened (call? c) ::ₘ m) := by
  have hadd := hb.notes_add
  refine ⟨?_, ?_, fun c' r hr => hb.written c' r (by simpa using hr)⟩
  · rw [Batch.History.begun_append_began]
    rcases hc : call? c with _ | call
    · simpa [calls, hc, Debt.opened] using hadd
    · rw [Debt.opened, dues_due, Multiset.add_cons, hadd]
      have hcalls : calls call? (h.begun ++ [c]) = calls call? h.begun ++ [.called call] := by
        simp [calls, hc]
      rw [hcalls, ← List.append_assoc]
      exact Multiset.coe_eq_coe.2 (List.perm_append_singleton _ _).symm
  · cases call? c <;> simpa [Debt.opened] using hb.sound

theorem Balanced.ended {c : Batch.Chunk α} {r : Except Failure Batch.Reported}
    (hb : Balanced call? before notes h (.settled ::ₘ m)) (hr : (call? c).isSome → r = .ok []) :
    Balanced call? before notes (h ++ [.ended c r]) m := by
  have hadd := hb.notes_add
  rw [dues_settled] at hadd
  refine ⟨by rw [hadd, Batch.History.begun_append_ended], by simpa using hb.sound,
    fun c' r' hr' => ?_⟩
  rcases List.mem_append.1 hr' with h' | h'
  · exact hb.written c' r' h'
  · cases List.mem_singleton.1 h'
    exact hr

end Note

/-! ## The conduct of writers -/

variable {κ β : Type}

/-- What a writer may do to a backend: note what may be noted, and pass the turnstile. -/
def desk (notes : β → List (Note κ)) (gate : β → Turnstile) : Task.Rules β (Debt κ × Ticket) where
  step b g b' g' := Note.Recorded (notes b) g.1 (notes b') g'.1 ∧
    Turnstile.Passed (gate b) g.2 (gate b') g'.2
  ready b g := (gate b).Lets g.2

/-- How the writer of a chunk may end that stands for a call: it is away from the turnstile, and
    unless something failed it has made its own call and reports nothing. -/
def Settles (own : Option κ) (g : Debt κ × Ticket) (r : Except Failure Batch.Reported) : Prop :=
  g.2 = .away ∧ (g.1 = .failed ∨ g.1 = .settled ∧ (own.isSome → r = .ok []))

/-- A writer that makes the call for which its chunk stands. -/
def Sends (notes : β → List (Note κ)) (gate : β → Turnstile) (own : Option κ)
    (t : Task β Failure Batch.Reported) : Prop :=
  ∀ b, t.Obeys (desk notes gate) (fun _ => Settles own) b (.opened own, .away)

section

variable (notes : β → List (Note κ)) (gate : β → Turnstile)
  (call? : Batch.Chunk Record → Option κ) (before : List (Note κ))

/-- The ledger and the turnstile are in order. -/
structure Booked (s : Session β) (h : Batch.History Record (Except Failure Batch.Reported))
    (m : Multiset (Debt κ × Ticket)) : Prop where
  balanced : .failed ∈ notes s.backend ∨
    Note.Balanced call? before (notes s.backend) h (m.map (·.1))
  orderly : (gate s.backend).Orderly (m.map (·.2))

variable {notes gate call? before} {s s' : Session β} {g g' : Debt κ × Ticket}
  {h : Batch.History Record (Except Failure Batch.Reported)}
  {others m : Multiset (Debt κ × Ticket)}

theorem Booked.keeps (hstep : (desk notes gate).step s.backend g s'.backend g')
    (hb : Booked notes gate call? before s h (g ::ₘ others)) :
    Booked notes gate call? before s' h (g' ::ₘ others) ∧
      ∀ o ∈ others, (desk notes gate).ready s.backend o → (desk notes gate).ready s'.backend o := by
  obtain ⟨hbalanced, horderly⟩ := hb
  obtain ⟨hrecorded, hpassed⟩ := hstep
  simp only [Multiset.map_cons] at hbalanced horderly
  obtain ⟨horderly', hothers⟩ := hpassed.keeps horderly
  refine ⟨⟨?_, by simpa using horderly'⟩, fun o ho hr => hothers _ (Multiset.mem_map_of_mem _ ho) hr⟩
  rcases hbalanced with hf | hbalanced
  · exact .inl (hrecorded.failed hf)
  · simpa using hrecorded.balanced hbalanced

theorem Booked.progress (hb : Booked notes gate call? before s h m)
    (hm : ∀ g ∈ m, ¬(desk notes gate).ready s.backend g) : m = 0 := by
  refine Multiset.eq_zero_of_forall_notMem fun g hg => ?_
  obtain ⟨k, hk⟩ : ∃ k, g.2 = .queued k := by
    have hstuck := hm g hg
    rcases hx : g.2 with _ | k | k
    · exact absurd (by simp [desk, hx, Turnstile.Lets]) hstuck
    · exact ⟨k, rfl⟩
    · exact absurd (by simp [desk, hx, Turnstile.Lets]) hstuck
  obtain ⟨x, hx, -, hlets⟩ := hb.orderly.exists_lets (hk ▸ Multiset.mem_map_of_mem Prod.snd hg)
  obtain ⟨g', hg', rfl⟩ := Multiset.mem_map.1 hx
  exact hm g' hg' hlets

variable (notes gate call? before) in
/-- **The conduct of writers that keep the ledger.** -/
def ledger : Batch.Conduct (Session β) Failure Record Batch.Reported (Debt κ × Ticket) where
  step s g s' g' := (desk notes gate).step s.backend g s'.backend g'
  ready s g := (desk notes gate).ready s.backend g
  begins c := (.opened (call? c), .away)
  ends c r _ g := Settles (call? c) g r
  inv := Booked notes gate call? before
  keeps := Booked.keeps
  began c hb := by
    refine ⟨hb.balanced.imp_right fun hbalanced => ?_, ?_⟩
    · simpa using hbalanced.began c
    · simpa using Turnstile.orderly_away.2 hb.orderly
  ended := by
    rintro s ⟨a, x⟩ h c r others ⟨rfl, hends⟩ ⟨hbalanced, horderly⟩
    simp only [Multiset.map_cons] at hbalanced horderly
    refine ⟨?_, Turnstile.orderly_away.1 horderly⟩
    rcases hends with rfl | ⟨rfl, hr⟩
    · exact hbalanced.imp_right fun hb => absurd (Multiset.mem_cons_self _ _) hb.sound
    · exact hbalanced.imp_right fun hb => hb.ended hr
  clock _ hb := ⟨⟨hb.balanced, hb.orderly⟩, fun _ h => h⟩
  progress := Booked.progress

end

end VectorStore
