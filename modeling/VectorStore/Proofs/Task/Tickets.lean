/-
  Tickets of a turnstile.

  A task is away from a turnstile, queued before it with a ticket, or inside.

  * `Passed`: what a task may do at a turnstile; `obeys_pass`: a task behind a turnstile does no
    more;
  * `Orderly`: the tickets not given back are in the hands of one task each, and whoever is inside
    has the first of them; `Passed.keeps`: what tasks may do keeps to this;
  * `Orderly.exists_lets`: so where somebody is queued, somebody may go on.
-/
import Mathlib.Data.Multiset.Filter
import VectorStore.Proofs.Task.Protocol
import VectorStore.Task.Turnstile

namespace VectorStore

/-- Where a task is at a turnstile. -/
inductive Ticket where
  | away
  | queued (k : Nat)
  | inside (k : Nat)

namespace Turnstile

/-- The ticket that a task has drawn and not given back. -/
def ticket? : Ticket → Option Nat
  | .away => none
  | .queued k => some k
  | .inside k => some k

/-- The tickets that some tasks have drawn and not given back. -/
def tickets (m : Multiset Ticket) : Multiset Nat := m.filterMap ticket?

@[simp] theorem tickets_away (m : Multiset Ticket) : tickets (.away ::ₘ m) = tickets m :=
  Multiset.filterMap_cons_none _ _ rfl

@[simp] theorem tickets_queued (k : Nat) (m : Multiset Ticket) :
    tickets (.queued k ::ₘ m) = k ::ₘ tickets m :=
  Multiset.filterMap_cons_some ticket? _ _ rfl

@[simp] theorem tickets_inside (k : Nat) (m : Multiset Ticket) :
    tickets (.inside k ::ₘ m) = k ::ₘ tickets m :=
  Multiset.filterMap_cons_some ticket? _ _ rfl

theorem mem_tickets {m : Multiset Ticket} {k : Nat} :
    k ∈ tickets m ↔ .queued k ∈ m ∨ .inside k ∈ m := by
  rw [tickets, Multiset.mem_filterMap]
  constructor
  · rintro ⟨x, hx, hk⟩
    cases x with
    | away => cases hk
    | queued => cases hk; exact .inl hx
    | inside => cases hk; exact .inr hx
  · rintro (h | h)
    · exact ⟨_, h, rfl⟩
    · exact ⟨_, h, rfl⟩

/-- What a task may do at a turnstile. -/
inductive Passed : Turnstile → Ticket → Turnstile → Ticket → Prop
  | stays (t : Turnstile) (x : Ticket) : Passed t x t x
  | draws (t : Turnstile) : Passed t .away t.draw (.queued t.drawn)
  | walksIn (t : Turnstile) : t.returned = t.drawn → Passed t .away t.draw (.inside t.drawn)
  | enters (t : Turnstile) : Passed t (.queued t.returned) t (.inside t.returned)
  | leaves (t : Turnstile) (k : Nat) : Passed t (.inside k) t.giveBack .away

/-- A task may go on: if it is queued, the tickets before its own were given back. -/
def Lets (t : Turnstile) : Ticket → Prop
  | .queued k => t.returned = k
  | _ => True

theorem lets_away (t : Turnstile) : t.Lets .away := trivial

theorem lets_inside (t : Turnstile) (k : Nat) : t.Lets (.inside k) := trivial

/-- The tickets not given back are in the hands of one task each, and whoever is inside has the
    first of them. -/
structure Orderly (t : Turnstile) (m : Multiset Ticket) : Prop where
  returned_le : t.returned ≤ t.drawn
  tickets : tickets m = (List.range' t.returned (t.drawn - t.returned) : List Nat)
  first : ∀ k, .inside k ∈ m → k = t.returned

variable {t t' : Turnstile} {x x' : Ticket} {m others : Multiset Ticket}

/-- With nobody at the turnstile, all tickets were given back. -/
theorem orderly_zero (h : t.returned = t.drawn) : Orderly t 0 :=
  ⟨Nat.le_of_eq h, by simp [Turnstile.tickets, h], nofun⟩

theorem orderly_away : Orderly t (.away ::ₘ m) ↔ Orderly t m := by
  constructor
  · intro h
    exact ⟨h.returned_le, tickets_away m ▸ h.tickets,
      fun k hk => h.first k (Multiset.mem_cons_of_mem hk)⟩
  · intro h
    refine ⟨h.returned_le, (tickets_away m).trans h.tickets, fun k hk => ?_⟩
    rcases Multiset.mem_cons.1 hk with hk | hk
    · cases hk
    · exact h.first k hk

/-- Whoever is inside has the first ticket, and nobody else has it. -/
theorem Orderly.of_inside {k : Nat} (h : Orderly t (.inside k ::ₘ others)) :
    k = t.returned ∧ t.returned < t.drawn ∧
      Turnstile.tickets others =
        (List.range' (t.returned + 1) (t.drawn - (t.returned + 1)) : List Nat) := by
  obtain rfl := h.first k (Multiset.mem_cons_self _ _)
  have ht := h.tickets
  rw [tickets_inside] at ht
  have hlt : t.returned < t.drawn := by
    by_contra hn
    rw [Nat.sub_eq_zero_of_le (Nat.le_of_not_lt hn)] at ht
    exact Multiset.cons_ne_zero ht
  have hsub : t.drawn - t.returned = t.drawn - (t.returned + 1) + 1 := by omega
  rw [hsub, List.range'_succ, ← Multiset.cons_coe, Multiset.cons_inj_right] at ht
  exact ⟨rfl, hlt, ht⟩

/-- A new ticket is the last one. -/
theorem Orderly.tickets_draw (h : Orderly t (.away ::ₘ others)) :
    t.drawn ::ₘ Turnstile.tickets others =
      (List.range' t.draw.returned (t.draw.drawn - t.draw.returned) : List Nat) := by
  have ht := h.tickets
  have hle := h.returned_le
  rw [tickets_away] at ht
  rw [ht, draw, Nat.sub_add_comm hle, List.range'_concat, Nat.one_mul, Nat.add_sub_cancel' hle]
  exact Multiset.coe_eq_coe.2 (List.perm_append_singleton _ _).symm

/-- **What tasks may do keeps the tickets in order**, and lets the others go on that may. -/
theorem Passed.keeps (h : Passed t x t' x') (ho : Orderly t (x ::ₘ others)) :
    Orderly t' (x' ::ₘ others) ∧ ∀ o ∈ others, t.Lets o → t'.Lets o := by
  cases h with
  | stays => exact ⟨ho, fun _ _ h => h⟩
  | draws =>
    refine ⟨⟨Nat.le_succ_of_le ho.returned_le, ?_, fun k hk => ?_⟩, fun o _ h => ?_⟩
    · rw [tickets_queued, ho.tickets_draw]
    · rcases Multiset.mem_cons.1 hk with hk | hk
      · cases hk
      · exact ho.first k (Multiset.mem_cons_of_mem hk)
    · cases o <;> exact h
  | walksIn hfree =>
    refine ⟨⟨Nat.le_succ_of_le ho.returned_le, ?_, fun k hk => ?_⟩, fun o _ h => ?_⟩
    · rw [tickets_inside, ho.tickets_draw]
    · rcases Multiset.mem_cons.1 hk with hk | hk
      · cases hk
        exact hfree.symm
      · exact ho.first k (Multiset.mem_cons_of_mem hk)
    · cases o <;> exact h
  | enters =>
    have ht := ho.tickets
    rw [tickets_queued] at ht
    refine ⟨⟨ho.returned_le, by rw [tickets_inside, ht], fun k hk => ?_⟩, fun _ _ h => h⟩
    rcases Multiset.mem_cons.1 hk with hk | hk
    · cases hk
      rfl
    · exact ho.first k (Multiset.mem_cons_of_mem hk)
  | leaves =>
    obtain ⟨rfl, hlt, ht⟩ := ho.of_inside
    -- the first ticket is given back, and the others are behind it
    have hbehind : ∀ k ∈ Turnstile.tickets others, t.returned < k := fun k hk => by
      rw [ht, Multiset.mem_coe, List.mem_range'_1] at hk
      omega
    refine ⟨⟨hlt, by rw [tickets_away, ht]; rfl, fun k hk => ?_⟩, fun o ho' h => ?_⟩
    · rcases Multiset.mem_cons.1 hk with hk | hk
      · cases hk
      · have hfirst := ho.first k (Multiset.mem_cons_of_mem hk)
        have := hbehind k (mem_tickets.2 (.inr hk))
        omega
    · cases o with
      | queued k =>
        have hk : t.returned = k := h
        have := hbehind k (mem_tickets.2 (.inl ho'))
        omega
      | _ => trivial

/-- **Where somebody is queued, somebody at the turnstile may go on.** -/
theorem Orderly.exists_lets (h : Orderly t m) {k : Nat} (hk : .queued k ∈ m) :
    ∃ x ∈ m, x ≠ .away ∧ t.Lets x := by
  have hmem := mem_tickets.2 (.inl hk)
  rw [h.tickets, Multiset.mem_coe, List.mem_range'_1] at hmem
  have hfirst : t.returned ∈ Turnstile.tickets m := by
    rw [h.tickets, Multiset.mem_coe, List.mem_range'_1]
    omega
  rcases mem_tickets.1 hfirst with hx | hx
  · exact ⟨_, hx, nofun, rfl⟩
  · exact ⟨_, hx, nofun, trivial⟩

/-- **A task behind a turnstile does there what it may.** -/
theorem obeys_pass {σ ε α D : Type} {R : Task.Rules σ (D × Ticket)} {view : σ → Turnstile}
    {change : (Turnstile → Turnstile) → σ → σ}
    (hstep : ∀ s f x x' (d : D), Passed (view s) x (f (view s)) x' →
      R.step s (d, x) (change f s) (d, x'))
    (hstay : ∀ s x x' (d : D), Passed (view s) x (view s) x' → R.step s (d, x) s (d, x'))
    (hready : ∀ s (d : D) x, R.ready s (d, x) ↔ (view s).Lets x)
    {post : σ → D × Ticket → Except ε α → Prop} {t : Task σ ε α} {s : σ} {d : D}
    (ht : ∀ s k, t.Obeys R (fun s g r => g.2 = .inside k ∧
      post (change giveBack s) (g.1, .away) r) s (d, .inside k)) :
    (pass view change t).Obeys R post s (d, .away) := by
  -- what is left to do for a task that is inside
  have hinside : ∀ s k, ((t.onAbandon (change fun _ => {})).attempt.andThen fun r =>
      (Task.modify (change giveBack)).andThen fun _ => .ofExcept r).Obeys R post s
        (d, .inside k) := by
    intro s k
    refine Task.Obeys.andThen (Task.Obeys.attempt (Task.Obeys.onAbandon ((ht s k).mono ?_) _))
    rintro s ⟨d', x⟩ r ⟨rfl, hpost⟩
    exact ⟨(d', .away), hstep s giveBack _ _ d' (.leaves _ k), hpost⟩
  by_cases hnext : (view s).returned = (view s).drawn
  · refine ⟨(d, .inside (view s).drawn), hstep s draw _ _ d (.walksIn _ hnext), ?_⟩
    simp only [hnext, beq_self_eq_true, if_true]
    exact hinside _ _
  · refine ⟨(d, .queued (view s).drawn), hstep s draw _ _ d (.draws _), ?_⟩
    simp only [beq_eq_false_iff_ne.2 hnext, Bool.false_eq_true, if_false]
    refine ⟨fun s' => ?_, fun s' hs' => ⟨(d, .inside (view s).drawn), ?_, hinside _ _⟩⟩
    · rw [hready, Until.open_holds, beq_iff_eq]
      rfl
    · obtain hlets : (view s').returned = (view s).drawn := (hready _ _ _).1 hs'
      rw [← hlets]
      exact hstay s' _ _ d (.enters _)

end Turnstile

end VectorStore
