/-
  How tasks side by side get along.

  A task holds something while it goes on, for instance a ticket.  `Rules` say how one that holds
  something may change the state and what it holds, and when it may go on after a wait.

  * `Obeys`: a task keeps to the rules, and ends as is said; so do tasks that are put together
    from such tasks (`Obeys.andThen`, `Obeys.attempt`, `Obeys.zoom`);
  * `Protocol`: rules with an invariant of the state and of what all tasks hold, under which
    somebody may always go on;
  * `Obeys.run`, `run_sideBySide_obeying`: so tasks that obey the rules of a protocol, alone or side
    by side, go on to their end, and the invariant holds then.
-/
import Mathlib.Data.List.Perm.Basic
import Mathlib.Data.Multiset.Replicate
import VectorStore.Proofs.Task.Erasure
import VectorStore.Proofs.Task.Lanes

namespace VectorStore

variable {σ τ ε ε' α β G H : Type}

/-- The wait is over in a state, as far as that depends on the state. -/
def Until.Open (u : Until σ) (s : σ) : Prop := ∀ condition, u = .holds condition → condition s = true

theorem Until.open_holds {condition : σ → Bool} {s : σ} :
    (Until.holds condition).Open s ↔ condition s = true :=
  ⟨fun h => h condition rfl, fun h _ hc => by cases hc; exact h⟩

theorem Until.Timed.open {u : Until σ} (h : u.Timed) (s : σ) : u.Open s :=
  fun condition hc => absurd hc (h condition)

namespace Task

/-! ## Rules -/

/-- What a task may do that holds something. -/
structure Rules (σ G : Type) where
  /-- it may change the state, and what it holds -/
  step : σ → G → σ → G → Prop
  /-- it may go on after a wait -/
  ready : σ → G → Prop

/-- From a state and with what it holds, the task keeps to the rules and ends as `post` says. -/
def Obeys (R : Rules σ G) (post : σ → G → Except ε α → Prop) : Task σ ε α → σ → G → Prop
  | .done r, s, g => post s g r
  | .read next, s, g => (next s).Obeys R post s g
  | .write s' next, s, g => ∃ g', R.step s g s' g' ∧ next.Obeys R post s' g'
  | .wait u _ next, _, g => (∀ s, u.Open s ↔ R.ready s g) ∧
    ∀ s, R.ready s g → ∃ g', R.step s g s g' ∧ next.Obeys R post s g'

variable {R : Rules σ G} {s : σ} {g : G}

theorem Obeys.mono {post post' : σ → G → Except ε α → Prop} {t : Task σ ε α}
    (h : t.Obeys R post s g) (hpost : ∀ s g r, post s g r → post' s g r) :
    t.Obeys R post' s g := by
  induction t generalizing s g with
  | done r => exact hpost s g r h
  | read next ih => exact ih s h
  | write s' next ih =>
    obtain ⟨g', hstep, h⟩ := h
    exact ⟨g', hstep, ih h⟩
  | wait u abandon next ih =>
    refine ⟨h.1, fun s hs => ?_⟩
    obtain ⟨g', hstep, h⟩ := h.2 s hs
    exact ⟨g', hstep, ih h⟩

/-- One task after another: a failure of the first ends both. -/
theorem Obeys.andThen {post : σ → G → Except ε β → Prop} {t : Task σ ε α} {f : α → Task σ ε β}
    (h : t.Obeys R (fun s g r => match r with
      | .ok a => (f a).Obeys R post s g
      | .error e => post s g (.error e)) s g) : (t.andThen f).Obeys R post s g := by
  induction t generalizing s g with
  | done r => cases r <;> exact h
  | read next ih => exact ih s h
  | write s' next ih =>
    obtain ⟨g', hstep, h⟩ := h
    exact ⟨g', hstep, ih h⟩
  | wait u abandon next ih =>
    refine ⟨h.1, fun s hs => ?_⟩
    obtain ⟨g', hstep, h⟩ := h.2 s hs
    exact ⟨g', hstep, ih h⟩

theorem Obeys.attempt {post : σ → G → Except ε' (Except ε α) → Prop} {t : Task σ ε α}
    (h : t.Obeys R (fun s g r => post s g (.ok r)) s g) : t.attempt.Obeys R post s g := by
  induction t generalizing s g with
  | done r => exact h
  | read next ih => exact ih s h
  | write s' next ih =>
    obtain ⟨g', hstep, h⟩ := h
    exact ⟨g', hstep, ih h⟩
  | wait u abandon next ih =>
    refine ⟨h.1, fun s hs => ?_⟩
    obtain ⟨g', hstep, h⟩ := h.2 s hs
    exact ⟨g', hstep, ih h⟩

theorem Obeys.recover {post : σ → G → Except ε' α → Prop} {t : Task σ ε α}
    {handler : ε → Task σ ε' α}
    (h : t.Obeys R (fun s g r => match r with
      | .ok a => post s g (.ok a)
      | .error e => (handler e).Obeys R post s g) s g) : (t.recover handler).Obeys R post s g := by
  refine Obeys.andThen (Obeys.attempt (h.mono fun s g r hr => ?_))
  cases r with
  | ok a => exact hr
  | error e => exact hr

theorem Obeys.onAbandon {post : σ → G → Except ε α → Prop} {t : Task σ ε α}
    (h : t.Obeys R post s g) (f : σ → σ) : (t.onAbandon f).Obeys R post s g := by
  induction t generalizing s g with
  | done r => exact h
  | read next ih => exact ih s h
  | write s' next ih =>
    obtain ⟨g', hstep, h⟩ := h
    exact ⟨g', hstep, ih h⟩
  | wait u abandon next ih =>
    refine ⟨h.1, fun s hs => ?_⟩
    obtain ⟨g', hstep, h⟩ := h.2 s hs
    exact ⟨g', hstep, ih h⟩

theorem obeys_modify {post : σ → G → Except ε Unit → Prop} {f : σ → σ} {g' : G}
    (hstep : R.step s g (f s) g') (h : post (f s) g' (.ok ())) :
    (Task.modify f).Obeys R post s g :=
  ⟨g', hstep, h⟩

/-- A task that obeys some rules obeys others that allow what those allow. -/
theorem Obeys.allow {Q : Rules σ H} {hold : H → G}
    (hstep : ∀ s x s' x', Q.step s x s' x' → R.step s (hold x) s' (hold x'))
    (hready : ∀ s x, R.ready s (hold x) ↔ Q.ready s x) {post : σ → H → Except ε α → Prop}
    {post' : σ → G → Except ε α → Prop} (hpost : ∀ s x r, post s x r → post' s (hold x) r)
    {t : Task σ ε α} {x : H} (h : t.Obeys Q post s x) : t.Obeys R post' s (hold x) := by
  induction t generalizing s x with
  | done r => exact hpost s x r h
  | read next ih => exact ih s h
  | write s' next ih =>
    obtain ⟨x', hx, h⟩ := h
    exact ⟨hold x', hstep s x s' x' hx, ih h⟩
  | wait u abandon next ih =>
    refine ⟨fun s => (h.1 s).trans (hready s x).symm, fun s hs => ?_⟩
    obtain ⟨x', hx, h⟩ := h.2 s ((hready s x).1 hs)
    exact ⟨hold x', hstep s x s x' hx, ih h⟩

/-- A task on a part of the state obeys the rules of the whole if they allow what those of the part
    allow. -/
theorem Obeys.zoom {Q : Rules τ H} {get : σ → τ} {put : τ → σ → σ} (hpart : Part get put)
    {hold : H → G} (hstep : ∀ s x r x', Q.step (get s) x r x' → R.step s (hold x) (put r s) (hold x'))
    (hready : ∀ s x, R.ready s (hold x) ↔ Q.ready (get s) x)
    {post : τ → H → Except ε α → Prop} {post' : σ → G → Except ε α → Prop}
    (hpost : ∀ s x r, post (get s) x r → post' s (hold x) r) {t : Task τ ε α} {s : σ} {x : H}
    (h : t.Obeys Q post (get s) x) : (t.zoom get put).Obeys R post' s (hold x) := by
  induction t generalizing s x with
  | done r => exact hpost s x r h
  | read next ih => exact ih (get s) h
  | write r next ih =>
    obtain ⟨x', hx, h⟩ := h
    refine ⟨hold x', hstep s x r x' hx, ih ?_⟩
    rw [hpart.get_put]
    exact h
  | wait u abandon next ih =>
    refine ⟨fun s => ?_, fun s hs => ?_⟩
    · rw [hready, ← h.1]
      cases u with
      | holds condition => simp only [Until.comap, Until.open_holds]
      | passed span => exact ⟨fun _ _ hc => (by cases hc), fun _ _ hc => (by cases hc)⟩
      | reached time => exact ⟨fun _ _ hc => (by cases hc), fun _ _ hc => (by cases hc)⟩
    · obtain ⟨x', hx, h⟩ := h.2 (get s) ((hready s x).1 hs)
      have hself := hstep s x (get s) x' hx
      rw [hpart.put_get] at hself
      exact ⟨hold x', hself, ih h⟩

/-- A task on a part of the state that waits for nothing but time, where the rules let the part be
    changed at will. -/
theorem obeys_timed {get : σ → τ} {put : τ → σ → σ} (hpart : Part get put)
    (hstep : ∀ s r, R.step s g (put r s) g) (hready : ∀ s, R.ready s g)
    {post : σ → G → Except ε α → Prop} {t : Task τ ε α} (ht : t.Timed)
    (hpost : ∀ s r, post s g r) (s : σ) : (t.zoom get put).Obeys R post s g := by
  induction t generalizing s with
  | done r => exact hpost s r
  | read next ih => exact ih (get s) (ht (get s)) s
  | write r next ih => exact ⟨g, hstep s r, ih ht (put r s)⟩
  | wait u abandon next ih =>
    have hopen : (u.comap get).Timed := by
      cases u with
      | holds condition => exact absurd rfl (ht.1 condition)
      | _ => exact nofun
    refine ⟨fun s => iff_of_true (hopen.open s) (hready s), fun s _ => ⟨g, ?_, ih ht.2 s⟩⟩
    have hself := hstep s (get s)
    rw [hpart.put_get] at hself
    exact hself

/-! ## Protocols -/

/-- Rules with an invariant of the state and of what all tasks hold. -/
structure Protocol (σ G : Type) [Clocked σ] extends Rules σ G where
  inv : σ → Multiset G → Prop
  /-- a task may end that holds this -/
  rests : G → Prop
  keeps {s g s' g' others} : step s g s' g' → inv s (g ::ₘ others) →
    inv s' (g' ::ₘ others) ∧ ∀ o ∈ others, ready s o → ready s' o
  clock {s m} (time : Time) : inv s m →
    inv (Clocked.atTime time s) m ∧ ∀ g, ready (Clocked.atTime time s) g → ready s g
  /-- if nobody may go on that has not ended, all have ended -/
  progress {s m} : inv s m → (∀ g ∈ m, rests g ∨ ¬ready s g) → ∀ g ∈ m, ready s g

variable [Clocked σ] {P : Protocol σ G}

/-- A turn of a task keeps the invariant, and leaves the others ready that were. -/
theorem Obeys.advance {others : Multiset G} (hi : P.inv s (g ::ₘ others))
    {post : σ → G → Except ε α → Prop} {t : Task σ ε α} (h : t.Obeys P.toRules post s g) :
    ∃ g', P.inv (t.advance s).1 (g' ::ₘ others) ∧
      (∀ o ∈ others, P.ready s o → P.ready (t.advance s).1 o) ∧
      (t.advance s).2.Obeys P.toRules post (t.advance s).1 g' := by
  induction t generalizing s g with
  | done r => exact ⟨g, hi, fun _ _ h => h, h⟩
  | read next ih => exact ih s hi h
  | write s' next ih =>
    obtain ⟨g₁, hstep, h⟩ := h
    obtain ⟨hi₁, hothers⟩ := P.keeps hstep hi
    obtain ⟨g', hi', hothers', h'⟩ := ih hi₁ h
    exact ⟨g', hi', fun o ho hr => hothers' o ho (hothers o ho hr), h'⟩
  | wait u abandon next => exact ⟨g, hi, fun _ _ h => h, h⟩

/-- **A task alone that obeys the rules goes on to its end.** -/
theorem Obeys.run (hi : P.inv s {g}) {post : σ → G → Except ε α → Prop} {t : Task σ ε α}
    (h : t.Obeys P.toRules post s g) :
    ∃ g', P.inv (t.run s).2 {g'} ∧ post (t.run s).2 g' (t.run s).1 := by
  induction t generalizing s g with
  | done r => exact ⟨g, hi, h⟩
  | read next ih => exact ih s hi h
  | write s' next ih =>
    obtain ⟨g', hstep, h⟩ := h
    exact ih (P.keeps hstep hi).1 h
  | wait u abandon next ih =>
    have hgo : ∀ s, P.inv s {g} → ∃ g', P.inv (next.run s).2 {g'} ∧
        post (next.run s).2 g' (next.run s).1 := fun s hi => by
      have hready : P.ready s g := by
        by_contra hn
        have hall := P.progress hi fun x hx => .inr (Multiset.mem_singleton.1 hx ▸ hn)
        exact hn (hall g (Multiset.mem_singleton_self g))
      obtain ⟨g', hstep, h⟩ := h.2 s hready
      exact ih (P.keeps hstep hi).1 h
    rw [Task.run]
    split
    · exact hgo s hi
    · exact hgo _ (P.clock _ hi).1

/-! ## Side by side -/

variable (P) in
/-- A lane that waits or has ended obeys the rules with what it holds. -/
def Attends (t : Lane σ) (g : G) : Prop :=
  t.Settled ∧ ∀ s, t.Obeys P.toRules (fun _ g _ => P.rests g) s g

theorem Attends.open_iff {u : Until σ} {abandon : σ → σ} {next : Lane σ}
    (h : Attends P (.wait u abandon next) g) (s : σ) : u.Open s ↔ P.ready s g := (h.2 s).1 s

variable (P) in
/-- Each lane attends with what it holds, and the invariant holds of all that. -/
def Attended (lanes : List (Lane σ)) (s : σ) : Prop :=
  ∃ gs : List G, gs.length = lanes.length ∧ P.inv s gs ∧
    ∀ (i : Nat) t g, lanes[i]? = some t → gs[i]? = some g → Attends P t g

theorem coe_eraseIdx {gs : List G} {i : Nat} (hi : i < gs.length) :
    (gs : Multiset G) = gs[i] ::ₘ (gs.eraseIdx i : List G) ∧
      ∀ g', (gs.set i g' : List G) = (g' ::ₘ (gs.eraseIdx i : List G) : Multiset G) :=
  ⟨Multiset.coe_eq_coe.2 (List.getElem_cons_eraseIdx_perm hi).symm,
    fun g' => Multiset.coe_eq_coe.2 (List.set_perm_cons_eraseIdx hi g')⟩

/-- **Turns and the clock keep this**, and a turn leaves the others open that were. -/
theorem kept_attended (P : Protocol σ G) :
    Kept (fun s u => u.Open s) (fun s condition => condition s = false) (Attended P) where
  timed h := h.open _
  holds h := Until.open_holds.2 h
  lacks h := h
  turn {lanes s i u abandon next} hp hi ho := by
    obtain ⟨gs, hlen, hinv, hall⟩ := hp
    obtain ⟨hlt, -⟩ := List.getElem?_eq_some_iff.1 hi
    have hlt' : i < gs.length := hlen ▸ hlt
    obtain ⟨hgs, hset⟩ := coe_eraseIdx hlt'
    have hattends := hall i _ _ hi (List.getElem?_eq_getElem hlt')
    obtain ⟨g₁, hstep, hnext⟩ := (hattends.2 s).2 s ((hattends.open_iff s).1 ho)
    rw [hgs] at hinv
    obtain ⟨hinv₁, hothers⟩ := P.keeps hstep hinv
    obtain ⟨g', hinv', hothers', hrest⟩ := hnext.advance hinv₁
    have hsettled := settled_advance next s
    refine ⟨⟨gs.set i g', by simpa using hlen, hset g' ▸ hinv', fun j t g ht hg => ?_⟩,
      fun j hij u' abandon' next' hj hopen => ?_⟩
    · by_cases hij : i = j
      · subst hij
        rw [List.getElem?_set_self hlt] at ht
        rw [List.getElem?_set_self hlt'] at hg
        cases ht
        cases hg
        refine ⟨hsettled, fun s' => ?_⟩
        generalize (next.advance s).2 = rest at *
        cases hsettled with
        | done => exact hrest
        | wait => exact hrest
      · rw [List.getElem?_set_ne hij] at ht hg
        exact hall j t g ht hg
    · obtain ⟨hjlt, -⟩ := List.getElem?_eq_some_iff.1 hj
      have hg := List.getElem?_eq_getElem (hlen ▸ hjlt : j < gs.length)
      have hmem : gs[j] ∈ gs.eraseIdx i :=
        List.mem_eraseIdx_iff_getElem?.2 ⟨j, hij, hg⟩
      have hready := (hall j _ _ hj hg).open_iff
      exact (hready _).2 (hothers' _ hmem (hothers _ hmem ((hready s).1 hopen)))
  clock {lanes s} time hp := by
    obtain ⟨gs, hlen, hinv, hall⟩ := hp
    obtain ⟨hinv', hready⟩ := P.clock time hinv
    refine ⟨⟨gs, hlen, hinv', hall⟩, fun condition abandon next ht hs => ?_⟩
    obtain ⟨j, hj⟩ := List.getElem?_of_mem ht
    obtain ⟨hjlt, -⟩ := List.getElem?_eq_some_iff.1 hj
    have hiff := (hall j _ _ hj (List.getElem?_eq_getElem (hlen ▸ hjlt : j < gs.length))).open_iff
    by_contra hn
    have hopen := (hiff s).2 (hready _ ((hiff _).1 (Until.open_holds.2 (by simpa using hn))))
    rw [Until.open_holds, hs] at hopen
    cases hopen

/-- **Tasks side by side that obey the rules of a protocol go on to their end.** -/
theorem run_sideBySide_obeying (P : Protocol σ G) (lanes : List (Lane σ)) (s : σ)
    (hready : ∀ s, P.ready s g) (hstay : ∀ s, P.step s g s g)
    (hlanes : ∀ t ∈ lanes, ∀ s, t.Obeys P.toRules (fun _ g _ => P.rests g) s g)
    (hinv : P.inv s (Multiset.replicate lanes.length g)) :
    ∃ s' m, (sideBySide (none : Option (Deadline ε)) lanes).run s = (.ok (), s') ∧ P.inv s' m ∧
      ∀ g ∈ m, P.rests g := by
  let starting : List (Lane σ) := lanes.map fun t => .wait (.holds fun _ => true) id t
  have hstart : Attended P starting s := by
    refine ⟨List.replicate lanes.length g, by simp [starting], ?_, fun i t g' ht hg => ?_⟩
    · rw [Multiset.coe_replicate]
      exact hinv
    · obtain ⟨-, rfl⟩ := List.mem_replicate.1 (List.mem_of_getElem? hg)
      obtain ⟨t, hmem, rfl⟩ := List.mem_map.1 (List.mem_of_getElem? ht)
      refine ⟨.wait, fun _ => ⟨fun s => ?_, fun s _ => ⟨g', hstay s, hlanes t hmem s⟩⟩⟩
      exact iff_of_true (Until.open_holds.2 rfl) (hready s)
  obtain ⟨lanes', s', ⟨gs, hlen, hinv', hall⟩, ⟨hstill, hrun⟩ | ⟨due, hdue, -⟩⟩ :=
    run_sideBySide (ε := ε) (kept_attended P) none lanes s hstart
  swap
  · cases hdue
  have hat : ∀ g ∈ gs, ∃ t ∈ lanes', Attends P t g := fun g hg => by
    obtain ⟨i, hi⟩ := List.getElem?_of_mem hg
    obtain ⟨hlt, -⟩ := List.getElem?_eq_some_iff.1 hi
    have ht := List.getElem?_eq_getElem (hlen ▸ hlt : i < lanes'.length)
    exact ⟨_, List.mem_of_getElem? ht, hall i _ g ht hi⟩
  have hgo := P.progress hinv' fun g hg => by
    obtain ⟨t, ht, hattends⟩ := hat g hg
    cases hstill t ht with
    | ended => exact .inl (hattends.2 s')
    | stuck hs =>
      refine .inr fun hr => ?_
      have hopen := (hattends.open_iff s').2 hr
      rw [Until.open_holds, hs] at hopen
      cases hopen
  refine ⟨s', gs, hrun, hinv', fun g hg => ?_⟩
  obtain ⟨t, ht, hattends⟩ := hat g hg
  cases hstill t ht with
  | ended => exact hattends.2 s'
  | stuck hs =>
    have hopen := (hattends.open_iff s').2 (hgo g hg)
    rw [Until.open_holds, hs] at hopen
    cases hopen

end Task

end VectorStore
