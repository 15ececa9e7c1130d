/-
  What a task keeps while it waits, and when it is cut short.

  While a task waits, others may change the state, and the wait may be cut short.  A `Frame` says
  what may happen in the meantime, and what has to hold whenever the task waits.

  * `Keeps`: from a state, a task keeps what the frame says, and ends as is said; so do tasks put
    together from such tasks (`Keeps.andThen`, `Keeps.recover`, `Keeps.zoom`);
  * `Keeps.bounded`: a deadline does no harm, if being late is an end as is said;
  * `Keeps.run`: a task alone ends as is said;
  * `run_sideBySide_keeping`: tasks side by side that keep the same keep it together.
-/
import VectorStore.Proofs.Task.Erasure
import VectorStore.Proofs.Task.Lanes

namespace VectorStore.Task

variable {σ τ ε ε' α β : Type}

/-- What goes on around a task. -/
structure Frame (σ : Type) where
  /-- what may happen to the state during a wait -/
  drift : σ → σ → Prop
  /-- what holds during waits, and when one is cut short -/
  inv : σ → Prop

/-- The frame of those who all keep the same. -/
def Frame.shared (inv : σ → Prop) : Frame σ := ⟨fun _ s' => inv s', inv⟩

/-- From a state, the task keeps what the frame says and ends as `post` says. -/
def Keeps (F : Frame σ) (post : σ → Except ε α → Prop) : Task σ ε α → σ → Prop
  | .done r, s => post s r
  | .read next, s => (next s).Keeps F post s
  | .write s' next, _ => next.Keeps F post s'
  | .wait _ abandon next, s =>
    F.inv s ∧ ∀ s', F.drift s s' → F.inv (abandon s') ∧ next.Keeps F post s'

variable {F : Frame σ} {s : σ} {post post' : σ → Except ε α → Prop} {t : Task σ ε α}

theorem Keeps.mono (h : t.Keeps F post s) (hpost : ∀ s r, post s r → post' s r) :
    t.Keeps F post' s := by
  induction t generalizing s with
  | done r => exact hpost s r h
  | read next ih => exact ih s h
  | write s' next ih => exact ih h
  | wait u abandon next ih =>
    exact ⟨h.1, fun s' hs' => ⟨(h.2 s' hs').1, ih (h.2 s' hs').2⟩⟩

/-! ## Compound tasks -/

/-- One task after another: a failure of the first ends both. -/
theorem Keeps.andThen {post : σ → Except ε β → Prop} {f : α → Task σ ε β}
    (h : t.Keeps F (fun s r => match r with
      | .ok a => (f a).Keeps F post s
      | .error e => post s (.error e)) s) : (t.andThen f).Keeps F post s := by
  induction t generalizing s with
  | done r => cases r <;> exact h
  | read next ih => exact ih s h
  | write s' next ih => exact ih h
  | wait u abandon next ih =>
    exact ⟨h.1, fun s' hs' => ⟨(h.2 s' hs').1, ih (h.2 s' hs').2⟩⟩

theorem Keeps.attempt {post : σ → Except ε' (Except ε α) → Prop}
    (h : t.Keeps F (fun s r => post s (.ok r)) s) : t.attempt.Keeps F post s := by
  induction t generalizing s with
  | done r => exact h
  | read next ih => exact ih s h
  | write s' next ih => exact ih h
  | wait u abandon next ih =>
    exact ⟨h.1, fun s' hs' => ⟨(h.2 s' hs').1, ih (h.2 s' hs').2⟩⟩

theorem Keeps.recover {post : σ → Except ε' α → Prop} {handler : ε → Task σ ε' α}
    (h : t.Keeps F (fun s r => match r with
      | .ok a => post s (.ok a)
      | .error e => (handler e).Keeps F post s) s) : (t.recover handler).Keeps F post s := by
  refine Keeps.andThen (Keeps.attempt (h.mono fun s r hr => ?_))
  cases r with
  | ok a => exact hr
  | error e => exact hr

theorem Keeps.certain {t : Task σ Empty α} {result : σ → α → Prop}
    (h : t.Keeps F (fun s r => ∀ a, r = .ok a → result s a) s) :
    (t.certain : Task σ ε α).Keeps F (fun s r => ∃ a, r = .ok a ∧ result s a) s := by
  induction t generalizing s with
  | done r =>
    cases r with
    | ok a => exact ⟨a, rfl, h a rfl⟩
    | error e => cases e
  | read next ih => exact ih s h
  | write s' next ih => exact ih h
  | wait u abandon next ih =>
    exact ⟨h.1, fun s' hs' => ⟨(h.2 s' hs').1, ih (h.2 s' hs').2⟩⟩

/-! ## Results -/

/-- There is a result as said; or there is none, and the state is as said. -/
def Leaves (inv : σ → Prop) (result : α → σ → Prop) (s : σ) : Except ε α → Prop
  | .ok a => result a s
  | .error _ => inv s

variable {inv : σ → Prop} {result : α → σ → Prop} {more : β → σ → Prop} {f : α → Task σ ε β}

theorem Keeps.leaves {inv' : σ → Prop} {result' : α → σ → Prop}
    (h : t.Keeps F (Leaves inv result) s) (hinv : ∀ s, inv s → inv' s)
    (hresult : ∀ a s, result a s → result' a s) :
    t.Keeps F (Leaves inv' result') s := by
  refine h.mono fun s r hr => ?_
  cases r with
  | ok a => exact hresult a s hr
  | error e => exact hinv s hr

theorem keeps_pure {a : α} (h : result a s) :
    (pure a : Task σ ε α).Keeps F (Leaves inv result) s := h

/-- One task after another, of which the second goes on from what the first leaves. -/
theorem Keeps.bind (h : t.Keeps F (Leaves inv result) s)
    (hf : ∀ a s, result a s → (f a).Keeps F (Leaves inv more) s) :
    (t >>= f).Keeps F (Leaves inv more) s := by
  refine Keeps.andThen (h.mono fun s r hr => ?_)
  cases r with
  | ok a => exact hf a s hr
  | error e => exact hr

/-- A task goes on from a result that is known, if it is one. -/
theorem keeps_ofExcept {r : Except ε α} (h : inv s)
    (hf : ∀ a, r = .ok a → (f a).Keeps F (Leaves inv more) s) :
    (ofExcept r >>= f).Keeps F (Leaves inv more) s := by
  cases r with
  | ok a => exact hf a rfl
  | error e => exact h

theorem keeps_modify {change : σ → σ} {f : Unit → Task σ ε β}
    (h : (f ()).Keeps F (Leaves inv more) (change s)) :
    (modify change >>= f).Keeps F (Leaves inv more) s := h

/-- A task whose failures become others. -/
theorem Keeps.fails {leaves : ε → ε'} (h : t.Keeps F (Leaves inv result) s) :
    (t.recover fun e => .fail (leaves e)).Keeps F (Leaves inv result) s := by
  refine Keeps.recover (h.mono fun s r hr => ?_)
  cases r with
  | ok a => exact hr
  | error e => exact hr

/-- The same, with a second task that goes on from `result`. -/
theorem Keeps.failsThen (result : α → σ → Prop) {leaves : ε → ε'} {more : β → σ → Prop}
    {f : α → Task σ ε' β} (h : t.Keeps F (Leaves inv result) s)
    (hf : ∀ a s, result a s → (f a).Keeps F (Leaves inv more) s) :
    ((t.recover fun e => .fail (leaves e)) >>= f).Keeps F (Leaves inv more) s :=
  h.fails.bind hf

/-! ## Parts of the state -/

/-- A task on a part of the state, the rest of which stays as `rest` says. -/
theorem Keeps.zoom {G : Frame τ} {get : σ → τ} {put : τ → σ → σ} (hpart : Part get put)
    {rest : σ → Prop} (hrest : ∀ s r, rest s → rest (put r s))
    (hinv : ∀ s, rest s → G.inv (get s) → F.inv s)
    (hdrift : ∀ s s', rest s → G.inv (get s) → F.drift s s' → rest s' ∧ G.drift (get s) (get s'))
    {part : τ → Except ε α → Prop} (hpost : ∀ s r, rest s → part (get s) r → post s r)
    {t : Task τ ε α} (hs : rest s) (h : t.Keeps G part (get s)) :
    (t.zoom get put).Keeps F post s := by
  induction t generalizing s with
  | done r => exact hpost s r hs h
  | read next ih => exact ih (get s) hs h
  | write r next ih =>
    refine ih (hrest s r hs) ?_
    rw [hpart.get_put]
    exact h
  | wait u abandon next ih =>
    refine ⟨hinv s hs h.1, fun s' hs' => ?_⟩
    obtain ⟨hrest', hdrift'⟩ := hdrift s s' hs h.1 hs'
    obtain ⟨ha, hnext⟩ := h.2 (get s') hdrift'
    refine ⟨hinv _ (hrest s' _ hrest') ?_, ih hrest' hnext⟩
    rw [hpart.get_put]
    exact ha

/-! ## Deadlines -/

theorem Keeps.withoutWait {late : ε} (hlate : ∀ s, F.inv s → post s (.error late))
    (hrefl : ∀ s, F.inv s → F.drift s s) (h : t.Keeps F post s) :
    (t.withoutWait late).Keeps F post s := by
  induction t generalizing s with
  | done r => exact h
  | read next ih => exact ih s h
  | write s' next ih => exact ih h
  | wait u abandon next =>
    obtain ⟨ha, -⟩ := h.2 s (hrefl s h.1)
    exact hlate _ ha

/-- **A deadline does no harm**, if the task may end by being late. -/
theorem Keeps.within [Clocked σ] {d : Deadline ε} (hlate : ∀ s, F.inv s → post s (.error d.late))
    (hrefl : ∀ s, F.inv s → F.drift s s) (h : t.Keeps F post s) : (t.within d).Keeps F post s := by
  induction t generalizing s with
  | done r => exact h
  | read next ih => exact ih s h
  | write s' next ih => exact ih h
  | wait u abandon next ih =>
    rw [Task.within, Keeps]
    split
    · exact ⟨h.1, fun s' hs' => ⟨(h.2 s' hs').1, ih (h.2 s' hs').2⟩⟩
    · split
      · exact ⟨h.1, fun s' hs' => ⟨(h.2 s' hs').1, hlate _ (h.2 s' hs').1⟩⟩
      · split
        · exact ⟨h.1, fun s' hs' => ⟨(h.2 s' hs').1, (h.2 s' hs').2.withoutWait hlate hrefl⟩⟩
        · exact ⟨h.1, fun s' hs' => ⟨(h.2 s' hs').1, ih (h.2 s' hs').2⟩⟩

theorem Keeps.bounded [Clocked σ] {d : Option (Deadline ε)}
    (hlate : ∀ due ∈ d, ∀ s, F.inv s → post s (.error due.late))
    (hrefl : ∀ s, F.inv s → F.drift s s) (h : t.Keeps F post s) : (t.bounded d).Keeps F post s := by
  cases d with
  | none => exact h
  | some d => exact h.within (hlate d rfl) hrefl

/-! ## Runs -/

/-- A turn leaves a task that keeps the same. -/
theorem Keeps.advance (h : t.Keeps F post s) : (t.advance s).2.Keeps F post (t.advance s).1 := by
  induction t generalizing s with
  | done r => exact h
  | read next ih => exact ih s h
  | write s' next ih => exact ih h
  | wait u abandon next => exact h

/-- **A task alone ends as is said**, if nothing but time passes while it waits. -/
theorem Keeps.run [Clocked σ] (hrefl : ∀ s, F.inv s → F.drift s s)
    (hclock : ∀ time s, F.inv s → F.drift s (Clocked.atTime time s)) (h : t.Keeps F post s) :
    post (t.run s).2 (t.run s).1 := by
  induction t generalizing s with
  | done r => exact h
  | read next ih => exact ih s h
  | write s' next ih => exact ih h
  | wait u abandon next ih =>
    rw [Task.run]
    split
    · exact ih (h.2 s (hrefl s h.1)).2
    · exact ih (h.2 _ (hclock _ s h.1)).2

/-! ## Side by side -/

/-- A lane that waits or has ended keeps the same as the others. -/
def Shares (inv : σ → Prop) (t : Lane σ) : Prop :=
  t.Settled ∧ ∀ s, inv s → t.Keeps (.shared inv) (fun s _ => inv s) s

/-- A turn of a lane keeps what all keep. -/
theorem shares_advance {inv : σ → Prop} {t : Lane σ}
    (h : t.Keeps (.shared inv) (fun s _ => inv s) s) :
    inv (t.advance s).1 ∧ Shares inv (t.advance s).2 := by
  have hsettled := settled_advance t s
  have hkeeps := h.advance
  generalize t.advance s = turn at *
  obtain ⟨s', rest⟩ := turn
  cases hsettled with
  | done => exact ⟨hkeeps, .done, fun s hs => hs⟩
  | wait => exact ⟨hkeeps.1, .wait, fun s hs => ⟨hs, hkeeps.2⟩⟩

theorem inv_abandonAll {inv : σ → Prop} {lanes : List (Lane σ)} (h : ∀ t ∈ lanes, Shares inv t)
    {s : σ} (hs : inv s) : inv (abandonAll lanes s) := by
  induction lanes generalizing s with
  | nil => exact hs
  | cons t lanes ih =>
    obtain ⟨ht, hlanes⟩ := List.forall_mem_cons.1 h
    rw [abandonAll, List.foldl_cons]
    refine ih hlanes ?_
    cases t with
    | wait u abandon next => exact ((ht.2 s hs).2 s hs).1
    | _ => exact hs

/-- **Tasks side by side that keep the same keep it together**, also when they are cut short. -/
theorem run_sideBySide_keeping [Clocked σ] {inv : σ → Prop}
    (hclock : ∀ time s, inv s → inv (Clocked.atTime time s)) (d : Option (Deadline ε))
    {lanes : List (Lane σ)}
    (h : ∀ t ∈ lanes, ∀ s, inv s → t.Keeps (.shared inv) (fun s _ => inv s) s) (hs : inv s) :
    inv ((sideBySide d lanes).run s).2 ∧
      (((sideBySide d lanes).run s).1 = .ok () ∨
        ∃ due ∈ d, ((sideBySide d lanes).run s).1 = .error due.late) := by
  let all (lanes : List (Lane σ)) (s : σ) : Prop := inv s ∧ ∀ t ∈ lanes, Shares inv t
  have hkept : Kept (fun _ _ => True) (fun _ _ => True) all :=
    { timed := fun _ => trivial
      holds := fun _ => trivial
      lacks := fun _ => trivial
      turn := fun {lanes s i u abandon next} hall hi _ => by
        obtain ⟨hs, hshares⟩ := hall
        have hnext := (((hshares _ (List.mem_of_getElem? hi)).2 s hs).2 s hs).2
        obtain ⟨hs', hrest⟩ := shares_advance hnext
        refine ⟨⟨hs', fun t ht => ?_⟩, fun _ _ _ _ _ _ _ => trivial⟩
        rcases List.mem_or_eq_of_mem_set ht with ht | rfl
        · exact hshares t ht
        · exact hrest
      clock := fun time hall => ⟨⟨hclock time _ hall.1, hall.2⟩, fun _ _ _ _ _ => trivial⟩ }
  have hstart : all (lanes.map fun t => .wait (.holds fun _ => true) id t) s := by
    refine ⟨hs, fun t ht => ?_⟩
    obtain ⟨t, hmem, rfl⟩ := List.mem_map.1 ht
    exact ⟨.wait, fun s hs => ⟨hs, fun s' hs' => ⟨hs', h t hmem s' hs'⟩⟩⟩
  obtain ⟨lanes', s', hall, ⟨-, hrun⟩ | ⟨due, hdue, hrun⟩⟩ :=
    run_sideBySide hkept d lanes s hstart
  · rw [hrun]
    exact ⟨hall.1, .inl rfl⟩
  · rw [hrun]
    exact ⟨inv_abandonAll hall.2 hall.1, .inr ⟨due, hdue, rfl⟩⟩

end VectorStore.Task
