/-
  What can happen during a batched write.

  A `History` notes when the writer of a chunk is called and when it has ended, and how.

  * `Follows`: the histories that lead a dispatch from one state to another; the chunks being
    written may end in any order, at any time and with any outcome;
  * `Consistent`: what every such history has in common with the state it leads to
    (`Follows.consistent`, from one lemma for each event);
  * `Disciplined`: chunks are begun in their order, one after another as far as they are, never
    too many at a time, and none behind an outcome that stops the write
    (`Follows.disciplined`);
  * `Follows.inOrder`: where only one chunk is written at a time, they end in their order and
    only the last outcome may stop the write.
-/
import Mathlib.Data.List.Basic
import Mathlib.Data.List.Nodup
import VectorStore.Batch.Dispatch

namespace VectorStore.Batch

/-- Something that happens to a chunk while records are written. -/
inductive WriteEvent (α ρ : Type) where
  /-- its writer is called -/
  | began (c : Chunk α)
  /-- its writer has returned or failed -/
  | ended (c : Chunk α) (outcome : ρ)

/-- What has happened, the latest last. -/
abbrev History (α ρ : Type) := List (WriteEvent α ρ)

variable {α ρ : Type}

namespace History

/-- The chunks whose writers were called, in that order. -/
def begun (h : History α ρ) : List (Chunk α) :=
  h.filterMap fun
    | .began c => some c
    | .ended .. => none

/-- The chunks whose writers have ended, in that order, with their outcomes. -/
def endings (h : History α ρ) : List (Chunk α × ρ) :=
  h.filterMap fun
    | .began _ => none
    | .ended c outcome => some (c, outcome)

/-- Whether the writer of the chunk with the number has ended. -/
def hasEnded (h : History α ρ) (k : Nat) : Bool := h.endings.any (·.1.index == k)

/-- The chunks that are being written. -/
def inFlight (h : History α ρ) : List (Chunk α) := h.begun.filter fun c => !h.hasEnded c.index

@[simp] theorem begun_append_began (h : History α ρ) (c : Chunk α) :
    begun (h ++ [.began c]) = h.begun ++ [c] := by simp [begun]

@[simp] theorem begun_append_ended (h : History α ρ) (c : Chunk α) (r : ρ) :
    begun (h ++ [.ended c r]) = h.begun := by simp [begun]

@[simp] theorem endings_append_began (h : History α ρ) (c : Chunk α) :
    endings (h ++ [.began c]) = h.endings := by simp [endings]

@[simp] theorem endings_append_ended (h : History α ρ) (c : Chunk α) (r : ρ) :
    endings (h ++ [.ended c r]) = h.endings ++ [(c, r)] := by simp [endings]

theorem mem_endings {h : History α ρ} {c : Chunk α} {r : ρ} :
    (c, r) ∈ h.endings ↔ .ended c r ∈ h := by
  rw [endings, List.mem_filterMap]
  constructor
  · rintro ⟨e, he, hc⟩
    cases e with
    | began => cases hc
    | ended => cases hc; exact he
  · exact fun he => ⟨_, he, rfl⟩

theorem inFlight_append_began {h : History α ρ} {c : Chunk α} (hc : h.hasEnded c.index = false) :
    inFlight (h ++ [.began c]) = h.inFlight ++ [c] := by
  simp only [inFlight, hasEnded, begun_append_began, endings_append_began, List.filter_append]
  rw [hasEnded] at hc
  simp [hc]

theorem inFlight_append_ended (h : History α ρ) (c : Chunk α) (r : ρ) :
    inFlight (h ++ [.ended c r]) = h.inFlight.filter (·.index ≠ c.index) := by
  simp only [inFlight, hasEnded, begun_append_ended, endings_append_ended, List.filter_filter]
  refine List.filter_congr fun d _ => ?_
  by_cases hd : d.index = c.index
  · simp [hd]
  · simp [hd, Ne.symm hd]

end History

/-! ## Events of a dispatch -/

namespace Dispatch

theorem next?_eq_some {d d' : Dispatch α ρ} {c : Chunk α} (h : d.next? = some (c, d')) :
    d.pending = c :: d'.pending ∧ d.aborted = false ∧ d.flying.length < d.limit ∧
      d' = { d with pending := d'.pending, flying := d.flying ++ [c] } := by
  rw [next?] at h
  split at h
  · cases h
  · next hp =>
    split at h
    · cases h
    · next hn =>
      cases h
      simp only [Bool.or_eq_true, decide_eq_true_eq, not_or, Bool.not_eq_true] at hn
      exact ⟨hp, hn.1, by omega, rfl⟩

/-- If no chunk may be started there is none, or the write was stopped, or too many are being
    written. -/
theorem next?_eq_none {d : Dispatch α ρ} (h : d.next? = none) :
    d.pending = [] ∨ d.aborted = true ∨ d.limit ≤ d.flying.length := by
  rw [next?] at h
  split at h
  · next hp => exact .inl hp
  · split at h
    · next hn => simpa using Or.inr hn
    · cases h

/-- A history that leads from the state `d₀` to another one; `stops` is whether an outcome
    stops the write, `may` how the writer of a chunk may end. -/
inductive Follows (stops : ρ → Bool) (may : Chunk α → ρ → Prop) (d₀ : Dispatch α ρ) :
    History α ρ → Dispatch α ρ → Prop
  | nil : Follows stops may d₀ [] d₀
  | began {h d c d'} : Follows stops may d₀ h d → d.next? = some (c, d') →
      Follows stops may d₀ (h ++ [.began c]) d'
  | ended {h d c r} : Follows stops may d₀ h d → c ∈ d.flying → may c r →
      Follows stops may d₀ (h ++ [.ended c r]) (d.finish c r (stops r))

variable {stops : ρ → Bool} {may : Chunk α → ρ → Prop} {limit : Nat} {cs : List (Chunk α)}
  {h : History α ρ} {d₀ d : Dispatch α ρ}

/-- What a history has in common with the state to which it leads. -/
structure Consistent (stops : ρ → Bool) (limit : Nat) (cs : List (Chunk α)) (h : History α ρ)
    (d : Dispatch α ρ) : Prop where
  limit_eq : d.limit = limit
  begun_pending : h.begun ++ d.pending = cs
  inFlight_eq : h.inFlight = d.flying
  endings_eq : h.endings = d.ended
  aborted_eq : d.aborted = h.endings.any fun e => stops e.2
  ended_begun : ∀ e ∈ h.endings, e.1 ∈ h.begun
  ended_once : (h.endings.map (·.1.index)).Nodup
  flying_le : d.flying.length ≤ limit

theorem Consistent.hasEnded_pending (hd : Consistent stops limit cs h d)
    (hcs : (cs.map (·.index)).Nodup) {c : Chunk α} (hc : c ∈ d.pending) :
    h.hasEnded c.index = false := by
  rw [← hd.begun_pending, List.map_append, List.nodup_append] at hcs
  refine List.any_eq_false.2 fun e he hi => ?_
  have hb : e.1.index ∈ h.begun.map (·.index) := List.mem_map_of_mem (hd.ended_begun e he)
  exact hcs.2.2 _ hb _ (List.mem_map_of_mem hc) (beq_iff_eq.1 hi)

theorem Consistent.hasEnded_flying (hd : Consistent stops limit cs h d) {c : Chunk α}
    (hc : c ∈ d.flying) : h.hasEnded c.index = false := by
  rw [← hd.inFlight_eq, History.inFlight, List.mem_filter] at hc
  simpa using hc.2

theorem Consistent.begun_of_flying (hd : Consistent stops limit cs h d) {c : Chunk α}
    (hc : c ∈ d.flying) : c ∈ h.begun := by
  rw [← hd.inFlight_eq, History.inFlight, List.mem_filter] at hc
  exact hc.1

theorem Consistent.nodup_flying (hd : Consistent stops limit cs h d)
    (hcs : (cs.map (·.index)).Nodup) : (d.flying.map (·.index)).Nodup := by
  rw [← hd.begun_pending, List.map_append, List.nodup_append] at hcs
  rw [← hd.inFlight_eq]
  exact hcs.1.sublist (List.filter_sublist.map _)

/-- A chunk is begun. -/
theorem Consistent.began (hd : Consistent stops limit cs h d) (hcs : (cs.map (·.index)).Nodup)
    {c : Chunk α} {d' : Dispatch α ρ} (hn : d.next? = some (c, d')) :
    Consistent stops limit cs (h ++ [.began c]) d' := by
  obtain ⟨hp, -, hl, he⟩ := next?_eq_some hn
  have hc : c ∈ d.pending := by rw [hp]; exact List.mem_cons_self ..
  have hf := History.inFlight_append_began (hd.hasEnded_pending hcs hc)
  rw [he]
  refine ⟨hd.limit_eq, ?_, ?_, ?_, ?_, ?_, ?_, ?_⟩
  · rw [History.begun_append_began, List.append_assoc, List.singleton_append, ← hp,
      hd.begun_pending]
  · rw [hf, hd.inFlight_eq]
  · rw [History.endings_append_began, hd.endings_eq]
  · rw [History.endings_append_began, hd.aborted_eq]
  · intro e
    rw [History.endings_append_began, History.begun_append_began]
    exact fun h => List.mem_append_left _ (hd.ended_begun e h)
  · rw [History.endings_append_began]
    exact hd.ended_once
  · rw [List.length_append, List.length_singleton, ← hd.limit_eq]
    exact hl

/-- A chunk has ended. -/
theorem Consistent.ended (hd : Consistent stops limit cs h d) {c : Chunk α} (r : ρ)
    (hc : c ∈ d.flying) :
    Consistent stops limit cs (h ++ [.ended c r]) (d.finish c r (stops r)) := by
  refine ⟨hd.limit_eq, ?_, ?_, ?_, ?_, ?_, ?_, ?_⟩
  · rw [History.begun_append_ended]
    exact hd.begun_pending
  · rw [History.inFlight_append_ended, hd.inFlight_eq]
    rfl
  · rw [History.endings_append_ended, hd.endings_eq]
    rfl
  · rw [History.endings_append_ended, List.any_append, ← hd.aborted_eq]
    simp [finish]
  · intro e
    rw [History.endings_append_ended, History.begun_append_ended, List.mem_append,
      List.mem_singleton]
    rintro (h | rfl)
    · exact hd.ended_begun e h
    · exact hd.begun_of_flying hc
  · have hn := List.any_eq_false.1 (hd.hasEnded_flying hc)
    rw [History.endings_append_ended, List.map_append, List.map_singleton, List.nodup_append]
    refine ⟨hd.ended_once, List.nodup_singleton _, fun i hi j hj => ?_⟩
    obtain ⟨e, he, rfl⟩ := List.mem_map.1 hi
    rw [List.mem_singleton.1 hj]
    simpa using hn e he
  · exact Nat.le_trans (List.length_filter_le ..) hd.flying_le

/-- **Every history is consistent with the state to which it leads.** -/
theorem Follows.consistent (hf : Follows stops may (start limit cs) h d)
    (hcs : (cs.map (·.index)).Nodup) : Consistent stops limit cs h d := by
  induction hf with
  | nil => exact ⟨rfl, rfl, rfl, rfl, rfl, nofun, List.nodup_nil, Nat.zero_le _⟩
  | began _ hn ih => exact ih.began hcs hn
  | ended _ hc _ ih => exact ih.ended _ hc

/-- How writers ended is how they may end. -/
theorem Follows.outcome (hf : Follows stops may d₀ h d) {c : Chunk α} {r : ρ}
    (hr : .ended c r ∈ h) : may c r := by
  induction hf with
  | nil => cases hr
  | began _ _ ih => exact ih (by simpa using hr)
  | ended _ _ hm ih =>
    rcases List.mem_append.1 hr with hr | hr
    · exact ih hr
    · cases List.mem_singleton.1 hr
      exact hm

/-! ## Discipline -/

/-- What happened earlier is a history, too. -/
theorem Follows.past (hf : Follows stops may d₀ h d) {past : History α ρ} (hp : past <+: h) :
    ∃ d', Follows stops may d₀ past d' := by
  induction hf with
  | nil => exact ⟨d₀, List.prefix_nil.1 hp ▸ .nil⟩
  | began hf hn ih =>
    rcases List.prefix_concat_iff.1 hp with rfl | hp
    · exact ⟨_, .began hf hn⟩
    · exact ih hp
  | ended hf hc hm ih =>
    rcases List.prefix_concat_iff.1 hp with rfl | hp
    · exact ⟨_, .ended hf hc hm⟩
    · exact ih hp

theorem Follows.last_began {c : Chunk α} (hf : Follows stops may d₀ (h ++ [.began c]) d) :
    ∃ d', Follows stops may d₀ h d' ∧ d'.next? = some (c, d) := by
  generalize he : h ++ [.began c] = h' at hf
  cases hf with
  | nil => simp at he
  | began hf hn =>
    obtain ⟨rfl, hc⟩ := List.append_inj' he rfl
    cases hc
    exact ⟨_, hf, hn⟩
  | ended hf =>
    obtain ⟨-, hc⟩ := List.append_inj' he rfl
    cases hc

theorem Follows.last_ended {c : Chunk α} {r : ρ} (hf : Follows stops may d₀ (h ++ [.ended c r]) d) :
    ∃ d', Follows stops may d₀ h d' ∧ c ∈ d'.flying := by
  generalize he : h ++ [.ended c r] = h' at hf
  cases hf with
  | nil => simp at he
  | began hf hn =>
    obtain ⟨-, hc⟩ := List.append_inj' he rfl
    cases hc
  | ended hf hc _ =>
    obtain ⟨rfl, hlast⟩ := List.append_inj' he rfl
    cases hlast
    exact ⟨_, hf, hc⟩

end Dispatch

/-- At every moment the chunks begun so far are the first ones in their order, and at most
    `limit` of them are being written; only what is being written ends; and no chunk is begun
    once an outcome has stopped the write. -/
structure Disciplined (stops : ρ → Bool) (limit : Nat) (cs : List (Chunk α))
    (h : History α ρ) : Prop where
  begun_prefix : ∀ past, past <+: h → History.begun past <+: cs
  ended_inFlight : ∀ past c r, past ++ [.ended c r] <+: h → c ∈ History.inFlight past
  inFlight_le : ∀ past, past <+: h → (History.inFlight past).length ≤ limit
  began_unstopped : ∀ past c, past ++ [.began c] <+: h → ∀ d r, .ended d r ∈ past →
    stops r = false

/-- Where less is allowed and more stops the write, more is promised. -/
theorem Disciplined.mono {stops stops' : ρ → Bool} {limit limit' : Nat} {cs : List (Chunk α)}
    {h : History α ρ} (hd : Disciplined stops limit cs h) (hl : limit ≤ limit')
    (hs : ∀ r, stops' r = true → stops r = true) : Disciplined stops' limit' cs h where
  begun_prefix := hd.begun_prefix
  ended_inFlight := hd.ended_inFlight
  inFlight_le past hp := Nat.le_trans (hd.inFlight_le past hp) hl
  began_unstopped past c hp d r hr := by
    have h := hd.began_unstopped past c hp d r hr
    by_contra hn
    rw [hs r (by simpa using hn)] at h
    cases h

namespace Dispatch

variable {stops : ρ → Bool} {may : Chunk α → ρ → Prop} {limit : Nat} {cs : List (Chunk α)}
  {h : History α ρ} {d : Dispatch α ρ}

/-- **Every history is disciplined.** -/
theorem Follows.disciplined (hf : Follows stops may (start limit cs) h d)
    (hcs : (cs.map (·.index)).Nodup) : Disciplined stops limit cs h where
  begun_prefix past hp := by
    obtain ⟨_, hf⟩ := hf.past hp
    exact ⟨_, (hf.consistent hcs).begun_pending⟩
  ended_inFlight past c r hp := by
    obtain ⟨_, hf⟩ := hf.past hp
    obtain ⟨d', hf, hc⟩ := hf.last_ended
    rw [(hf.consistent hcs).inFlight_eq]
    exact hc
  inFlight_le past hp := by
    obtain ⟨d', hf⟩ := hf.past hp
    rw [(hf.consistent hcs).inFlight_eq]
    exact (hf.consistent hcs).flying_le
  began_unstopped past c hp e r he := by
    obtain ⟨_, hf⟩ := hf.past hp
    obtain ⟨d', hf, hn⟩ := hf.last_began
    obtain ⟨-, ha, -⟩ := next?_eq_some hn
    rw [(hf.consistent hcs).aborted_eq, List.any_eq_false] at ha
    simpa using ha _ (History.mem_endings.2 he)

/-- What holds where one chunk is written at a time. -/
structure InOrder (stops : ρ → Bool) (h : History α ρ) (d : Dispatch α ρ) : Prop where
  begun_eq : h.begun = h.endings.map (·.1) ++ d.flying
  unstopped : d.flying ≠ [] → ∀ e ∈ h.endings, stops e.2 = false
  stopped_last : ∀ before e, h.endings = before ++ [e] → ∀ e' ∈ before, stops e'.2 = false

/-- **One at a time, chunks end in their order, and only the last outcome may stop the
    write.** -/
theorem Follows.inOrder (hf : Follows stops may (start 1 cs) h d)
    (hcs : (cs.map (·.index)).Nodup) : InOrder stops h d := by
  induction hf with
  | nil => exact ⟨rfl, nofun, fun before e h => by simp [History.endings] at h⟩
  | @began h d c d' hf hn ih =>
    have hd := hf.consistent hcs
    obtain ⟨-, ha, hl, he⟩ := next?_eq_some hn
    rw [hd.aborted_eq, List.any_eq_false] at ha
    have hnone : d.flying = [] := by
      rw [hd.limit_eq] at hl
      exact List.length_eq_zero_iff.1 (by omega)
    rw [he, hnone]
    refine ⟨?_, fun _ e h => ?_, fun before e h => ?_⟩
    · simp [ih.begun_eq, hnone]
    · rw [History.endings_append_began] at h
      simpa using ha e h
    · rw [History.endings_append_began] at h
      exact ih.stopped_last before e h
  | @ended h d c r hf hc _ ih =>
    have hd := hf.consistent hcs
    have hone : d.flying = [c] := by
      have hlen := Nat.le_antisymm hd.flying_le (List.length_pos_of_mem hc)
      obtain ⟨a, ha⟩ := List.length_eq_one_iff.1 hlen
      rw [ha] at hc ⊢
      rw [List.mem_singleton.1 hc]
    have hnil : (d.finish c r (stops r)).flying = [] := by simp [finish, hone]
    refine ⟨?_, fun h => absurd hnil h, fun before e h => ?_⟩
    · simp [ih.begun_eq, hone, hnil]
    · rw [History.endings_append_ended] at h
      obtain ⟨rfl, -⟩ := List.append_inj' h rfl
      exact ih.unstopped (hone ▸ List.cons_ne_nil _ _)

end Dispatch

end VectorStore.Batch
