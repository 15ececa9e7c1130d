/-
  Tasks side by side.

  Several tasks (`Lane`s) share one state and take turns.  A lane whose turn has come goes on
  until it waits again.  One that waits for a time is entered in an agenda; one that waits
  for a state of things gets in line once that state holds.  Whoever can go on stands in one
  line and goes on in that order; time passes only when nobody stands in it.

  A deadline is an entry of the agenda like any other.  When its turn comes every lane is cut
  short where it waits.  Lanes that were ahead of it in the line have gone on by then, but
  for all of them to have ended is not enough: the deadline must not stand in the line any
  more.

  `sideBySide` ends because a turn leaves less of its lane; `Ahead` is the well-founded
  relation behind this.
-/
import VectorStore.Task
import VectorStore.Task.Agenda

namespace VectorStore.Task

variable {σ ε α : Type}

/-- One of several tasks that go on side by side. -/
abbrev Lane (σ : Type) := Task σ Empty Unit

/-! ## Turns of a lane -/

/-- The task `r` is where `t` waits next or ends. -/
inductive Reaches (r : Lane σ) : Lane σ → Prop where
  | here : Reaches r r
  | read {next : σ → Lane σ} (s : σ) : Reaches r (next s) → Reaches r (.read next)
  | write {s : σ} {next : Lane σ} : Reaches r next → Reaches r (.write s next)

/-- The task up to its next wait or its end, and from there what `k` makes of the rest. -/
def upToWait : (t : Lane σ) → ((r : Lane σ) → Reaches r t → Task σ ε α) → Task σ ε α
  | .read next, k => .read fun s => (next s).upToWait fun r h => k r (.read s h)
  | .write s next, k => .write s (next.upToWait fun r h => k r (.write h))
  | .done r, k => k (.done r) .here
  | .wait u abandon next, k => k (.wait u abandon next) .here

/-- The lane `r` is what a turn leaves of the lane `t`. -/
inductive Shorter (r : Lane σ) : Lane σ → Prop where
  | turn {u : Until σ} {abandon : σ → σ} {next : Lane σ} :
      Reaches r next → Shorter r (.wait u abandon next)

theorem acc_of_reaches (t : Lane σ) : ∀ r, Reaches r t → Acc Shorter r := by
  have atEnd {t : Lane σ} (h : ∀ r, ¬Shorter r t) : Acc Shorter t :=
    ⟨_, fun r hr => absurd hr (h r)⟩
  induction t with
  | done e =>
    intro r h
    cases h
    exact atEnd fun _ h => nomatch h
  | read next ih =>
    intro r h
    cases h with
    | here => exact atEnd fun _ h => nomatch h
    | read s h => exact ih s r h
  | write s next ih =>
    intro r h
    cases h with
    | here => exact atEnd fun _ h => nomatch h
    | write h => exact ih r h
  | wait u abandon next ih =>
    intro r h
    cases h
    exact ⟨_, fun r hr => by cases hr with | turn h => exact ih r h⟩

/-- In the lanes `rs` one of the lanes `ts` had a turn. -/
inductive Ahead : List (Lane σ) → List (Lane σ) → Prop where
  | head {r t : Lane σ} {ts : List (Lane σ)} : Shorter r t → Ahead (r :: ts) (t :: ts)
  | tail {t : Lane σ} {rs ts : List (Lane σ)} : Ahead rs ts → Ahead (t :: rs) (t :: ts)

theorem acc_cons {t : Lane σ} {ts : List (Lane σ)} (ht : Acc Shorter t) (hts : Acc Ahead ts) :
    Acc Ahead (t :: ts) := by
  induction ht generalizing ts with
  | intro t _ iht =>
    induction hts with
    | intro ts hts ihts =>
      refine ⟨_, fun rs h => ?_⟩
      cases h with
      | head h => exact iht _ h ⟨ts, hts⟩
      | tail h => exact ihts _ h

theorem acc_lanes (ts : List (Lane σ)) : Acc Ahead ts := by
  induction ts with
  | nil => exact ⟨_, fun _ h => nomatch h⟩
  | cons t ts ih => exact acc_cons (acc_of_reaches t t .here) ih

theorem ahead_set {r t : Lane σ} (h : Shorter r t) :
    ∀ {ts : List (Lane σ)} {i : Nat}, ts[i]? = some t → Ahead (ts.set i r) ts
  | t' :: ts, 0, hi => by
    cases hi
    exact .head h
  | t' :: ts, i + 1, hi => .tail (ahead_set h (by simpa using hi))

/-- Lanes, in the order of how far they have come. -/
structure Lanes (σ : Type) where
  lanes : List (Lane σ)

instance : WellFoundedRelation (Lanes σ) where
  rel a b := Ahead a.lanes b.lanes
  wf := InvImage.wf Lanes.lanes ⟨acc_lanes⟩

/-! ## The line -/

/-- Whose turn it is. -/
inductive Turn (ε : Type) where
  | lane (i : Nat)
  /-- the deadline's, with the failure of being late -/
  | deadline (late : ε)

/-- Whether the lane has ended. -/
def hasEnded : Lane σ → Bool
  | .done _ => true
  | _ => false

/-- Whether the state that a lane waits for holds. -/
def isWoken (s : σ) : Option (Lane σ) → Bool
  | some (.wait (.holds condition) _ _) => condition s
  | _ => false

/-- The state after all lanes were cut short where they wait. -/
def abandonAll (lanes : List (Lane σ)) (s : σ) : σ :=
  lanes.foldl (fun s t => match t with
    | .wait _ abandon _ => abandon s
    | _ => s) s

/-- The lanes side by side, all of which wait or have ended.  The wait of those that stand in
    `line` is over; `agenda` has those that wait for a time and the deadline, `parked` those
    that wait for a state of things. -/
def goOn [Clocked σ] (lanes : List (Lane σ)) (line : List (Turn ε)) (agenda : Agenda (Turn ε))
    (parked : List Nat) : Task σ ε Unit :=
  match line with
  | [] =>
    if lanes.all hasEnded then ret ()
    else match h : agenda.popDue? with
      | none => ret ()
      | some (time, line, agenda) =>
        have := Agenda.size_popDue h
        .wait (.reached time) (abandonAll lanes) (goOn lanes line agenda parked)
  | .deadline late :: _ => failAfter (abandonAll lanes) late
  | .lane i :: line =>
    match h : lanes[i]? with
    | some (.wait _ _ next) =>
      next.upToWait fun rest hr => .read fun s =>
        have := ahead_set (.turn hr) h
        let lanes := lanes.set i rest
        let (woken, parked) := parked.partition fun j => isWoken s lanes[j]?
        let line := line ++ woken.map .lane
        match rest with
        | .wait u _ _ =>
          match u.due? (Clocked.clock s) with
          | some time => goOn lanes line (agenda.push time (.lane i)) parked
          | none =>
            if isWoken s (some rest) then goOn lanes (line ++ [.lane i]) agenda parked
            else goOn lanes line agenda (parked ++ [i])
        | _ => goOn lanes line agenda parked
    | _ => goOn lanes line agenda parked
termination_by ((⟨lanes⟩ : Lanes σ), 2 * agenda.size + line.length)
decreasing_by
  · exact .right _ (by simp only [List.length_nil]; omega)
  · exact .left _ _ (by assumption)
  · exact .left _ _ (by assumption)
  · exact .left _ _ (by assumption)
  · exact .left _ _ (by assumption)
  · exact .right _ (by simp only [List.length_cons]; omega)

/-- The lanes side by side, each going first in its turn; with a deadline, all are cut short
    when its turn comes. -/
def sideBySide [Clocked σ] (d : Option (Deadline ε)) (lanes : List (Lane σ)) : Task σ ε Unit :=
  let atStart := lanes.map fun t => .wait (.holds fun _ => true) id t
  let agenda := match d with
    | some d => Agenda.empty.push d.time (.deadline d.late)
    | none => .empty
  goOn atStart ((List.range lanes.length).map .lane) agenda []

end VectorStore.Task
