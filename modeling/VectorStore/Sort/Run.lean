/-
  Runs: sorted stretches of a list.

  A list is cut into runs before they are merged.  A run is what the list begins with in
  order, a strictly descending beginning turned around (`firstRun`); one that is too short
  takes in the items behind it, each put in its place by halving (`insertByHalving`).

  Only `below` decides, and it need not be an order: where two items are not comparable, the
  place of an item depends on which items it is compared with.
-/
namespace VectorStore.Sort

variable {α : Type}

/-- The item in its place among sorted ones, behind all that it is not below; the place is
    found by halving. -/
def insertByHalving (below : α → α → Bool) (x : α) (items : List α) : List α :=
  match h : items.drop (items.length / 2) with
  | [] => [x]
  | y :: rest =>
    have : (items.drop (items.length / 2)).length = rest.length + 1 := by rw [h]; rfl
    if below x y then
      insertByHalving below x (items.take (items.length / 2)) ++ y :: rest
    else
      items.take (items.length / 2) ++ y :: insertByHalving below x rest
termination_by items.length
decreasing_by
  · simp only [List.length_take, List.length_drop] at *
    omega
  · simp only [List.length_drop] at *
    omega

/-- The items up to the first for which `goesOn` fails with the item before it, `x` standing
    before all of them, and the items from there on. -/
def stretch (goesOn : α → α → Bool) (x : α) : List α → List α × List α
  | [] => ([], [])
  | y :: items =>
    if goesOn x y then
      let (more, rest) := stretch goesOn y items
      (y :: more, rest)
    else ([], y :: items)

/-- The sorted items that the list begins with, a descending beginning turned around, and
    the items behind them. -/
def firstRun (below : α → α → Bool) : List α → List α × List α
  | x :: y :: items =>
    if below y x then
      let (more, rest) := stretch (fun a b => below b a) x (y :: items)
      ((x :: more).reverse, rest)
    else
      let (more, rest) := stretch (fun a b => !below b a) x (y :: items)
      (x :: more, rest)
  | items => (items, [])

/-- The first run, with at least `least` items if there are as many, and the items behind
    it. -/
def longRun (below : α → α → Bool) (least : Nat) (items : List α) : List α × List α :=
  let (run, rest) := firstRun below items
  let missing := least - run.length
  ((rest.take missing).foldl (fun acc x => insertByHalving below x acc) run, rest.drop missing)

/-! ## Nothing is lost -/

theorem stretch_append (goesOn : α → α → Bool) (x : α) (items : List α) :
    (stretch goesOn x items).1 ++ (stretch goesOn x items).2 = items := by
  induction items generalizing x with
  | nil => rfl
  | cons y items ih =>
    rw [stretch]
    split
    · simp [ih y]
    · rfl

theorem length_firstRun (below : α → α → Bool) (items : List α) :
    (firstRun below items).1.length + (firstRun below items).2.length = items.length := by
  match items with
  | [] => rfl
  | [_] => rfl
  | x :: y :: items =>
    have lengths (goesOn : α → α → Bool) :=
      congrArg List.length (stretch_append goesOn x (y :: items))
    simp only [List.length_append, List.length_cons] at lengths
    rw [firstRun]
    split
    · have := lengths fun a b => below b a
      simp only [List.length_reverse, List.length_cons]
      omega
    · have := lengths fun a b => !below b a
      simp only [List.length_cons]
      omega

theorem firstRun_ne_nil (below : α → α → Bool) (x : α) (items : List α) :
    (firstRun below (x :: items)).1 ≠ [] := by
  match items with
  | [] => simp [firstRun]
  | y :: items => rw [firstRun]; split <;> simp

/-- A run is never empty, so what is behind it is shorter than the list. -/
theorem length_longRun_lt (below : α → α → Bool) (least : Nat) (x : α) (items : List α) :
    (longRun below least (x :: items)).2.length < (x :: items).length := by
  have h := length_firstRun below (x :: items)
  have pos := List.length_pos_iff.2 (firstRun_ne_nil below x items)
  simp only [longRun, List.length_drop]
  omega

end VectorStore.Sort
