/-
  Ranking matches.

  The most similar matches come first, equally similar ones in the order in which they were
  found (`sortDescending`).  A score that is not a number is neither above nor below any
  other, so with such scores there is no order to sort by; the matches then end up where the
  merging of runs leaves them (`Sort.powersort`).
-/
import VectorStore.Sort.Powersort
import VectorStore.Store.Backend

namespace VectorStore.Store

variable {α : Type}

/-- The items in descending order of a measure; items of equal measure keep their order. -/
def sortDescending (higher : α → α → Bool) (items : List α) : List α :=
  items.mergeSort fun a b => !higher b a

/-! ## Matches -/

/-- Whether the score of a match is a number. -/
def isRanked (m : Match) : Bool := m.score == m.score

/-- The matches, the most similar first. -/
def ranked (found : List Match) : List Match :=
  if found.all isRanked then sortDescending (fun a b => b.score < a.score) found
  else (Sort.powersort (fun a b => a.score < b.score) found.reverse).reverse

/-- The most similar matches, the most similar first. -/
def topMatches (n : Nat) (found : List Match) : List Match := (ranked found).take n

end VectorStore.Store
