/-
  Similarities from the numbers that services report.

  Higher means more similar.  A distance `d` becomes `1 / (1 + d)`, negative ones counting
  as zero; the other conversions are linear.  All are antitone in the distance, so rows in
  ascending order of distance have descending similarities.  They are stated for any type of
  numbers with the operations they use.
-/
import VectorStore.Metric

namespace VectorStore

section

variable {α : Type} [OfNat α 0] [OfNat α 1] [Add α] [Sub α] [Neg α] [Div α]

/-- The larger of zero and `x`. -/
def atLeastZero [LT α] [DecidableRel (α := α) (· < ·)] (x : α) : α := if 0 < x then x else 0

/-- The similarity of a distance. -/
def ofDistance [LT α] [DecidableRel (α := α) (· < ·)] (d : α) : α := 1 / (1 + atLeastZero d)

/-- The similarity of a distance that the database's operator for the metric gives: cosine
    distance, euclidean distance, or negated inner product. -/
def ofOperator [LT α] [DecidableRel (α := α) (· < ·)] (m : Metric) (d : α) : α :=
  match m with
  | .cosine => 1 - d
  | .euclidean => ofDistance d
  | .dotproduct => -d

/-- The similarity of a score that is a distance for the euclidean metric only. -/
def ofScore [LT α] [DecidableRel (α := α) (· < ·)] (m : Metric) (s : α) : α :=
  match m with
  | .euclidean => ofDistance s
  | _ => s

end

end VectorStore
