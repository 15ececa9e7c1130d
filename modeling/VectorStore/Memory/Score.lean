/-
  Similarity scores of vectors.

  Sums run from the left and stop with the shorter vector.  Cosine and inner product are
  similarities as they are; a euclidean distance `d` becomes `1 / (1 + d)`.
-/
import VectorStore.Metric

namespace VectorStore.Memory

/-- The inner product. -/
def dot (a b : List Float) : Float := (a.zipWith (· * ·) b).foldl (· + ·) 0.0

/-- The length of a vector, one if it has none. -/
def norm (a : List Float) : Float :=
  let n := (dot a a).sqrt
  if n == 0.0 then 1.0 else n

/-- The cosine of the angle between two vectors. -/
def cosine (a b : List Float) : Float := dot a b / (norm a * norm b)

/-- The power that makes a square. -/
def two : Float := 2.0

/-- The square of a number; a finite number whose square is beyond the largest double is a
    fault. -/
def square (x : Float) : Except Fault Float :=
  let y := x.pow two
  if y.isInf && !x.isInf then .error .squareTooLarge else .ok y

/-- The euclidean distance. -/
def distance (a b : List Float) : Except Fault Float := do
  let squares ← (a.zipWith (· - ·) b).mapM square
  return (squares.foldl (· + ·) 0.0).sqrt

/-- The score of two vectors, higher for more similar ones. -/
def score (m : Metric) (a b : List Float) : Except Fault Float :=
  match m with
  | .cosine => .ok (cosine a b)
  | .euclidean => do return 1.0 / (1.0 + (← distance a b))
  | .dotproduct => .ok (dot a b)

/-- The score as a document: a sum without terms is the integer zero. -/
def scoreValue (m : Metric) (a b : List Float) : Except Fault Value := do
  if m = .dotproduct ∧ (a.zip b).isEmpty then return .int 0
  return .float (← score m a b)

end VectorStore.Memory
