/-
  Metrics of similarity.

  The canonical metrics have one name each; `Metric.ofValue` takes a document that is such a
  name and refuses all others.
-/
import VectorStore.Error

namespace VectorStore

/-- How two vectors are compared. -/
inductive Metric where
  | cosine
  | euclidean
  | dotproduct
deriving DecidableEq, Repr

namespace Metric

/-- The canonical name. -/
def name : Metric → String
  | cosine => "cosine"
  | euclidean => "euclidean"
  | dotproduct => "dotproduct"

/-- The metrics in the order in which they are listed and tried. -/
def all : List Metric := [cosine, euclidean, dotproduct]

theorem mem_all (m : Metric) : m ∈ all := by cases m <;> simp [all]

/-- The metric of the given name. -/
def ofName? (name : String) : Option Metric := all.find? (·.name == name)

theorem ofName?_name (m : Metric) : ofName? m.name = some m := by cases m <;> decide

/-- The canonical names. -/
def names : List String := all.map name

/-- The refusal of a document that names no metric. -/
def refusal (v : Value) : Failure :=
  .showing v (.of .validation ("metric must be one of: " ++ ", ".intercalate names)
    [("metric", .text v.quoted)])

/-- The metric that a document names. -/
def ofValue (v : Value) : Except Failure Metric :=
  match v with
  | .text s => match ofName? s with
    | some m => .ok m
    | none => .error (refusal v)
  | _ => .error (refusal v)

end Metric

end VectorStore
