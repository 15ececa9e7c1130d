/-
  Remembered metrics.

  A service does not say with every answer by which metric it ranked.  An adapter asks once
  for each index and remembers the metric until the index is dropped.
-/
import VectorStore.Error.Report
import VectorStore.Metric
import VectorStore.Task

namespace VectorStore

/-- The metrics of a service's indexes as far as they are known, beside the service. -/
structure Known (S : Type) where
  metrics : List (String × Metric)
  service : S

namespace Known

variable {S ε α : Type}

/-- Nothing is known yet. -/
def start (service : S) : Known S := ⟨[], service⟩

/-- A task of the service. -/
def ofService (t : Task S ε α) : Task (Known S) ε α :=
  t.zoom Known.service fun s k => { k with service := s }

/-- The metric of an index, if it is known. -/
def metric? (k : Known S) (name : String) : Option Metric := Fields.get? k.metrics name

/-- Remembers the metric of an index. -/
def remember (name : String) (m : Metric) (k : Known S) : Known S :=
  { k with metrics := Fields.put k.metrics name m }

/-- Forgets the metric of an index. -/
def forget (name : String) (k : Known S) : Known S :=
  { k with metrics := Fields.erase k.metrics name }

theorem metric?_remember (k : Known S) (name : String) (m : Metric) :
    (k.remember name m).metric? name = some m :=
  Fields.get?_put_self k.metrics name m

theorem metric?_remember_of_ne (k : Known S) {name other : String} (m : Metric)
    (h : other ≠ name) : (k.remember name m).metric? other = k.metric? other :=
  Fields.get?_put_of_ne k.metrics m h

theorem metric?_forget (k : Known S) (name : String) : (k.forget name).metric? name = none :=
  Fields.get?_erase_self k.metrics name

theorem metric?_forget_of_ne (k : Known S) {name other : String} (h : other ≠ name) :
    (k.forget name).metric? other = k.metric? other :=
  Fields.get?_erase_of_ne k.metrics h

end Known

end VectorStore
