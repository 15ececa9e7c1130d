/-
  A service's own names for the metrics.

  A `Mapper` holds one service's table.  That every metric has a name there and no name
  stands for two metrics is part of the type, so that the two directions undo each other
  (`fromNative_toNative`); `Mapper.ofTable` accepts exactly the tables that have both.
  The tables of the three services close the module.
-/
import VectorStore.Metric

namespace VectorStore

/-- A name that a service gives to a metric: a plain document, or a member of the service's
    own enumeration with its label there. -/
inductive NativeMetric where
  | plain (v : Value)
  | member (label value : String)

namespace NativeMetric

/-- The document that the name stands for. -/
def value : NativeMetric → Value
  | plain v => v
  | member _ v => .text v

/-- The name in messages. -/
def quoted : NativeMetric → String
  | plain v => v.quoted
  | member label v => s!"<{label}: {Text.quoted v}>"

end NativeMetric

/-- One service's names for the metrics. -/
structure Mapper where
  service : String
  table : List (Metric × String)
  complete : ∀ m ∈ Metric.all, (table.lookup m).isSome
  distinct : (table.map (·.2)).Nodup

/-- Why a table is refused. -/
inductive Mapper.Refusal where
  | missing (service : String) (metrics : List Metric)
  | mappedTwice (service : String) (native : String)

/-- The wording of a refusal. -/
def Mapper.Refusal.message : Mapper.Refusal → String
  | missing service metrics =>
    let names := Value.list (metrics.map fun m => .text m.name)
    s!"{service}: metric table is missing {names.quoted}"
  | mappedTwice service native =>
    s!"{service}: native metric {Text.quoted native} is mapped twice"

namespace Mapper

/-- The first name that also stands earlier in the list. -/
def firstRepeated (seen : List String) : List String → Option String
  | [] => none
  | n :: names => if n ∈ seen then some n else firstRepeated (n :: seen) names

theorem nodup_of_firstRepeated {seen names : List String} (h : firstRepeated seen names = none) :
    names.Nodup ∧ ∀ n ∈ names, n ∉ seen := by
  induction names generalizing seen with
  | nil => simp
  | cons n names ih =>
    unfold firstRepeated at h
    split at h
    · simp at h
    · have ⟨hn, hs⟩ := ih h
      refine ⟨List.nodup_cons.2 ⟨fun hm => ?_, hn⟩, fun k hk => ?_⟩
      · exact hs n hm (by simp)
      · rcases List.mem_cons.1 hk with rfl | hk
        · assumption
        · exact fun hm => hs k hk (List.mem_cons_of_mem _ hm)

/-- The metrics without a name in the table. -/
def missingFrom (table : List (Metric × String)) : List Metric :=
  Metric.all.filter fun m => !(table.lookup m).isSome

/-- The mapper of a table, if every metric has a name and no name stands for two. -/
def ofTable (service : String) (table : List (Metric × String)) : Except Refusal Mapper :=
  if hm : missingFrom table = [] then
    match hr : firstRepeated [] (table.map (·.2)) with
    | some native => .error (.mappedTwice service native)
    | none => .ok
      { service, table
        complete := fun m hmem => by
          have := List.filter_eq_nil_iff.1 hm m hmem
          simpa using this
        distinct := (nodup_of_firstRepeated hr).1 }
  else .error (.missing service (missingFrom table))

/-- The service's name for a metric. -/
def toNative (mapper : Mapper) (m : Metric) : String :=
  (mapper.table.lookup m).get (mapper.complete m (Metric.mem_all m))

/-- The refusal of a name outside the table. -/
def refusal (mapper : Mapper) (native : NativeMetric) : Failure :=
  .showing native.value (.of .validation s!"unrecognized {mapper.service} metric {native.quoted}"
    [("backend", .text mapper.service), ("native", .text native.quoted)])

/-- The metric that a name of the table stands for. -/
def ofName? (mapper : Mapper) (name : String) : Option Metric :=
  (mapper.table.find? (·.2 == name)).map (·.1)

/-- The metric that a service's name stands for. -/
def fromNative (mapper : Mapper) (native : NativeMetric) : Except Failure Metric :=
  match native.value with
  | .text s => match mapper.ofName? s with
    | some m => .ok m
    | none => .error (mapper.refusal native)
  | _ => .error (mapper.refusal native)

theorem ofName?_toNative (mapper : Mapper) (m : Metric) :
    mapper.ofName? (mapper.toNative m) = some m := by
  have hlookup : mapper.table.lookup m = some (mapper.toNative m) := (Option.some_get _).symm
  obtain ⟨before, after, htable, -⟩ := List.lookup_eq_some_iff.1 hlookup
  have hdistinct := mapper.distinct
  rw [htable, List.map_append, List.nodup_append] at hdistinct
  have hbefore : before.find? (·.2 == mapper.toNative m) = none := by
    refine List.find?_eq_none.2 fun p hp hname => ?_
    have hne := hdistinct.2.2 p.2 (List.mem_map_of_mem hp) (mapper.toNative m) (by simp)
    exact hne (by simpa using hname)
  rw [ofName?, htable, List.find?_append, hbefore]
  simp

/-- A metric is read back from the service's name for it. -/
theorem fromNative_toNative (mapper : Mapper) {m : Metric} {native : NativeMetric}
    (h : native.value = .text (mapper.toNative m)) : mapper.fromNative native = .ok m := by
  rw [fromNative, h]
  dsimp only
  rw [ofName?_toNative]

/-- The names that Qdrant uses. -/
def qdrant : Mapper where
  service := "qdrant"
  table := [(.cosine, "Cosine"), (.euclidean, "Euclid"), (.dotproduct, "Dot")]
  complete := by decide
  distinct := by decide

/-- The names that Vectorize uses. -/
def vectorize : Mapper where
  service := "vectorize"
  table := [(.cosine, "cosine"), (.euclidean, "euclidean"), (.dotproduct, "dot-product")]
  complete := by decide
  distinct := by decide

/-- The operator classes by which pgvector encodes a metric in an index. -/
def pgvector : Mapper where
  service := "pgvector"
  table := [(.cosine, "vector_cosine_ops"), (.euclidean, "vector_l2_ops"),
    (.dotproduct, "vector_ip_ops")]
  complete := by decide
  distinct := by decide

/-- The mapper of a service. -/
def ofService? (service : String) : Option Mapper :=
  [qdrant, vectorize, pgvector].find? (·.service == service)

end Mapper

end VectorStore
