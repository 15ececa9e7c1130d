/-
  Guided tours.

  A tour works on a store in memory and prints what it does: `lifecycle` goes through the
  life of an index, `filters` through metadata filters and their SQL, and `deadlines`
  through deadlines and metrics.
-/
import VectorStore.Console.Layout
import VectorStore.Console.Measurement
import VectorStore.Memory.Store
import VectorStore.Store.Correlation

namespace VectorStore.Console

/-- The state of a tour: a session and what was printed. -/
abbrev Stage := Session Memory.State × String

/-- A part of a tour. -/
abbrev Tour (α : Type) := Task Stage Failure α

namespace Tour

/-- Prints a text. -/
def print (text : String) : Tour Unit := .modify fun s => (s.1, s.2 ++ text)

/-- Prints a text and ends the line. -/
def printLine (text : String) : Tour Unit := print (text ++ "\n")

/-- Prints named values. -/
def printPairs (items : List (String × Value)) (indent : Int := defaultIndent) : Tour Unit := do
  print (← .ofExcept ((pairs indent items).mapError .fault))

/-- Prints matches. -/
def printHits (found : List Match) : Tour Unit := do
  let lines ← .ofExcept ((found.mapM fun m =>
    hit defaultIndent m.id m.score (.object m.metadata)).mapError .fault)
  print (String.join lines)

/-- The lines of what was measured, and the session without it. -/
def reportMeasurements : Tour Unit := do
  let s ← Task.get
  let lines ← .ofExcept
    ((s.1.events.mapM fun e => (Measurement.ofEvent e).line defaultExtras).mapError .fault)
  .modify fun s => ({ s.1 with events := [] }, s.2 ++ String.join lines)

/-- An operation of the store. -/
def act (t : Task (Session Memory.State) Failure α) : Tour α := t.onFirst

/-- An operation of the store whose measurements are printed as they are taken. -/
def actMeasured (t : Task (Session Memory.State) Failure α) : Tour α := do
  let outcome ← t.onFirst.attempt
  reportMeasurements
  .ofExcept outcome

/-- What is done about a store error of a category; other failures are passed on. -/
def onError (category : Category) (t : Tour Unit) (handler : StoreError → Tour Unit) : Tour Unit :=
  t.recover fun f =>
    match f.storeError? with
    | some e => if e.category.lineage.contains category then handler e else .fail f
    | none => .fail f

/-- A context with generated correlation. -/
def newContext (options : Fields) : Tour Context := do
  let s ← Task.get
  let (ctx, drawn) ← .ofExcept ((Context.generate options s.1.now s.1.drawn).mapError .fault)
  .modify fun s => ({ s.1 with drawn := drawn }, s.2)
  return ctx

/-- Texts as a document. -/
def texts (ss : List String) : Value := .list (ss.map .text)

/-- A vector with integers for coordinates as a document. -/
def whole (ns : List Int) : Value := .list (ns.map .int)

/-- A store in memory. -/
def storeOf (config : Config) : Store Memory.State := ⟨Memory.backend "memory", config⟩

/-! ## The life of an index -/

/-- Creates an index, writes to it, queries it and drops it. -/
def lifecycle (columns : Int) : Tour Unit := do
  print (box columns boxFill "Vector ex01: Index lifecycle")
  let st := storeOf .default
  let name : Value := .text "ex01"
  let ctx ← newContext
    [("timeout_ms", .int 5000), ("attrs", .object [("example", .text "ex01")])]
  act (st.createIndex name (.int 3) (.text "cosine") ctx)
  onError .conflict (act (st.createIndex name (.int 3) (.text "cosine") ctx)) fun e =>
    printPairs [("duplicate_create", .text "EXPECTED"), ("code", .text e.code)]
  let ids ← act (st.upsert name
    (.list [whole [1, 0, 0], whole [0, 1, 0], .list [.float 0.7, .float 0.7, .int 0]])
    (.list [.object [("label", .text "x")], .object [("label", .text "y")], .null])
    (.list [.text "x", .text "y", .null]) ctx)
  printPairs [("ids", texts ids)]
  let d ← act (st.describeIndex name ctx)
  printPairs [("dimension", .int d.dimension), ("metric", .text d.metric.name),
    ("count", .int d.count)]
  printHits (← act (st.query name (.ofVector [0.9, 0.1, 0.0]) (.int 2) .null (.bool true) ctx))
  printPairs [("indexes", texts (← act (st.listIndexes ctx)))]
  act (st.deleteIndex name ctx)
  onError .notFound (do let _ ← act (st.describeIndex name ctx)) fun e =>
    printPairs [("after_delete", .text "EXPECTED"), ("code", .text e.code)]
  printLine
    "\n[lesson] ex01: one contract for the whole lifecycle; ids come back in input order."

/-! ## Metadata filters -/

/-- The records of the tour of filters. -/
def shoes : List Record :=
  [⟨"shoe-1", [1.0, 0.0],
      [("brand", .text "acme"), ("price", .int 40), ("tags", texts ["running"])]⟩,
    ⟨"shoe-2", [0.9, 0.1],
      [("brand", .text "acme"), ("price", .int 120), ("tags", texts ["trail", "running"])]⟩,
    ⟨"shoe-3", [0.8, 0.2], [("brand", .text "zeta"), ("price", .int 60)]⟩]

/-- A condition on a field. -/
def comparing (operator : String) (v : Value) : Value :=
  .object [("operator", .text operator), ("value", v)]

/-- The filters of the tour with their titles. -/
def shoeFilters : List (String × Value) :=
  [("brand == acme", .object [("brand", .text "acme")]),
    ("price < 100", .object [("price", comparing "lt" (.int 100))]),
    ("zeta OR price <= 40", .object [("$or", .list [.object [("brand", .text "zeta")],
      .object [("price", comparing "lte" (.int 40))]])]),
    ("tags contains trail", .object [("tags", comparing "contains" (texts ["trail"]))])]

/-- Queries with a filter and prints the filter's SQL. -/
def showFilter (st : Store Memory.State) (name : Value) (title : String) (filter : Value) :
    Tour Unit := do
  printLine ("\n" ++ title)
  printHits (← act (st.query name (.ofVector [1.0, 0.0]) (.int 3) filter (.bool false) none))
  let c ← .ofExcept ((Filter.compile filter 2).mapError Filter.Refusal.failure)
  printPairs [("sql", .text c.sql), ("params", .list (c.bindings.map (·.value)))] 4

/-- Queries with several filters, the last of which is malformed. -/
def filters (columns : Int) : Tour Unit := do
  print (box columns boxFill "Vector ex02: Filters")
  let st := storeOf .default
  let name : Value := .text "ex02"
  act (st.createIndex name (.int 2) (.text "cosine") none)
  let _ ← act (st.upsert name (.list (shoes.map fun r => .ofVector r.vector))
    (.list (shoes.map fun r => .object r.metadata)) (texts (shoes.map (·.id))) none)
  let parts := shoeFilters.map fun f => showFilter st name f.1 f.2
  parts.foldl (fun before part => before.andThen fun _ => part) (Task.ret ())
  let malformed : Value := .object [("price", comparing "regex" (.text ".*"))]
  let bad : Tour Unit := do
    let _ ← act (st.query name (.ofVector [1.0, 0.0]) (.int 10) malformed (.bool false) none)
  onError .validation bad fun e =>
    printPairs [("bad_operator", .text "EXPECTED"), ("message", .text e.message)]
  printLine
    "\n[lesson] ex02: one filter language, enforced locally here and as bound SQL on pgvector."

/-! ## Deadlines and metrics -/

/-- Runs out of time, then writes in chunks and queries with every measurement printed. -/
def deadlines (columns : Int) : Tour Unit := do
  print (box columns boxFill "Vector ex03: Deadlines & metrics")
  let st := storeOf { Config.default with batchSize := 2 }
  let name : Value := .text "ex03"
  let s ← Task.get
  let late ← newContext [("deadline_ms", .int (s.1.now - 1))]
  onError .deadlineExceeded
    (actMeasured (st.createIndex name (.int 2) (.text "cosine") late)) fun e =>
      printPairs [("preflight_deadline", .text "EXPECTED"), ("details", .object e.details)]
  let ctx ← newContext [("timeout_ms", .int 2000)]
  let s ← Task.get
  let remaining ← .ofExcept ((ctx.budget s.1.now).mapError .fault)
  printPairs [("budget_ms", remaining)]
  actMeasured (st.createIndex name (.int 2) (.text "cosine") ctx)
  let report ← actMeasured (st.upsertWithReport name
    (.list [whole [1, 0], whole [0, 1], whole [1, 1], .ofVector [0.5, 0.5], .ofVector [0.2, 0.8]])
    .null (texts ["a", "b", "c", "d", "e"]) ctx)
  printPairs [("ids", texts report.ids), ("chunks", .int report.chunks),
    ("failures", .list (report.failures.map .object))]
  let _ ← actMeasured (st.query name (whole [1, 0]) (.int 2) .null (.bool false) ctx)
  printLine
    "\n[lesson] ex03: budgets are checked before any I/O; metrics never see vectors or ids."

end Tour

/-- The tours by name. -/
def tours : List (String × (Int → Tour Unit)) :=
  [("ex01_index_lifecycle", Tour.lifecycle), ("ex02_filters", Tour.filters),
    ("ex03_deadlines_metrics", Tour.deadlines)]

/-- What a tour prints on a console of the given number of columns. -/
def transcript (columns : Int) (tour : Int → Tour Unit) : Except Failure String :=
  let start : Stage := (.start [] Session.takesAll, "")
  match (tour columns).run start with
  | (.ok _, s) => .ok s.2
  | (.error f, _) => .error f

end VectorStore.Console
