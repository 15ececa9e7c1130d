import VectorStore.Batch.Chunk
import VectorStore.Batch.Dispatch
import VectorStore.Batch.Upsert
import VectorStore.Console.Layout
import VectorStore.Console.Measurement
import VectorStore.Console.Tour
import VectorStore.Digest.Sha1
import VectorStore.Error
import VectorStore.Error.Category
import VectorStore.Error.Fault
import VectorStore.Error.Report
import VectorStore.Filter
import VectorStore.Filter.Condition
import VectorStore.Filter.Operator
import VectorStore.Filter.Path
import VectorStore.Filter.Refusal
import VectorStore.Filter.Sql
import VectorStore.Json.Reader
import VectorStore.Json.Writer
import VectorStore.Main
import VectorStore.Memory.Containment
import VectorStore.Memory.Document
import VectorStore.Memory.Like
import VectorStore.Memory.Match
import VectorStore.Memory.Score
import VectorStore.Memory.Store
import VectorStore.Metric
import VectorStore.Metric.Mapper
import VectorStore.Metric.Similarity
import VectorStore.Number.Binary
import VectorStore.Number.Decimal
import VectorStore.Number.Layout
import VectorStore.Number.Reader
import VectorStore.Number.Shortest
import VectorStore.Postgres.Bound
import VectorStore.Postgres.Diagnosis
import VectorStore.Postgres.Literal
import VectorStore.Postgres.Settings
import VectorStore.Postgres.Statement
import VectorStore.Postgres.Store
import VectorStore.Qdrant.Clause
import VectorStore.Qdrant.Diagnosis
import VectorStore.Qdrant.PointId
import VectorStore.Qdrant.Settings
import VectorStore.Qdrant.Store
import VectorStore.Rehearsal.Condition
import VectorStore.Rehearsal.Memory
import VectorStore.Rehearsal.Postgres
import VectorStore.Rehearsal.Qdrant
import VectorStore.Rehearsal.Rule
import VectorStore.Rehearsal.Vectorize
import VectorStore.Rehearsal.Writing
import VectorStore.Sort.Merge
import VectorStore.Sort.Powersort
import VectorStore.Sort.Run
import VectorStore.Store.Backend
import VectorStore.Store.Config
import VectorStore.Store.Context
import VectorStore.Store.Correlation
import VectorStore.Store.Known
import VectorStore.Store.Operations
import VectorStore.Store.Polling
import VectorStore.Store.Ranking
import VectorStore.Store.Record
import VectorStore.Store.Session
import VectorStore.Store.Wire
import VectorStore.Task
import VectorStore.Task.Agenda
import VectorStore.Task.SideBySide
import VectorStore.Task.Turnstile
import VectorStore.Text.Blank
import VectorStore.Text.Digit
import VectorStore.Text.Fold
import VectorStore.Text.Printable
import VectorStore.Text.Quoted
import VectorStore.Text.Range
import VectorStore.Text.Search
import VectorStore.Text.Word
import VectorStore.Time
import VectorStore.Uuid
import VectorStore.Value
import VectorStore.Value.Coercion
import VectorStore.Value.Printed
import VectorStore.Vectorize.Diagnosis
import VectorStore.Vectorize.Ndjson
import VectorStore.Vectorize.Settings
import VectorStore.Vectorize.Store
import VectorStore.Proofs.Filter.Compilation
import VectorStore.Proofs.Filter.Document
import VectorStore.Proofs.Filter.Placeholders
import VectorStore.Proofs.Filter.Reading
import VectorStore.Proofs.Filter.Skeleton
import VectorStore.Proofs.Filter.Meaning
import VectorStore.Proofs.Postgres.Acceptance
import VectorStore.Proofs.Postgres.Query
import VectorStore.Proofs.Task.Contents
import VectorStore.Proofs.Batch.History
import VectorStore.Proofs.Batch.Pieces
import VectorStore.Proofs.Task.Steps
import VectorStore.Proofs.Task.Erasure
import VectorStore.Proofs.Task.Lanes
import VectorStore.Proofs.Batch.Noted
import VectorStore.Proofs.Batch.Writers
import VectorStore.Proofs.Batch.Placement
import VectorStore.Proofs.Batch.Calls
import VectorStore.Proofs.Batch.Answers
import VectorStore.Proofs.Batch.Failures
import VectorStore.Proofs.Task.AtOnce
import VectorStore.Proofs.Batch.InTurn
import VectorStore.Proofs.Store.Refusals
import VectorStore.Proofs.Store.Runs
import VectorStore.Proofs.Store.Records
import VectorStore.Proofs.Store.Calls
import VectorStore.Proofs.Memory.Records
import VectorStore.Proofs.Memory.Writes
import VectorStore.Proofs.Memory.Calls
import VectorStore.Proofs.Memory.Atomicity
import VectorStore.Proofs.Memory.Inserts
import VectorStore.Proofs.Memory.Invariant
import VectorStore.Proofs.Filter.Atoms
import VectorStore.Proofs.Postgres.Selection
import VectorStore.Proofs.Memory.Agreement
import VectorStore.Proofs.Store.Ranking
import VectorStore.Proofs.Store.Queries
import VectorStore.Proofs.Task.Views
import VectorStore.Proofs.Store.Sinks
import VectorStore.Proofs.Memory.Search
import VectorStore.Proofs.Store.Deadlines
import VectorStore.Proofs.Store.Arguments
import VectorStore.Proofs.Store.Passage
import VectorStore.Proofs.Store.Noted
import VectorStore.Proofs.Store.Gate
import VectorStore.Proofs.Batch.Conduct
import VectorStore.Proofs.Store.Clients
import VectorStore.Proofs.Qdrant.Clauses
import VectorStore.Proofs.Qdrant.Points
import VectorStore.Proofs.Postgres.Metrics
import VectorStore.Proofs.Store.Blocks
import VectorStore.Proofs.Memory.Evaluation
import VectorStore.Proofs.Qdrant.Remembered
import VectorStore.Proofs.Store.Wire
import VectorStore.Proofs.Store.OnTime
import VectorStore.Proofs.Qdrant.Containment
import VectorStore.Proofs.Filter.ArrayLiterals
import VectorStore.Proofs.Batch.Rejections
import VectorStore.Proofs.Memory.Absence
import VectorStore.Proofs.Filter.Spelling
import VectorStore.Proofs.Postgres.Names
import VectorStore.Proofs.Postgres.Operands
import VectorStore.Proofs.Postgres.Literals
import VectorStore.Proofs.Store.Diagnoses
import VectorStore.Proofs.Memory.Wildcards
import VectorStore.Proofs.Memory.Choices
import VectorStore.Proofs.Store.Best
import VectorStore.Proofs.Store.Distances
import VectorStore.Proofs.Store.Polling
import VectorStore.Proofs.Json.Lines
import VectorStore.Proofs.Filter.Paths
import VectorStore.Proofs.Mapper
import VectorStore.Proofs.Store.Alignment
