/-
  The blocks that a write delivers.

  * `Record.Made` says what the records of a write are made of (`made_buildRecords`);
  * `Delivers`: unless a call fails, a write calls once for each block of its records, each
    call carrying the records of its block as the store encodes them, and returns the ids of all;
  * `delivers_of_sends`: so it is if each writer makes the call for which its chunk stands;
  * `upsert_delivers`: so it is with the three services, whatever the settings; an id without a
    point, which there may be with Qdrant alone, stops the write before its block is sent
    (`upsert_isTooLong`).
-/
import VectorStore.Proofs.Json.Lines
import VectorStore.Proofs.Qdrant.PointIds
import VectorStore.Proofs.Store.Arguments
import VectorStore.Proofs.Store.Clients
import VectorStore.Proofs.Store.Records

namespace VectorStore

/-! ## Records -/

namespace Record

/-- What records are made of: each has the vector of its entry, as doubles, its metadata, an empty
    object if there are none, and the id that is given or the next one of the supply. -/
structure Made (drawn : Nat) (vectors metadata ids : Value) (rs : List Record) : Prop where
  ids_eq : rs.map id = idsFrom drawn (given rs.length ids)
  entries : ∃ vs, vectors = .list vs ∧ vs.length = rs.length ∧
    ∀ (k : Nat) (r : Record), rs[k]? = some r → ∃ xs m, vs[k]? = some (.list xs) ∧
      (given rs.length metadata)[k]? = some m ∧ Value.toFloats xs = .ok r.vector ∧
      (m = .null ∧ r.metadata = [] ∨ m = .object r.metadata)

theorem made_buildRecords {drawn drawn' : Nat} {vectors metadata ids : Value} {rs : List Record}
    (h : buildRecords drawn vectors metadata ids = (.ok rs, drawn')) :
    Made drawn vectors metadata ids rs := by
  refine ⟨map_id_buildRecords h, ?_⟩
  obtain ⟨vs, rfl, -, hlen, hmlen, -, -⟩ := buildRecords_lists h
  refine ⟨vs, rfl, hlen, fun k r hr => ?_⟩
  obtain ⟨hk, -⟩ := List.getElem?_eq_some_iff.1 hr
  have hv : vs[k]? = some vs[k] := List.getElem?_eq_getElem (hlen ▸ hk)
  obtain ⟨m, hm⟩ : ∃ m, (given rs.length metadata)[k]? = some m :=
    ⟨_, List.getElem?_eq_getElem (Nat.lt_of_lt_of_eq hk hmlen.symm)⟩
  obtain ⟨r', hr', hvec, hmeta⟩ := buildRecords_getElem? h hv hm
  rw [hr] at hr'
  cases hr'
  obtain ⟨xs, hxs, -, -, hfloats⟩ := Store.vectorOf_eq_ok_iff.1 hvec
  exact ⟨xs, m, hxs ▸ hv, hm, hfloats, metadataOf_eq_ok_iff.1 hmeta⟩

end Record

/-! ## Deliveries -/

variable {β κ : Type}

/-- Calls that carry records: one for each block of them, as it is encoded. -/
def Carry (encodes : List Record → κ → Prop) (size : Nat) (rs : List Record) (calls : List κ) :
    Prop :=
  ∃ blocks, Batch.Cut size rs blocks ∧ List.Forall₂ encodes blocks calls

/-- Without a deadline a write calls for its records, once for each block, and returns the ids of
    all of them, unless a call fails; or the count of the records is refused, which is a failure
    of the write. -/
def Delivers (st : Store β) (notes : β → List (Note κ)) (encodes : List Record → κ → Prop)
    (size : Nat) (n : String) (vectors metadata ids : Value) (rs : List Record) (s : Session β) :
    Prop :=
  let outcome := (st.upsert (.text n) vectors metadata ids none).run s
  .failed ∉ notes outcome.2.backend →
    (∃ calls, Carry encodes size rs calls ∧
      (notes outcome.2.backend).Perm (notes s.backend ++ calls.map .called)) ∧
    ((∀ events e, e.isCounter = true → s.sink events e = none) →
      outcome.1 = .ok (rs.map Record.id))

/-- The calls for which chunks stand carry the records of the chunks. -/
theorem exists_calls {call? : Batch.Chunk Record → Option κ} {encodes : List Record → κ → Prop} :
    ∀ {cs : List (Batch.Chunk Record)},
      (∀ c ∈ cs, ∃ call, call? c = some call ∧ encodes c.records call) →
        ∃ calls, List.Forall₂ encodes (cs.map (·.records)) calls ∧
          Note.calls call? cs = calls.map .called
  | [], _ => ⟨[], .nil, rfl⟩
  | c :: cs, h => by
    obtain ⟨⟨call, hcall, henc⟩, hcs⟩ := List.forall_mem_cons.1 h
    obtain ⟨calls, hcalls, heq⟩ := exists_calls hcs
    refine ⟨call :: calls, .cons henc hcalls, ?_⟩
    rw [Note.calls, List.filterMap_cons_some (by rw [hcall]; rfl), List.map_cons]
    exact congrArg _ heq

section

variable {notes : β → List (Note κ)} {gate : β → Turnstile} {call? : Batch.Chunk Record → Option κ}
  {encodes : List Record → κ → Prop} {st : Store β} {s : Session β} {n : String}
  {vectors metadata ids : Value} {rs : List Record} {caps : Capabilities} {size : Nat}

/-- **A write delivers its records** if each writer makes the call for which its chunk stands. -/
theorem delivers_of_sends (hn : Text.allBlank n = false)
    (hrs : (Record.buildRecords s.drawn vectors metadata ids).1 = .ok rs)
    (hcaps : st.backend.capabilities = .ret caps)
    (hsize : Store.batchSize st.config caps = (size : Int)) (hpos : 0 < size)
    (hlimit : 0 < st.config.batchMaxConcurrency)
    (hgate : (gate s.backend).returned = (gate s.backend).drawn)
    (hw : ∀ c, Sends notes gate (call? c) (st.backend.upsertChunk n c none))
    (hcall : ∀ c ∈ Batch.chunks size rs, ∃ call, call? c = some call ∧ encodes c.records call) :
    Delivers st notes encodes size n vectors metadata ids rs s := by
  intro hfailed
  have hsome : ∀ c ∈ Batch.chunks size rs, (call? c).isSome := fun c hc => by
    obtain ⟨call, hcall, -⟩ := hcall c hc
    rw [hcall]
    rfl
  obtain ⟨hperm, hids⟩ :=
    Store.upsert_sends hn hrs hcaps hsize hpos hlimit hgate hw hsome hfailed
  obtain ⟨calls, hcalls, heq⟩ := exists_calls hcall
  rw [Batch.records_chunks] at hcalls
  exact ⟨⟨calls, ⟨_, Batch.cut_pieces hpos rs, hcalls⟩, heq ▸ hperm⟩, hids⟩

end

/-! ## Encoders -/

/-- A block as the statement that inserts its rows. -/
def Postgres.Encodes (table : String) (block : List Record) (call : String × List (List Value)) :
    Prop :=
  call.1 = insert table ∧ List.Forall₂ (fun r parameters => row r = .ok parameters) block call.2

/-- A block as the points of its records. -/
def Qdrant.Encodes (name : String) (block : List Record) (call : String × List Point) : Prop :=
  call.1 = name ∧ List.Forall₂ (fun r pt => point r = .ok pt) block call.2

/-- A block as the lines of its records. -/
def Vectorize.Encodes (name : String) (block : List Record) (call : String × String) : Prop :=
  call.1 = name ∧ ndjson (block.map lineOf) = .ok call.2

/-- Whether the metadata of a record have a JSON text. -/
def Record.isWritable (r : Record) : Bool := (Value.object r.metadata).isWritable

theorem Postgres.exists_call {table : String} {c : Batch.Chunk Record}
    (h : ∀ r ∈ c.records, r.isWritable = true) :
    ∃ call, call? table c = some call ∧ Encodes table c.records call := by
  have hrow : ∀ r ∈ c.records, ∃ parameters, row r = .ok parameters := by
    intro r hr
    have hmetadata : (Value.object r.metadata).isWritable = true := h r hr
    exact ⟨_, by rw [row, Json.encode, if_pos hmetadata]; rfl⟩
  obtain ⟨rows, hrows⟩ := Store.mapM_iff.2 hrow
  exact ⟨(insert table, rows), by rw [call?, hrows]; rfl, rfl, Batch.forall₂_of_mapM hrows⟩

theorem Vectorize.exists_call {name : String} {c : Batch.Chunk Record}
    (h : ∀ r ∈ c.records, r.isWritable = true) :
    ∃ call, call? name c = some call ∧ Encodes name c.records call := by
  have htext : ∀ l ∈ c.records.map lineOf, ∃ text, Line.text l = .ok text := by
    intro l hl
    obtain ⟨r, hr, rfl⟩ := List.mem_map.1 hl
    exact ⟨_, by rw [Line.text, Json.encode, if_pos (isWritable_lineOf (h r hr))]⟩
  obtain ⟨texts, htexts⟩ := Store.mapM_iff.2 htext
  have hlines : ndjson (c.records.map lineOf) = .ok (joinLines texts) := by
    rw [ndjson, htexts]
    rfl
  exact ⟨(name, joinLines texts), by rw [call?, hlines]; rfl, rfl, hlines⟩

theorem Qdrant.exists_call {name : String} {c : Batch.Chunk Record}
    (h : ∀ r ∈ c.records, isTooLong r.id = false) :
    ∃ call, call? name c = some call ∧ Encodes name c.records call := by
  have hpoint : ∀ r ∈ c.records, ∃ pt, point r = .ok pt := fun r hr => by
    rcases hp : pointId r.id with f | p
    · exact absurd (pointId_eq_error_iff.1 ⟨f, hp⟩) (by rw [h r hr]; exact nofun)
    · exact ⟨⟨p, r.vector, payload p r⟩, by rw [point, hp]; rfl⟩
  obtain ⟨points, hpoints⟩ := Store.mapM_iff.2 hpoint
  exact ⟨(name, points), by rw [call?, hpoints]; rfl, rfl, Batch.forall₂_of_mapM hpoints⟩

theorem mem_of_mem_chunks {size : Nat} (hsize : 0 < size) {rs : List Record}
    {c : Batch.Chunk Record} (hc : c ∈ Batch.chunks size rs) : ∀ r ∈ c.records, r ∈ rs := by
  obtain ⟨-, he⟩ := Batch.eq_of_mem_chunks hsize hc
  rw [he]
  exact fun r hr => List.mem_of_mem_drop (List.mem_of_mem_take hr)

/-- **No record is lost, sent twice or out of order on its way to a service**, whatever the size of
    the batches and however many are written at a time, unless a call fails: each service is
    called once for each block of the records.  Qdrant has no points for ids of too many digits; to
    the others metadata are sent as texts, which there are none of for integers of too many. -/
theorem upsert_delivers {config : Config} (hsize : 0 < config.batchSize)
    (hlimit : 0 < config.batchMaxConcurrency) {n : String} (hn : Text.allBlank n = false)
    {drawn : Nat} {vectors metadata ids : Value} {rs : List Record}
    (hrs : (Record.buildRecords drawn vectors metadata ids).1 = .ok rs) :
    Record.Made drawn vectors metadata ids rs ∧
    (∀ (S : Type) (conn : Postgres.Connection S) (settings : Postgres.Settings) (table : String)
      (s : Session (Postgres.State (S × List (Note (String × List (List Value)))))),
      conn.Timed → Postgres.tableOf settings n = .ok table →
      (∀ r ∈ rs, r.isWritable = true) →
      (Postgres.gate s.backend).returned = (Postgres.gate s.backend).drawn → s.drawn = drawn →
      Delivers ⟨Postgres.backend settings conn.noted, config⟩ Postgres.notes
        (Postgres.Encodes table) config.batchSize n vectors metadata ids rs s) ∧
    (∀ (S : Type) (client : Qdrant.Client S)
      (s : Session (Known (S × List (Note (String × List Qdrant.Point))))),
      (∀ name points, (client.upsert name points).Timed) →
      (∀ r ∈ rs, Qdrant.isTooLong r.id = false) → s.drawn = drawn →
      Delivers ⟨Qdrant.backend client.noted, config⟩ Qdrant.notes (Qdrant.Encodes n)
        config.batchSize n vectors metadata ids rs s) ∧
    (∀ (S : Type) (client : Vectorize.Client S)
      (s : Session (S × List (Note (String × String)))),
      (∀ name lines, (client.upsert name lines).Timed) →
      (∀ r ∈ rs, r.isWritable = true) → s.drawn = drawn →
      Delivers ⟨Vectorize.backend client.noted, config⟩ Prod.snd (Vectorize.Encodes n)
        (min config.batchSize 1000) n vectors metadata ids rs s) := by
  refine ⟨Record.made_buildRecords (Prod.ext hrs rfl), ?_, ?_, ?_⟩
  · rintro S conn settings table s htimed htable hwritable hgate rfl
    exact delivers_of_sends hn hrs rfl rfl hsize hlimit hgate
      (fun c => Postgres.sends_writeChunk htimed htable c) fun c hc =>
        Postgres.exists_call fun r hr => hwritable r (mem_of_mem_chunks hsize hc r hr)
  · rintro S client s htimed hids rfl
    exact delivers_of_sends hn hrs rfl rfl hsize hlimit rfl
      (fun c => Qdrant.sends_writeChunk client htimed n c) fun c hc =>
        Qdrant.exists_call fun r hr => hids r (mem_of_mem_chunks hsize hc r hr)
  · rintro S client s htimed hwritable rfl
    have hpos : 0 < min config.batchSize 1000 := Nat.lt_min.2 ⟨hsize, by decide⟩
    have hmin : Store.batchSize config Vectorize.capabilities =
        ((min config.batchSize 1000 : Nat) : Int) := by
      simp only [Store.batchSize, Vectorize.capabilities]
      omega
    exact delivers_of_sends hn hrs rfl hmin hpos hlimit rfl
      (fun c => Vectorize.sends_writeChunk client htimed n c) fun c hc =>
        Vectorize.exists_call fun r hr => hwritable r (mem_of_mem_chunks hpos hc r hr)

/-! ## Services that take everything -/

/-- Whether a note is of a failed call. -/
def Note.isFailed : Note κ → Bool
  | .called _ => false
  | .failed => true

theorem failed_mem_iff {notes : List (Note κ)} :
    .failed ∈ notes ↔ notes.any Note.isFailed = true := by
  rw [List.any_eq_true]
  constructor
  · exact fun h => ⟨_, h, rfl⟩
  · rintro ⟨_ | _, h, hf⟩
    · cases hf
    · exact h

instance (notes : List (Note κ)) : Decidable (.failed ∈ notes) :=
  decidable_of_iff _ failed_mem_iff.symm

/-- A database that does what it is asked. -/
def Postgres.idle : Connection Unit where
  openPool _ _ _ := .ret ()
  closePool := .ret ()
  acquire := .ret ()
  release := .ret ()
  begin := .ret ()
  commit := .ret ()
  rollBack := .ret ()
  rollsBack := id
  releases := id
  execute _ _ := .ret ()
  fetchValue _ _ := .ret .null
  fetchRows _ _ := .ret (.list [])
  executeMany _ _ := .ret ()

/-- A service that does what it is asked. -/
def Qdrant.idle : Client Unit where
  collectionExists _ := .ret true
  createCollection _ _ _ := .ret ()
  deleteCollection _ := .ret ()
  collection _ := .ret ⟨.named [], .null⟩
  collectionNames := .ret []
  upsert _ _ := .ret ()
  search _ := .ret []
  close := .ret ()

/-- A service that does what it is asked. -/
def Vectorize.idle : Client Unit where
  create _ _ _ := .ret ()
  config _ := .ret ⟨.null, .null⟩
  info _ := .ret ⟨.null, .null⟩
  names := .ret []
  delete _ := .ret ()
  upsert _ _ := .ret ()
  search _ := .ret []

/-- Two records per write, one write at a time. -/
def pairwise : Config := ⟨2, 1, .bool false, none⟩

/-- The vectors of three records. -/
def threeVectors : Value := .list [.list [.float 0.5], .list [.float 1.5], .list [.float 2.5]]

/-- Their ids, one of them left out. -/
def threeIds : Value := .list [.text "a", .null, .text "42"]

/-- The three records. -/
def threeRecords : List Record :=
  [⟨"a", [0.5], []⟩, ⟨generatedText 1, [1.5], []⟩, ⟨"42", [2.5], []⟩]

/-- Indexes in one schema, over a pool that is opened. -/
def Postgres.ownPool : Settings := ⟨"public", .null, false, 1, 10, true⟩

/-- What a write of the three records leads to, from the start of a session. -/
def threeWritten (backend : Backend β) (b : β) :
    Except Failure (List String) × Session β :=
  (Store.upsert ⟨backend, pairwise⟩ (.text "docs") threeVectors .null threeIds none).run
    (.start b Session.takesAll)

theorem upsert_delivers_three :
    (0 < pairwise.batchSize ∧ 0 < pairwise.batchMaxConcurrency ∧ Text.allBlank "docs" = false ∧
      (Record.buildRecords 0 threeVectors .null threeIds).1 = .ok threeRecords) ∧
    Record.Made 0 threeVectors .null threeIds threeRecords ∧
    (let written := threeWritten (Postgres.backend Postgres.ownPool Postgres.idle.noted)
        (Postgres.start Postgres.ownPool ((), []));
      (∃ calls, Carry (Postgres.Encodes (Postgres.qualified "public" "docs")) 2 threeRecords calls ∧
        (Postgres.notes written.2.backend).Perm (calls.map .called)) ∧
      written.1 = .ok ["a", generatedText 1, "42"]) ∧
    (let written := threeWritten (Qdrant.backend Qdrant.idle.noted) (Known.start ((), []));
      (∃ calls, Carry (Qdrant.Encodes "docs") 2 threeRecords calls ∧
        (Qdrant.notes written.2.backend).Perm (calls.map .called)) ∧
      written.1 = .ok ["a", generatedText 1, "42"]) ∧
    (let written := threeWritten (Vectorize.backend Vectorize.idle.noted) ((), []);
      (∃ calls, Carry (Vectorize.Encodes "docs") 2 threeRecords calls ∧
        written.2.backend.2.Perm (calls.map .called)) ∧
      written.1 = .ok ["a", generatedText 1, "42"]) := by
  have hsize : 0 < pairwise.batchSize := by decide
  have hlimit : 0 < pairwise.batchMaxConcurrency := by decide
  have hn : Text.allBlank "docs" = false := by decide
  have hrs : (Record.buildRecords 0 threeVectors .null threeIds).1 = .ok threeRecords := rfl
  obtain ⟨hmade, hpostgres, hqdrant, hvectorize⟩ := upsert_delivers hsize hlimit hn hrs
  have hids : ∀ r ∈ threeRecords, Qdrant.isTooLong r.id = false := by
    have : threeRecords.all (fun r => !Qdrant.isTooLong r.id) = true := by decide +kernel
    simpa using this
  have hwritable : ∀ r ∈ threeRecords, r.isWritable = true := by decide
  obtain ⟨hp, hpok⟩ := hpostgres Unit Postgres.idle Postgres.ownPool _
    (.start (Postgres.start Postgres.ownPool ((), [])) Session.takesAll)
    ⟨fun _ _ _ => trivial, trivial, trivial, trivial, trivial, trivial, fun _ _ => trivial⟩ rfl
    hwritable rfl rfl (by decide +kernel)
  obtain ⟨hq, hqok⟩ := hqdrant Unit Qdrant.idle
    (.start (Known.start ((), [])) Session.takesAll) (fun _ _ => trivial) hids rfl
    (by decide +kernel)
  obtain ⟨hv, hvok⟩ := hvectorize Unit Vectorize.idle
    (.start ((), []) Session.takesAll) (fun _ _ => trivial) hwritable rfl (by decide +kernel)
  exact ⟨⟨hsize, hlimit, hn, hrs⟩, hmade, ⟨hp, hpok fun _ _ _ => rfl⟩, ⟨hq, hqok fun _ _ _ => rfl⟩,
    ⟨hv, hvok fun _ _ _ => rfl⟩⟩

/-! ## Ids of too many digits -/

namespace Qdrant

/-- What the writer of a chunk does to an idle service. -/
def idleEffect (name : String) (c : Batch.Chunk Record)
    (s : Session (Known (Unit × List (Note (String × List Point))))) :
    Except Failure Batch.Reported × Session (Known (Unit × List (Note (String × List Point)))) :=
  match c.records.mapM point with
  | .error f => (.error (.fault f), s)
  | .ok points =>
    (.ok [], { s with backend := { s.backend with
      service := ((), s.backend.service.2 ++ [.called (name, points)]) } })

theorem atOnce_writeChunk (name : String) (c : Batch.Chunk Record)
    (s : Session (Known (Unit × List (Note (String × List Point))))) :
    Task.AtOnce (Session.ofBackend (writeChunk idle.noted name c)) s (idleEffect name c s).1
      (idleEffect name c s).2 := by
  unfold idleEffect writeChunk
  rcases c.records.mapM point with f | points
  · rfl
  · rfl

theorem mapM_point_isTooLong {r : Record} (h : isTooLong r.id = true) :
    [r].mapM point = .error (.intTextTooLong r.id.toList.length) := by
  rw [List.mapM_cons, point, pointId, canonicalNumber?_eq_error h]
  rfl

/-- **A record whose id has too many digits is not written**, though no call fails: there is
    none. -/
theorem upsert_isTooLong {config : Config} (hsize : 0 < config.batchSize)
    (hlimit : 0 < config.batchMaxConcurrency) {n : String} (hn : Text.allBlank n = false)
    {vectors metadata ids : Value} {r : Record}
    {s : Session (Known (Unit × List (Note (String × List Point))))}
    (hsink : s.sink = Session.takesAll)
    (hrs : (Record.buildRecords s.drawn vectors metadata ids).1 = .ok [r])
    (hr : isTooLong r.id = true) :
    let outcome := (Store.upsert ⟨backend idle.noted, config⟩ (.text n) vectors metadata ids
      none).run s
    (∃ f, outcome.1 = .error f) ∧ notes outcome.2.backend = notes s.backend := by
  intro outcome
  have hchunks : Batch.chunks config.batchSize [r] = [] ++ ⟨0, 0, [r]⟩ :: [] := by
    rw [Batch.chunks, Batch.pieces_of_ne_nil hsize (List.cons_ne_nil r []),
      List.take_of_length_le hsize, List.drop_eq_nil_of_le hsize, Batch.pieces_nil]
    simp
  have heffect (s : Session (Known (Unit × List (Note (String × List Point))))) :
      idleEffect n ⟨0, 0, [r]⟩ s = (.error (.fault (.intTextTooLong r.id.toList.length)), s) := by
    rw [idleEffect, mapM_point_isTooLong hr]
  obtain ⟨events, hb, -, herror⟩ :=
    Store.run_upsert_taken ⟨backend idle.noted, config⟩ s hsink hn hrs rfl
  let s' : Session _ := { Store.drawnFor s vectors metadata ids with events }
  have hstopped : (Batch.upsert Record.id
      (fun c => Session.ofBackend ((backend idle.noted).upsertChunk n c none))
      (Session.warn Store.batchLogger) none [r] (.int config.batchSize)
      (.int config.batchMaxConcurrency)).run s' =
        (.error (.fault (.intTextTooLong r.id.toList.length)), s') :=
    Batch.run_upsert_stopped (atOnce_writeChunk n) hsize hlimit none hchunks rfl
      fun halts hhalts => by
        rw [hchunks, List.nil_append, Batch.inTurn, heffect]
        simp [Batch.stops, hhalts]
  refine ⟨⟨_, herror _ (congrArg Prod.fst hstopped)⟩, ?_⟩
  exact congrArg notes (hb.trans (congrArg (·.2.backend) hstopped))

/-- An id of so many ones. -/
def ones (k : Nat) : String := String.ofList (List.replicate k '1')

theorem isTooLong_ones {k : Nat} (h : 4300 < k) : isTooLong (ones k) = true := by
  have hdigit : ∀ c ∈ List.replicate k '1', Number.isDecimal c = true := fun c hc => by
    rw [List.eq_of_mem_replicate hc]
    rfl
  rw [isTooLong, ones, String.toList_ofList, List.all_eq_true.2 hdigit, List.length_replicate,
    Bool.true_and, decide_eq_true_eq]
  exact h

theorem buildRecords_ones (k : Nat) : (Record.buildRecords 0 (.list [.list [.float 0.5]]) .null
    (.list [.text (ones (k + 1))])).1 = .ok [⟨ones (k + 1), [0.5], []⟩] := by
  have hne : (ones (k + 1)).isEmpty = false := by
    rw [ones, List.replicate_succ]
    simp
  have hid : Record.idOf 0 0 (.text (ones (k + 1))) = .ok (ones (k + 1), 0) := by
    rw [Record.idOf, hne]
    rfl
  have hentry : Record.ofEntry 0 0 (.list [.float 0.5]) .null (.text (ones (k + 1))) =
      .ok (⟨ones (k + 1), [0.5], []⟩, 0) := by
    rw [Record.ofEntry, hid]
    rfl
  have hentries : Record.entries (.list [.list [.float 0.5]]) .null (.list [.text (ones (k + 1))]) =
      .ok [(.list [.float 0.5], .null, .text (ones (k + 1)))] := rfl
  rw [Record.buildRecords, hentries]
  dsimp only
  rw [Record.ofEntries, hentry]
  rfl

theorem not_delivers_ones :
    (Record.buildRecords 0 (.list [.list [.float 0.5]]) .null (.list [.text (ones 4301)])).1 =
      .ok [⟨ones 4301, [0.5], []⟩] ∧
    ¬ Delivers ⟨backend idle.noted, pairwise⟩ notes (Encodes "docs") 2 "docs"
      (.list [.list [.float 0.5]]) .null (.list [.text (ones 4301)]) [⟨ones 4301, [0.5], []⟩]
      (.start (Known.start ((), [])) Session.takesAll) := by
  have hrs := buildRecords_ones 4300
  refine ⟨hrs, fun hdelivers => ?_⟩
  have hsize : 0 < pairwise.batchSize := by decide
  have hlimit : 0 < pairwise.batchMaxConcurrency := by decide
  have hn : Text.allBlank "docs" = false := by decide
  obtain ⟨⟨f, herror⟩, hnotes⟩ := upsert_isTooLong hsize hlimit hn
    (s := .start (Known.start ((), [])) Session.takesAll) rfl hrs (isTooLong_ones (by decide))
  have hok := (hdelivers (by rw [hnotes]; exact List.not_mem_nil)).2 fun _ _ _ => rfl
  rw [herror] at hok
  cases hok

end Qdrant

end VectorStore
