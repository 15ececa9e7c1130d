/-
  Services whose calls are noted.

  A client notes which records it is called to write with, and every call that fails (`noted`).

  * `obeys_watched`, `obeys_noted`: so much may be noted while a call is due;
  * `Qdrant.sends_writeChunk`, `Vectorize.sends_writeChunk`, `Postgres.sends_writeChunk`: the writer
    of a chunk calls the service once, with the records of the chunk as they are encoded, unless a
    call fails.
-/
import VectorStore.Postgres.Store
import VectorStore.Proofs.Store.Deliveries
import VectorStore.Qdrant.Store
import VectorStore.Vectorize.Store

namespace VectorStore

variable {S κ α β : Type}

/-! ## Calls -/

/-- A call whose failure is noted. -/
def watched (t : Task S Failure α) : Task (S × List (Note κ)) Failure α :=
  t.onFirst.recover fun f =>
    (Task.modify fun p => (p.1, p.2 ++ [.failed])).andThen fun _ => .fail f

/-- A call that writes, noted with its failure. -/
def noted (call : κ) (t : Task S Failure α) : Task (S × List (Note κ)) Failure α :=
  (Task.modify fun p => (p.1, p.2 ++ [.called call])).andThen fun _ => watched t

theorem Known.part_service : Task.Part Known.service fun (s : S) k => { k with service := s } :=
  ⟨fun _ => rfl, fun _ _ => rfl, fun _ _ _ => rfl⟩

/-- What a call may do to a service and to what is noted. -/
def counter (S κ : Type) : Task.Rules (S × List (Note κ)) (Debt κ) where
  step p a p' a' := Note.Recorded p.2 a p'.2 a'
  ready _ _ := True

/-- A debt is left as `a`, unless there is a failure. -/
def LeftAs (a a' : Debt κ) : Except Failure α → Prop
  | .ok _ => a' = a
  | .error _ => a' = .failed

/-- A call that writes no records leaves the debt, unless it fails. -/
theorem obeys_watched {t : Task S Failure α} (ht : t.Timed) (a : Debt κ)
    (p : S × List (Note κ)) : (watched t).Obeys (counter S κ) (fun _ => LeftAs a) p a := by
  have hstep (p : S × List (Note κ)) (s : S) : (counter S κ).step p a (s, p.2) a := .stays p.2 a
  refine Task.Obeys.recover (Task.obeys_timed Task.part_fst hstep (fun _ => trivial) ht ?_ p)
  rintro p (f | x)
  · exact ⟨.failed, .fails p.2 a, rfl⟩
  · exact rfl

/-- A call that writes settles the debt, unless it fails. -/
theorem obeys_noted {t : Task S Failure α} (ht : t.Timed) (call : κ) (p : S × List (Note κ)) :
    (noted call t).Obeys (counter S κ) (fun _ => LeftAs .settled) p (.due call) :=
  ⟨.settled, .calls p.2 call, obeys_watched ht .settled _⟩

section

variable {notes : β → List (Note κ)} {gate : β → Turnstile}

/-- With a ticket in hand the debt is left as `a`, unless there is a failure. -/
def LeftWith (x : Ticket) (a : Debt κ) (g : Debt κ × Ticket) (r : Except Failure α) : Prop :=
  g.2 = x ∧ LeftAs a g.1 r

/-- A task of the service on a part of the state that has nothing to do with the turnstile. -/
theorem Task.Obeys.onDesk {t : Task (S × List (Note κ)) Failure α} {get : β → S × List (Note κ)}
    {put : S × List (Note κ) → β → β} (hpart : Task.Part get put)
    (hnotes : ∀ b, notes b = (get b).2) (hgate : ∀ p b, gate (put p b) = gate b) {x : Ticket}
    (hx : ∀ b, (gate b).Lets x) {b : β} {a a' : Debt κ}
    (h : t.Obeys (counter S κ) (fun _ => LeftAs a') (get b) a) :
    (t.zoom get put).Obeys (desk notes gate) (fun _ => LeftWith x a') b (a, x) := by
  let hold (a : Debt κ) : Debt κ × Ticket := (a, x)
  have hstep (b : β) a p a' (hr : (counter S κ).step (get b) a p a') :
      (desk notes gate).step b (hold a) (put p b) (hold a') := by
    refine ⟨?_, ?_⟩
    · rw [hnotes, hnotes, hpart.get_put]
      exact hr
    · rw [hgate]
      exact .stays _ x
  have hready (b : β) a : (desk notes gate).ready b (hold a) ↔ (counter S κ).ready (get b) a :=
    iff_of_true (hx b) trivial
  exact Task.Obeys.zoom hpart hstep hready (fun _ _ _ h => ⟨rfl, h⟩) h

/-- A writer that reports nothing once its debt is settled. -/
theorem obeys_reportless {t : Task β Failure α} {own : Option κ} {b : β} {g : Debt κ × Ticket}
    (h : t.Obeys (desk notes gate) (fun _ => LeftWith .away .settled) b g)
    (leaves : Failure → Failure) :
    ((t.recover fun f => .fail (leaves f)).andThen fun _ => .ret []).Obeys (desk notes gate)
      (fun _ => Settles own) b g := by
  refine Task.Obeys.andThen (Task.Obeys.recover (h.mono ?_))
  rintro b g (f | x) ⟨hx, hleft⟩
  · exact ⟨hx, .inl hleft⟩
  · exact ⟨hx, .inr ⟨hleft, fun _ => rfl⟩⟩

/-- A writer that does not get to make a call, where there is none for it to make. -/
theorem settles_none {f : Failure} : Settles (κ := κ) none (.opened none, .away) (.error f) :=
  ⟨rfl, .inr ⟨rfl, nofun⟩⟩

end

/-! ## Qdrant -/

namespace Qdrant

/-- The client, with what it is called to write and the failures of its calls noted. -/
def Client.noted (client : Client S) : Client (S × List (Note (String × List Point))) where
  collectionExists name := watched (client.collectionExists name)
  createCollection name size distance := watched (client.createCollection name size distance)
  deleteCollection name := watched (client.deleteCollection name)
  collection name := watched (client.collection name)
  collectionNames := watched client.collectionNames
  upsert name points := VectorStore.noted (name, points) (client.upsert name points)
  search q := watched (client.search q)
  close := watched client.close

/-- The call that writes a chunk, if its records have points. -/
def call? (name : String) (c : Batch.Chunk Record) : Option (String × List Point) :=
  (c.records.mapM point).toOption.map fun points => (name, points)

/-- What is noted of the service. -/
def notes (k : Known (S × List (Note κ))) : List (Note κ) := k.service.2

theorem sends_writeChunk (client : Client S) (h : ∀ name points, (client.upsert name points).Timed)
    (name : String) (c : Batch.Chunk Record) :
    Sends notes (fun _ => {}) (call? name c) (writeChunk client.noted name c) := by
  intro b
  refine Task.Obeys.andThen ?_
  rcases hpoints : c.records.mapM point with f | points
  · have hcall : call? name c = none := by rw [call?, hpoints]; rfl
    rw [hcall]
    exact settles_none
  · have hcall : call? name c = some (name, points) := by rw [call?, hpoints]; rfl
    rw [hcall]
    have hlets (k : Known (S × List (Note (String × List Point)))) :
        ((fun _ => {}) k : Turnstile).Lets .away := trivial
    exact obeys_reportless (Task.Obeys.onDesk Known.part_service (fun _ => rfl) (fun _ _ => rfl)
      hlets (obeys_noted (h name points) (name, points) b.service)) _

end Qdrant

/-! ## Vectorize -/

namespace Vectorize

/-- The client, with what it is called to write and the failures of its calls noted. -/
def Client.noted (client : Client S) : Client (S × List (Note (String × String))) where
  create name dimension metric := watched (client.create name dimension metric)
  config name := watched (client.config name)
  info name := watched (client.info name)
  names := watched client.names
  delete name := watched (client.delete name)
  upsert name lines := VectorStore.noted (name, lines) (client.upsert name lines)
  search q := watched (client.search q)

/-- The call that writes a chunk, if its lines have a text. -/
def call? (name : String) (c : Batch.Chunk Record) : Option (String × String) :=
  (ndjson (c.records.map lineOf)).toOption.map fun lines => (name, lines)

theorem sends_writeChunk (client : Client S) (h : ∀ name lines, (client.upsert name lines).Timed)
    (name : String) (c : Batch.Chunk Record) :
    Sends (fun p : S × List (Note (String × String)) => p.2) (fun _ => {}) (call? name c)
      (writeChunk client.noted name c) := by
  intro b
  rw [writeChunk]
  refine Task.Obeys.andThen ?_
  rcases hlines : ndjson (c.records.map lineOf) with f | lines
  · have hcall : call? name c = none := by rw [call?, hlines]; rfl
    rw [hcall]
    exact settles_none
  · have hcall : call? name c = some (name, lines) := by rw [call?, hlines]; rfl
    rw [hcall]
    let hold (a : Debt (String × String)) : Debt (String × String) × Ticket := (a, .away)
    have hstep p a p' a' (hr : (counter S (String × String)).step p a p' a') :
        (desk (fun p : S × List _ => p.2) fun _ => {}).step p (hold a) p' (hold a') :=
      ⟨hr, .stays _ _⟩
    refine obeys_reportless (Task.Obeys.allow hstep (fun _ _ => Iff.rfl) ?_
      (obeys_noted (h name lines) (name, lines) b)) _
    exact fun _ _ _ hleft => ⟨rfl, hleft⟩

end Vectorize

/-! ## PostgreSQL -/

namespace Postgres

/-- The connection, with the statements noted that write records, and the failures of all that is
    asked of it. -/
def Connection.noted (conn : Connection S) :
    Connection (S × List (Note (String × List (List Value)))) where
  openPool dsn least most := watched (conn.openPool dsn least most)
  closePool := watched conn.closePool
  acquire := watched conn.acquire
  release := watched conn.release
  begin := watched conn.begin
  commit := watched conn.commit
  rollBack := watched conn.rollBack
  rollsBack p := (conn.rollsBack p.1, p.2)
  releases p := (conn.releases p.1, p.2)
  execute statement parameters := watched (conn.execute statement parameters)
  fetchValue statement parameters := watched (conn.fetchValue statement parameters)
  fetchRows statement parameters := watched (conn.fetchRows statement parameters)
  executeMany statement rows :=
    VectorStore.noted (statement, rows) (conn.executeMany statement rows)

/-- What is waited for where the database is asked is nothing but time. -/
structure Connection.Timed (conn : Connection S) : Prop where
  openPool : ∀ dsn least most, (conn.openPool dsn least most).Timed
  acquire : conn.acquire.Timed
  release : conn.release.Timed
  begin : conn.begin.Timed
  commit : conn.commit.Timed
  rollBack : conn.rollBack.Timed
  executeMany : ∀ statement rows, (conn.executeMany statement rows).Timed

/-- The statement that writes a chunk, if its rows have a text. -/
def call? (table : String) (c : Batch.Chunk Record) : Option (String × List (List Value)) :=
  (c.records.mapM row).toOption.map fun rows => (insert table, rows)

/-- What is noted of the database. -/
def notes (st : State (S × List (Note κ))) : List (Note κ) := st.service.connection.2

/-- The turnstile before the opening of the pool. -/
def gate (st : State S) : Turnstile := st.service.turnstile

theorem part_connection :
    Task.Part Pool.connection fun (c : S) (p : Pool S) => { p with connection := c } :=
  ⟨fun _ => rfl, fun _ _ => rfl, fun _ _ _ => rfl⟩

variable {st : State (S × List (Note κ))} {a a' : Debt κ} {x : Ticket}

/-- A task of the database. -/
theorem obeys_onService {t : Task (S × List (Note κ)) Failure α}
    (hx : ∀ p : Pool (S × List (Note κ)), p.turnstile.Lets x)
    (h : t.Obeys (counter S κ) (fun _ => LeftAs a') st.service.connection a) :
    (onService t).Obeys (desk notes gate) (fun _ => LeftWith x a') st (a, x) := by
  let poolNotes (p : Pool (S × List (Note κ))) := p.connection.2
  have hpool : (t.zoom Pool.connection fun s p => { p with connection := s }).Obeys
      (desk poolNotes Pool.turnstile) (fun _ => LeftWith x a') st.service (a, x) :=
    Task.Obeys.onDesk part_connection (fun _ => rfl) (fun _ _ => rfl) hx h
  let hold (g : Debt κ × Ticket) := g
  have hready (st : State (S × List (Note κ))) g :
      (desk notes gate).ready st (hold g) ↔ (desk poolNotes Pool.turnstile).ready st.service g :=
    Iff.rfl
  exact Task.Obeys.zoom Known.part_service (fun _ _ _ _ h => h) hready (fun _ _ _ h => h) hpool

/-- What is asked of the database besides leaves the debt, unless it fails. -/
theorem obeys_watching {t : Task S Failure α} (ht : t.Timed)
    (hx : ∀ p : Pool (S × List (Note κ)), p.turnstile.Lets x) :
    (onService (watched t)).Obeys (desk notes gate) (fun _ => LeftWith x a) st (a, x) :=
  obeys_onService hx (obeys_watched ht a st.service.connection)

/-- The same away from the turnstile, and then something else. -/
theorem obeys_watching_andThen {t : Task S Failure α}
    {f : α → Task (State (S × List (Note κ))) Failure β} (ht : t.Timed)
    (hf : ∀ st y, (f y).Obeys (desk notes gate) (fun _ => LeftWith .away a') st (a, .away)) :
    ((onService (watched t)).andThen f).Obeys (desk notes gate) (fun _ => LeftWith .away a') st
      (a, .away) := by
  refine Task.Obeys.andThen ((obeys_watching ht fun _ => Turnstile.lets_away _).mono ?_)
  rintro st ⟨a, x⟩ (f | y) ⟨rfl, rfl⟩
  · exact ⟨rfl, rfl⟩
  · exact hf st y

/-- A change that is not noted and does not concern the turnstile is allowed. -/
theorem step_unnoted {f : State (S × List (Note κ)) → State (S × List (Note κ))}
    {g : Debt κ × Ticket} (hnotes : notes (f st) = notes st) (hgate : gate (f st) = gate st) :
    (desk notes gate).step st g (f st) g := by
  refine ⟨?_, ?_⟩
  · rw [hnotes]
    exact .stays _ _
  · rw [hgate]
    exact .stays _ _

variable {conn : Connection S} {settings : Settings}

theorem obeys_openIfClosed (h : conn.Timed) (k : Nat) (a : Debt (String × List (List Value)))
    (st : State (S × List (Note (String × List (List Value))))) :
    (openIfClosed settings conn.noted).Obeys (desk notes gate) (fun _ => LeftWith (.inside k) a) st
      (a, .inside k) := by
  rw [openIfClosed, Task.Obeys]
  split
  · exact ⟨rfl, rfl⟩
  · refine Task.Obeys.andThen ((obeys_watching (h.openPool _ _ _) fun _ =>
      Turnstile.lets_inside _ k).mono ?_)
    rintro st ⟨a, x⟩ (f | y) ⟨rfl, rfl⟩
    · exact ⟨rfl, rfl⟩
    · exact Task.obeys_modify (step_unnoted rfl rfl) ⟨rfl, rfl⟩

theorem obeys_ensureOpen (h : conn.Timed) (a : Debt (String × List (List Value)))
    (st : State (S × List (Note (String × List (List Value))))) :
    (ensureOpen settings conn.noted).Obeys (desk notes gate) (fun _ => LeftWith .away a) st
      (a, .away) := by
  have hstep (st : State (S × List (Note (String × List (List Value))))) f x x'
      (a : Debt (String × List (List Value)))
      (hp : Turnstile.Passed (gate st) x (f (gate st)) x') :
      (desk notes gate).step st (a, x) (setTurnstile f st) (a, x') := ⟨.stays _ _, hp⟩
  rw [ensureOpen, Task.Obeys]
  split
  · exact ⟨rfl, rfl⟩
  · refine Turnstile.obeys_pass hstep (fun st x x' a hp => ⟨.stays _ _, hp⟩)
      (fun _ _ _ => Iff.rfl) fun st k => ?_
    refine (obeys_openIfClosed h k a st).mono ?_
    rintro st ⟨a, x⟩ r ⟨rfl, hleft⟩
    exact ⟨rfl, rfl, hleft⟩

variable {t : Task (State (S × List (Note (String × List (List Value))))) Failure α}
  {a a' : Debt (String × List (List Value))}

/-- A transaction leaves the debt as its work does. -/
theorem obeys_inTransaction (h : conn.Timed)
    (ht : ∀ st, t.Obeys (desk notes gate) (fun _ => LeftWith .away a') st (a, .away))
    (st : State (S × List (Note (String × List (List Value))))) :
    (inTransaction conn.noted t).Obeys (desk notes gate) (fun _ => LeftWith .away a') st
      (a, .away) := by
  refine obeys_watching_andThen h.begin fun st _ => ?_
  refine Task.Obeys.andThen (Task.Obeys.attempt (Task.Obeys.onAbandon ((ht st).mono ?_) _))
  rintro st ⟨a, x⟩ (f | y) ⟨rfl, rfl⟩
  · exact obeys_watching_andThen h.rollBack fun _ _ => ⟨rfl, rfl⟩
  · exact obeys_watching_andThen h.commit fun _ _ => ⟨rfl, rfl⟩

/-- So does work with a connection. -/
theorem obeys_withConnection (h : conn.Timed)
    (ht : ∀ st, t.Obeys (desk notes gate) (fun _ => LeftWith .away a') st (a, .away))
    (st : State (S × List (Note (String × List (List Value))))) :
    (withConnection conn.noted t).Obeys (desk notes gate) (fun _ => LeftWith .away a') st
      (a, .away) := by
  refine obeys_watching_andThen h.acquire fun st _ => ?_
  refine Task.Obeys.andThen (Task.Obeys.attempt (Task.Obeys.onAbandon ((ht st).mono ?_) _))
  rintro st ⟨a, x⟩ (f | y) ⟨rfl, rfl⟩
  · exact obeys_watching_andThen h.release fun _ _ => ⟨rfl, rfl⟩
  · exact obeys_watching_andThen h.release fun _ _ => ⟨rfl, rfl⟩

theorem sends_writeChunk (h : conn.Timed) {name table : String}
    (htable : tableOf settings name = .ok table) (c : Batch.Chunk Record) :
    Sends notes gate (call? table c) (writeChunk settings conn.noted name c) := by
  intro st
  rw [writeChunk, htable]
  refine Task.Obeys.andThen ?_
  rcases hrows : c.records.mapM row with f | rows
  · have hcall : call? table c = none := by rw [call?, hrows]; rfl
    rw [hcall]
    exact settles_none
  · have hcall : call? table c = some (insert table, rows) := by rw [call?, hrows]; rfl
    rw [hcall]
    refine obeys_reportless (Task.Obeys.andThen ((obeys_ensureOpen h _ st).mono ?_)) _
    rintro st ⟨a, x⟩ (f | y) ⟨rfl, rfl⟩
    · exact ⟨rfl, rfl⟩
    · exact obeys_withConnection h (obeys_inTransaction h fun st =>
        obeys_onService (fun _ => Turnstile.lets_away _)
          (obeys_noted (h.executeMany _ _) (insert table, rows) st.service.connection)) st

end Postgres

end VectorStore
