/-
  `insert_chunks` of the four stores, on the store that all runs share.

  Elasticsearch and Redis are in `InsertChunks`. Postgres inserts a group of rows for each vector
  column, in a transaction of its own; MongoDB makes one `insert_many`, which stops at the first
  document that it cannot store.

  Proved: `insertChunks_history`: whatever the servers answer, an insertion puts rows of its own
  run, and at most cleans up after itself; when it returns, all rows of the run have been put
  (for Redis: if the server carried out every command).
-/
import RagParamsFinder.VectorStores.InsertAllOrNothing
import RagParamsFinder.VectorStores.Layouts

namespace RagParamsFinder

open BatchWrites Grouping SharedTable StepMachine Traversals

variable {φ ω κ ν : Type}

/-! ## Postgres and MongoDB -/

namespace Postgres

/-- What becomes of a transaction; `lost` is committed, but the client raises. -/
inductive CommitOutcome where
  | committed
  | rolledBack (error : InsertError)
  | lost (error : InsertError)
  deriving DecidableEq, Repr

/-- `by_column`, in the order in which the columns are first met. -/
def byColumn (docs : List (ChunkDoc φ)) :
    Except InsertError (List (String × List (ChunkDoc φ))) := do
  let columns ← docs.mapM columnOf
  return (firsts columns).map fun column =>
    (column, ((columns.zip docs).filter fun cd => cd.1 = column).map (·.2))

def uniqueViolation : InsertError :=
  .requestError "duplicate key value violates unique constraint \"chunks_pkey\""

/-- No row of the statement has a chunk id that is taken. -/
def Unclaimed (rows : List (ChunkRow φ)) (chunks : Cells String (ChunkRow φ)) : Prop :=
  (rows.map (·.chunkId)).Nodup ∧ ∀ row ∈ rows, chunks row.chunkId = none

instance (rows : List (ChunkRow φ)) (chunks : Cells String (ChunkRow φ)) :
    Decidable (Unclaimed rows chunks) :=
  have : Decidable (∀ row ∈ rows, chunks row.chunkId = none) :=
    decidable_of_iff (∀ row ∈ rows, (chunks row.chunkId).isNone = true)
      (forall₂_congr fun _ _ => Option.isNone_iff_eq_none)
  inferInstanceAs (Decidable (_ ∧ _))

/-- The rows of a statement, each under its key. -/
def keyed (rows : List (ChunkRow φ)) : List (String × ChunkRow φ) :=
  rows.map fun row => (row.chunkId, row)

/-- `execute_many`: all rows or none. -/
def executeMany (outcome : CommitOutcome) (rows : List (ChunkRow φ))
    (chunks : Cells String (ChunkRow φ)) : Cells String (ChunkRow φ) × Except InsertError Unit :=
  match outcome with
  | .rolledBack e => (chunks, .error e)
  | .committed =>
      if Unclaimed rows chunks then (writeAll chunks (keyed rows), .ok ())
      else (chunks, .error uniqueViolation)
  | .lost e =>
      if Unclaimed rows chunks then (writeAll chunks (keyed rows), .error e)
      else (chunks, .error uniqueViolation)

/-- The loop of `insert_chunks`. -/
def insertGroups (commit : Nat → CommitOutcome) : Nat → Cells String (ChunkRow φ) →
    List (String × List (ChunkDoc φ)) → Cells String (ChunkRow φ) × Except InsertError Unit
  | _, chunks, [] => (chunks, .ok ())
  | i, chunks, (vectorColumn, group) :: groups =>
      match group.mapM (chunkParams vectorColumn) with
      | .error e => (chunks, .error e)
      | .ok rows =>
          match executeMany (commit i) rows chunks with
          | (chunks, .error e) => (chunks, .error e)
          | (chunks, .ok ()) => insertGroups commit (i + 1) chunks groups

def insertChunks (commit : Nat → CommitOutcome) (docs : List (ChunkDoc φ))
    (chunks : Cells String (ChunkRow φ)) : Cells String (ChunkRow φ) × Except InsertError Unit :=
  match byColumn docs with
  | .error e => (chunks, .error e)
  | .ok groups => insertGroups commit 0 chunks groups

end Postgres

namespace Mongo

/-- `insert_many`, ordered: all documents, or as many as there are before the one at which it
    raises. -/
def insertChunks (objectId : ChunkDoc φ → String) (failure : Option (Nat × InsertError))
    (docs : List (ChunkDoc φ)) (collection : Cells String (ChunkDoc φ)) :
    Cells String (ChunkDoc φ) × Except InsertError Unit :=
  if docs.isEmpty then (collection, .ok ())
  else
    match failure with
    | none => (writeAll collection (docs.map fun doc => (objectId doc, doc)), .ok ())
    | some (n, e) =>
        (writeAll collection ((docs.take n).map fun doc => (objectId doc, doc)), .error e)

end Mongo

/-! ## Histories of one run -/

/-- An event that the run itself brings about. -/
def StoreEvent.OfRun (fleet : Fleet φ ω) (w : ω) : StoreEvent ω κ → Prop
  | .stored w' _ => w' = w
  | .runDeleted runId _ => runId = (fleet.run w).runId
  | .experimentDeleted .. => False

/-- All documents of the run have rows, which have been put and not deleted. -/
structure Inserted (L : Layout φ κ ν) (fleet : Fleet φ ω) (w : ω)
    (events : List (StoreEvent ω κ)) : Prop where
  rows : ∀ doc ∈ (fleet.run w).chunkDocs, ∃ row, L.row doc = some row
  put : AllPut L fleet w events
  kept : ∀ event ∈ events, ¬event.Deletes (fleet.run w)

/-- An insertion, seen through `abs`, is a history of its run; if it returns, and `complete`,
    everything has been inserted. -/
def InsertsAsHistory [DecidableEq κ] (L : Layout φ κ ν) (fleet : Fleet φ ω) (w : ω) {σ : Type}
    (abs : Cells κ ν → σ) (insert : σ → σ × Except InsertError Unit) (complete : Prop) : Prop :=
  ∀ s, Owned (L.rows fleet) s → ∃ (events : List (StoreEvent ω κ)) (t : Cells κ ν),
    (∀ event ∈ events, event.OfRun fleet w) ∧ history L fleet s events = some t ∧
      (insert (abs s)).1 = abs t ∧
        ((insert (abs s)).2 = .ok () → complete → Inserted L fleet w events)

section Puts

variable {L : Layout φ κ ν} {fleet : Fleet φ ω} {w : ω}

/-- Puts of the run's rows. -/
structure Puts (L : Layout φ κ ν) (fleet : Fleet φ ω) (w : ω) (ws : List (κ × ν))
    (events : List (StoreEvent ω κ)) : Prop where
  stored : ∀ event ∈ events, ∃ i, event = .stored w i
  put : ∀ row ∈ ws, ∃ i, (L.rows fleet w)[i]? = some row ∧ .stored w i ∈ events

theorem row_mem_rows {doc : ChunkDoc φ} {row : κ × ν} (hdoc : doc ∈ (fleet.run w).chunkDocs)
    (hrow : L.row doc = some row) : row ∈ L.rows fleet w :=
  List.mem_filterMap.mpr ⟨doc, hdoc, hrow⟩

theorem Puts.ofRun {ws : List (κ × ν)} {events : List (StoreEvent ω κ)}
    (h : Puts L fleet w ws events) : ∀ event ∈ events, event.OfRun fleet w := by
  intro event hevent
  obtain ⟨i, rfl⟩ := h.stored event hevent
  rfl

theorem Puts.kept {ws : List (κ × ν)} {events : List (StoreEvent ω κ)}
    (h : Puts L fleet w ws events) : ∀ event ∈ events, ¬event.Deletes (fleet.run w) := by
  intro event hevent
  obtain ⟨i, rfl⟩ := h.stored event hevent
  exact not_false

/-- When every document's row is written, everything has been inserted. -/
theorem Puts.inserted {ws : List (κ × ν)} {events : List (StoreEvent ω κ)}
    (h : Puts L fleet w ws events)
    (hall : ∀ doc ∈ (fleet.run w).chunkDocs, ∃ row ∈ ws, L.row doc = some row) :
    Inserted L fleet w events where
  rows doc hdoc := by
    obtain ⟨row, -, hrow⟩ := hall doc hdoc
    exact ⟨row, hrow⟩
  put row hrow := by
    obtain ⟨doc, hdoc, hkv⟩ := List.mem_filterMap.mp hrow
    obtain ⟨row', hmem, hkv'⟩ := hall doc hdoc
    obtain rfl : row = row' := Option.some.inj (hkv.symm.trans hkv')
    exact h.put row hmem
  kept := h.kept

variable [DecidableEq κ]

/-- Writes of a run's rows, in any order and number, are a history. -/
theorem history_writeAll {ws : List (κ × ν)} (hws : ∀ row ∈ ws, row ∈ L.rows fleet w)
    (s : Cells κ ν) : ∃ events, Puts L fleet w ws events ∧
      history L fleet s events = some (writeAll s ws) := by
  induction ws generalizing s with
  | nil => exact ⟨[], ⟨nofun, nofun⟩, rfl⟩
  | cons row ws ih =>
      obtain ⟨hrow, hws⟩ := List.forall_mem_cons.mp hws
      obtain ⟨i, hi⟩ := List.getElem?_of_mem hrow
      obtain ⟨events, hputs, hrun⟩ := ih hws (write s row)
      refine ⟨.stored w i :: events, ⟨?_, ?_⟩, ?_⟩
      · exact List.forall_mem_cons.mpr ⟨⟨i, rfl⟩, hputs.stored⟩
      · refine List.forall_mem_cons.mpr ⟨⟨i, hi, List.mem_cons_self ..⟩, fun r hr => ?_⟩
        obtain ⟨j, hj, hmem⟩ := hputs.put r hr
        exact ⟨j, hj, List.mem_cons_of_mem _ hmem⟩
      · rw [history, List.map_cons, exec, StoreEvent.action, step, hi]
        exact hrun

/-- An insertion that writes rows of the run, and all of them if it returns. -/
theorem insertsAsHistory_of_writes {insert : Cells κ ν → Cells κ ν × Except InsertError Unit}
    (h : ∀ s, ∃ ws, (∀ row ∈ ws, row ∈ L.rows fleet w) ∧ (insert s).1 = writeAll s ws ∧
      ((insert s).2 = .ok () →
        ∀ doc ∈ (fleet.run w).chunkDocs, ∃ row ∈ ws, L.row doc = some row)) :
    InsertsAsHistory L fleet w id insert True := by
  intro s _
  obtain ⟨ws, hws, heq, hall⟩ := h s
  obtain ⟨events, hputs, hrun⟩ := history_writeAll hws s
  exact ⟨events, writeAll s ws, hputs.ofRun, hrun, heq, fun hok _ => hputs.inserted (hall hok)⟩

end Puts

/-! ## Elasticsearch -/

namespace Elasticsearch

theorem row_eq_some_iff {doc : ChunkDoc φ} {row : String × ChunkSource φ} :
    layout.row doc = some row ↔ indexAction doc = .ok row := by
  change (indexAction doc).toOption = some row ↔ _
  cases indexAction doc with
  | error e => exact iff_of_false nofun nofun
  | ok row' =>
      exact ⟨fun h => congrArg _ (Option.some.inj h), fun h => congrArg _ (Except.ok.inj h)⟩

theorem runId_of_mem_chunkDocs {r : ChunkedRun φ} :
    ∀ doc ∈ r.chunkDocs, doc.runId = some r.runId := by
  intro doc hdoc
  obtain ⟨i, chunk, emb, -, -, rfl⟩ := r.mem_chunkDocs.mp hdoc
  rfl

theorem insertsAsHistory (cluster : Cluster) (fleet : Fleet φ ω) (w : ω) :
    InsertsAsHistory layout fleet w id (insertChunks cluster (fleet.run w).chunkDocs) True := by
  intro s _
  have hws : ∀ row ∈ writesMade ((batchesOf (fleet.run w).chunkDocs).mapIdx (turn cluster.bulk)),
      row ∈ layout.rows fleet w := by
    intro row hrow
    obtain ⟨doc, hdoc, hact⟩ := mem_wantedOf.mp (mem_wantedOf_of_mem_writesMade hrow)
    exact row_mem_rows hdoc (row_eq_some_iff.mpr hact)
  obtain ⟨events, hputs, hrun⟩ := history_writeAll hws s
  rw [id, insertChunks_eq runId_of_mem_chunkDocs, cleanUpAfter]
  cases hres : (run s ((batchesOf (fleet.run w).chunkDocs).mapIdx (turn cluster.bulk))).2.2 with
  | ok u =>
      refine ⟨events, _, hputs.ofRun, hrun, run_fst s _, fun _ _ => hputs.inserted ?_⟩
      intro doc hdoc
      have hall := allPass_of_ok _ (fun _ _ => turn_stop_iff) hres
      obtain ⟨row, hact, hmem⟩ := exists_action_of_allPass hall hdoc
      exact ⟨row, hmem, row_eq_some_iff.mpr hact⟩
  | error e =>
      dsimp only
      split
      · -- The clean-up is one more event, of the same run.
        refine ⟨events ++ [.runDeleted (fleet.run w).runId cluster.deleteByQuery.reaches], _,
          ?_, ?_, rfl, of_error_eq_ok⟩
        · rw [List.forall_mem_append, List.forall_mem_singleton]
          exact ⟨hputs.ofRun, rfl⟩
        · rw [history_append, hrun, ← run_fst]
          rfl
      · exact ⟨events, _, hputs.ofRun, hrun, run_fst s _, of_error_eq_ok⟩

end Elasticsearch

/-! ## Redis -/

namespace Redis

/-- Hashes kept whole, as the cells of the database. -/
def cellsOfHashes (hashes : Cells String (List (String × HashValue))) : Database :=
  fun cell => (hashes cell.1).bind fun mapping => mapping.lookup cell.2

/-- The command's hash under its key. -/
def Hset.row (command : Hset) : String × List (String × HashValue) :=
  (command.key, command.mapping)

theorem lookup_eq_some_of_mem {mapping : List (String × HashValue)}
    (hn : (mapping.map (·.1)).Nodup) {f : String} {v : HashValue} (h : (f, v) ∈ mapping) :
    mapping.lookup f = some v := by
  induction mapping with
  | nil => cases h
  | cons entry mapping ih =>
      obtain ⟨f', v'⟩ := entry
      obtain ⟨hfresh, hn⟩ := List.nodup_cons.mp hn
      rcases List.mem_cons.mp h with heq | hmem
      · cases heq
        exact List.lookup_cons_self
      · have hne : (f == f') = false := by
          rw [beq_eq_false_iff_ne]
          rintro rfl
          exact hfresh (List.mem_map.mpr ⟨(f, v), hmem, rfl⟩)
        rw [List.lookup_cons, hne]
        exact ih hn hmem

theorem lookup_eq_none_of_not_mem {mapping : List (String × HashValue)} {f : String}
    (h : ∀ v, (f, v) ∉ mapping) : mapping.lookup f = none := by
  rw [List.lookup_eq_none_iff]
  rintro ⟨f', v⟩ hmem
  rw [bne_iff_ne]
  rintro rfl
  exact h v hmem

/-- Setting the fields of a hash sets the hash, if it is not there or is this one already. -/
theorem writeAll_cells {command : Hset} (hn : (command.mapping.map (·.1)).Nodup)
    {hashes : Cells String (List (String × HashValue))}
    (hsame : ∀ mapping, hashes command.key = some mapping → mapping = command.mapping) :
    writeAll (cellsOfHashes hashes) command.cells = cellsOfHashes (write hashes command.row) := by
  funext ⟨key, field⟩
  by_cases hkey : key = command.key
  · subst hkey
    have hnew : cellsOfHashes (write hashes command.row) (command.key, field) =
        command.mapping.lookup field := by
      rw [cellsOfHashes, write, Hset.row, Function.update_self, Option.bind_some]
    rw [hnew]
    rcases writeAll_cases (cellsOfHashes hashes) command.cells (command.key, field) with
      ⟨hnone, hkeep⟩ | ⟨v, hv, hset⟩
    · have hlookup : command.mapping.lookup field = none := by
        refine lookup_eq_none_of_not_mem fun v hv => hnone v ?_
        exact List.mem_map.mpr ⟨(field, v), hv, rfl⟩
      rw [hkeep, hlookup, cellsOfHashes]
      cases hold : hashes command.key with
      | none => rfl
      | some mapping => rw [hsame mapping hold, Option.bind_some, hlookup]
    · obtain ⟨entry, hentry, heq⟩ := List.mem_map.mp hv
      cases heq
      rw [hset, lookup_eq_some_of_mem hn hentry]
  · have hnew : cellsOfHashes (write hashes command.row) (key, field) =
        cellsOfHashes hashes (key, field) := by
      rw [cellsOfHashes, cellsOfHashes, write, Hset.row, Function.update_of_ne hkey]
    rw [hnew]
    rcases writeAll_cases (cellsOfHashes hashes) command.cells (key, field) with
      ⟨-, hkeep⟩ | ⟨v, hv, -⟩
    · exact hkeep
    · obtain ⟨entry, -, heq⟩ := List.mem_map.mp hv
      exact absurd (congrArg (fun c => c.1.1) heq).symm hkey

theorem nodup_fields (doc : ChunkDoc φ) {field : String} (bytes : List UInt8) {n : Nat}
    (hfield : fieldForDims n = .ok field) :
    ((hsetOf doc field bytes).mapping.map (·.1)).Nodup := by
  have hvector : field = "embedding_384" ∨ field = "embedding_1024" := by
    rw [fieldForDims] at hfield
    cases hfound : vectorFields.lookup n with
    | none => simp [hfound] at hfield
    | some field' =>
        simp only [hfound, Except.ok.injEq] at hfield
        subst hfield
        obtain ⟨before, after, hsplit, -⟩ := List.lookup_eq_some_iff.mp hfound
        have hmem : (n, field') ∈ vectorFields := by simp [hsplit]
        simp only [vectorFields, List.mem_cons, Prod.mk.injEq, List.not_mem_nil, or_false] at hmem
        exact hmem.imp And.right And.right
  rcases hvector with rfl | rfl
  · simp only [hsetOf, List.map_cons, List.map_nil]
    decide
  · simp only [hsetOf, List.map_cons, List.map_nil]
    decide

/-- A command is the row of its document, and its fields are distinct. -/
theorem command_row (globMatches : String → String → Bool) {pack : φ → Option (List UInt8)}
    {doc : ChunkDoc φ} {command : Hset} (h : addToPipeline pack doc = .ok (some command)) :
    (layout globMatches pack).row doc = some command.row ∧
      (command.mapping.map (·.1)).Nodup := by
  constructor
  · unfold layout
    dsimp only
    rw [h]
    rfl
  · rw [addToPipeline] at h
    split at h
    · cases h
    · obtain ⟨field, hfield, h⟩ := bind_eq_ok.mp h
      obtain ⟨bytes, -, h⟩ := bind_eq_ok.mp h
      cases h
      exact nodup_fields doc bytes hfield

section Insert

variable {globMatches : String → String → Bool} (pack : φ → Option (List UInt8))
  (client : Nat → RequestOutcome)

/-- The turn of a batch, on hashes kept whole. -/
def hashTurn (i : Nat) (batch : List (ChunkDoc φ)) :
    Turn String (List (String × HashValue)) InsertError :=
  match pipelineOf pack batch with
  | .error e => ⟨[], some e⟩
  | .ok commands =>
      ⟨(kept (client i).stored commands).map Hset.row, errorOf (execute (client i) commands)⟩

variable {pack client} {fleet : Fleet φ ω} {w : ω}

/-- Commands of the run's documents, carried out one after the other. -/
theorem writeAll_commands (hglob : ReadsGlobs globMatches) {commands : List Hset}
    (hcommands : ∀ command ∈ commands, ∃ doc ∈ (fleet.run w).chunkDocs,
      addToPipeline pack doc = .ok (some command))
    {hashes : Cells String (List (String × HashValue))}
    (howned : Owned ((layout globMatches pack).rows fleet) hashes) :
    Owned ((layout globMatches pack).rows fleet) (writeAll hashes (commands.map Hset.row)) ∧
      writeAll (cellsOfHashes hashes) (commands.flatMap Hset.cells) =
        cellsOfHashes (writeAll hashes (commands.map Hset.row)) := by
  induction commands generalizing hashes with
  | nil => exact ⟨howned, rfl⟩
  | cons command commands ih =>
      obtain ⟨⟨doc, hdoc, hadd⟩, hrest⟩ := List.forall_mem_cons.mp hcommands
      obtain ⟨hrow, hnodup⟩ := command_row globMatches hadd
      have hmem := row_mem_rows hdoc hrow
      have hsame : ∀ mapping, hashes command.key = some mapping → mapping = command.mapping := by
        intro mapping hat
        obtain ⟨w', hown⟩ := howned command.key mapping hat
        exact ((lawful hglob pack fleet).separate w' w _ _ _ hown hmem).2
      obtain ⟨hnext, heq⟩ := ih hrest (howned.write hmem)
      refine ⟨hnext, ?_⟩
      rw [List.flatMap_cons, writeAll_append, writeAll_cells hnodup hsame]
      exact heq

theorem hashTurn_spec (hglob : ReadsGlobs globMatches) (i : Nat) {batch : List (ChunkDoc φ)}
    (hbatch : ∀ doc ∈ batch, doc ∈ (fleet.run w).chunkDocs) :
    (turn pack client i batch).stop = (hashTurn pack client i batch).stop ∧
      ∀ s, Owned ((layout globMatches pack).rows fleet) s →
        Owned ((layout globMatches pack).rows fleet)
            (writeAll s (hashTurn pack client i batch).writes) ∧
          writeAll (cellsOfHashes s) (turn pack client i batch).writes =
            cellsOfHashes (writeAll s (hashTurn pack client i batch).writes) := by
  unfold turn hashTurn
  cases hpipe : pipelineOf pack batch with
  | error e => exact ⟨rfl, fun s hs => ⟨hs, rfl⟩⟩
  | ok commands =>
      refine ⟨rfl, fun s hs => writeAll_commands (w := w) hglob (fun command hcommand => ?_) hs⟩
      obtain ⟨j, hj, -⟩ := mem_kept.mp hcommand
      obtain ⟨doc, hdoc, hadd⟩ := (mem_pipelineOf hpipe).mp (List.mem_of_getElem? hj)
      exact ⟨doc, hbatch doc hdoc, hadd⟩

/-- What the turns write are rows of the run. -/
theorem mem_rows_of_hashTurns {row : String × List (String × HashValue)}
    (h : row ∈ writesMade ((batchesOf (fleet.run w).chunkDocs).mapIdx (hashTurn pack client))) :
    row ∈ (layout globMatches pack).rows fleet w := by
  obtain ⟨t, ht, hrow, -⟩ := mem_writesMade h
  obtain ⟨i, hi⟩ := List.mem_iff_getElem?.mp ht
  obtain ⟨batch, hbatch, rfl⟩ := (getElem?_turns _).mp hi
  unfold hashTurn at hrow
  cases hpipe : pipelineOf pack batch with
  | error e => rw [hpipe] at hrow; cases hrow
  | ok commands =>
      rw [hpipe] at hrow
      obtain ⟨command, hcommand, rfl⟩ := List.mem_map.mp hrow
      obtain ⟨j, hj, -⟩ := mem_kept.mp hcommand
      obtain ⟨doc, hdoc, hadd⟩ := (mem_pipelineOf hpipe).mp (List.mem_of_getElem? hj)
      exact row_mem_rows (mem_iff_mem_batch.mpr ⟨i, batch, hbatch, hdoc⟩)
        (command_row globMatches hadd).1

/-- A turn that goes through writes the row of every document with an embedding, if no command
    fails. -/
theorem exists_row_of_hashTurn (globMatches : String → String → Bool) {i : Nat}
    {batch : List (ChunkDoc φ)}
    (hstored : ∀ j, (client i).stored j = true)
    (hstop : (hashTurn pack client i batch).stop = none) {doc : ChunkDoc φ} (hdoc : doc ∈ batch)
    (hne : doc.embedding.getD [] ≠ []) :
    ∃ row ∈ (hashTurn pack client i batch).writes,
      (layout globMatches pack).row doc = some row := by
  unfold hashTurn at hstop ⊢
  cases hpipe : pipelineOf pack batch with
  | error e => rw [hpipe] at hstop; cases hstop
  | ok commands =>
      obtain ⟨all, hall, -⟩ := bind_eq_ok.mp hpipe
      obtain ⟨found, -, hadd⟩ := exists_of_mem_forall₂ (forall₂_of_mapM hall).flip hdoc
      rcases addToPipeline_cases hadd with ⟨hnil, -⟩ | ⟨-, field, bytes, -, rfl⟩
      · exact absurd hnil hne
      · have hcommand := (mem_pipelineOf hpipe).mpr ⟨doc, hdoc, hadd⟩
        obtain ⟨j, hj⟩ := List.getElem?_of_mem hcommand
        exact ⟨_, List.mem_map_of_mem (mem_kept.mpr ⟨j, hj, hstored j⟩),
          (command_row globMatches hadd).1⟩

theorem insertsAsHistory (hglob : ReadsGlobs globMatches) (pack : φ → Option (List UInt8))
    (client : Nat → RequestOutcome) (fleet : Fleet φ ω) (w : ω) :
    InsertsAsHistory (layout globMatches pack) fleet w cellsOfHashes
      (insertChunks pack client (fleet.run w).chunkDocs)
      ((∀ i j, (client i).stored j = true) ∧
        ∀ doc ∈ (fleet.run w).chunkDocs, doc.embedding.getD [] ≠ []) := by
  intro s howned
  have hturns : List.Forall₂ (fun t u => u.stop = t.stop ∧
      ∀ s, Owned ((layout globMatches pack).rows fleet) s →
        Owned ((layout globMatches pack).rows fleet) (writeAll s t.writes) ∧
          writeAll (cellsOfHashes s) u.writes = cellsOfHashes (writeAll s t.writes))
      ((batchesOf (fleet.run w).chunkDocs).mapIdx (hashTurn pack client))
      ((batchesOf (fleet.run w).chunkDocs).mapIdx (turn pack client)) := by
    rw [List.forall₂_iff_get]
    refine ⟨by simp, fun i hi hi' => ?_⟩
    rw [List.length_mapIdx] at hi
    have hbatch : (batchesOf (fleet.run w).chunkDocs)[i] ∈ batchesOf (fleet.run w).chunkDocs :=
      List.getElem_mem hi
    simp only [List.get_eq_getElem, List.getElem_mapIdx]
    exact hashTurn_spec hglob i (fun doc hdoc => mem_iff_mem_batch.mpr
      ⟨i, _, List.getElem?_eq_getElem hi, hdoc⟩)
  have hws : ∀ row ∈ writesMade ((batchesOf (fleet.run w).chunkDocs).mapIdx
      (hashTurn pack client)), row ∈ (layout globMatches pack).rows fleet w :=
    fun row hrow => mem_rows_of_hashTurns hrow
  obtain ⟨events, hputs, hrun⟩ := history_writeAll hws s
  have hinsert : insertChunks pack client (fleet.run w).chunkDocs (cellsOfHashes s) =
      (cellsOfHashes (run s ((batchesOf (fleet.run w).chunkDocs).mapIdx
        (hashTurn pack client))).1,
        (run s ((batchesOf (fleet.run w).chunkDocs).mapIdx (hashTurn pack client))).2.2) := by
    have hall := pipelineBatches_eq pack client 0 (cellsOfHashes s)
      (batchesOf (fleet.run w).chunkDocs)
    simp only [Nat.zero_add] at hall
    rw [insertChunks, hall, run_abs hturns howned]
  refine ⟨events, _, hputs.ofRun, hrun, ?_, fun hok hcomplete => hputs.inserted ?_⟩
  · rw [hinsert, run_fst]
  · rw [hinsert] at hok
    intro doc hdoc
    have hdone := (run_ok_iff s _).mp hok
    obtain ⟨i, batch, hbatch, hmem⟩ := mem_iff_mem_batch.mp hdoc
    have hturn : hashTurn pack client i batch ∈
        (batchesOf (fleet.run w).chunkDocs).mapIdx (hashTurn pack client) :=
      List.mem_of_getElem? ((getElem?_turns _).mpr ⟨batch, hbatch, rfl⟩)
    obtain ⟨row, hwrite, hrow⟩ := exists_row_of_hashTurn globMatches (hcomplete.1 i)
      (hdone _ hturn) hmem (hcomplete.2 doc hdoc)
    rw [writesMade_of_completes hdone]
    exact ⟨row, List.mem_flatMap.mpr ⟨_, hturn, hwrite⟩, hrow⟩

end Insert

end Redis

/-! ## Postgres -/

namespace Postgres

/-- A document of a group has its row in the group's column. -/
theorem mem_byColumn {docs : List (ChunkDoc φ)} {groups : List (String × List (ChunkDoc φ))}
    (h : byColumn docs = .ok groups) :
    (∀ g ∈ groups, ∀ doc ∈ g.2, doc ∈ docs ∧ columnOf doc = .ok g.1) ∧
      ∀ doc ∈ docs, ∃ g ∈ groups, doc ∈ g.2 := by
  obtain ⟨columns, hcolumns, hgroups⟩ := bind_eq_ok.mp h
  obtain rfl := Except.ok.inj hgroups
  have hrel := forall₂_of_mapM hcolumns
  constructor
  · intro g hg doc hdoc
    obtain ⟨column, -, rfl⟩ := List.mem_map.mp hg
    obtain ⟨⟨c, d⟩, hcd, rfl⟩ := List.mem_map.mp hdoc
    obtain ⟨hzip, hc⟩ := List.mem_filter.mp hcd
    obtain rfl : c = column := of_decide_eq_true hc
    obtain ⟨i, hi⟩ := List.getElem?_of_mem hzip
    obtain ⟨hci, hdi⟩ := List.getElem?_zip_eq_some.mp hi
    obtain ⟨c', hc', hcol⟩ := getElem?_of_forall₂ hrel hdi
    rw [hci] at hc'
    cases hc'
    exact ⟨List.mem_of_getElem? hdi, hcol⟩
  · intro doc hdoc
    obtain ⟨i, hi⟩ := List.getElem?_of_mem hdoc
    obtain ⟨c, hc, -⟩ := getElem?_of_forall₂ hrel hi
    refine ⟨_, List.mem_map_of_mem (mem_firsts.mpr (List.mem_of_getElem? hc)), ?_⟩
    refine List.mem_map.mpr ⟨(c, doc), List.mem_filter.mpr ⟨?_, by simp⟩, rfl⟩
    exact List.mem_of_getElem? (List.getElem?_zip_eq_some.mpr ⟨hc, hi⟩)

/-- A statement writes its rows or nothing; if it returns, its rows. -/
theorem executeMany_spec (outcome : CommitOutcome) (rows : List (ChunkRow φ))
    (chunks : Cells String (ChunkRow φ)) : ∃ ws, (ws = [] ∨ ws = keyed rows) ∧
      (executeMany outcome rows chunks).1 = writeAll chunks ws ∧
        ((executeMany outcome rows chunks).2 = .ok () → ws = keyed rows) := by
  cases outcome with
  | committed =>
      rw [executeMany]
      split
      · exact ⟨_, Or.inr rfl, rfl, fun _ => rfl⟩
      · exact ⟨[], Or.inl rfl, rfl, of_error_eq_ok⟩
  | rolledBack e => exact ⟨[], Or.inl rfl, rfl, of_error_eq_ok⟩
  | lost e =>
      rw [executeMany]
      split
      · exact ⟨_, Or.inr rfl, rfl, of_error_eq_ok⟩
      · exact ⟨[], Or.inl rfl, rfl, of_error_eq_ok⟩

theorem row_eq {doc : ChunkDoc φ} {column : String} {row : ChunkRow φ}
    (hcolumn : columnOf doc = .ok column) (hrow : chunkParams column doc = .ok row) :
    layout.row doc = some (row.chunkId, row) := by
  have hof : rowOf doc = .ok row := by
    rw [rowOf, hcolumn]
    exact hrow
  change (rowOf doc).toOption.map _ = _
  rw [hof]
  rfl

/-- The loop writes rows of documents in its groups; all of them, if it returns. -/
theorem insertGroups_writes (commit : Nat → CommitOutcome)
    {groups : List (String × List (ChunkDoc φ))} {docs : List (ChunkDoc φ)}
    (hgroups : ∀ g ∈ groups, ∀ doc ∈ g.2, doc ∈ docs ∧ columnOf doc = .ok g.1) (i : Nat)
    (chunks : Cells String (ChunkRow φ)) :
    ∃ ws, (∀ row ∈ ws, ∃ doc ∈ docs, layout.row doc = some row) ∧
      (insertGroups commit i chunks groups).1 = writeAll chunks ws ∧
        ((insertGroups commit i chunks groups).2 = .ok () →
          ∀ g ∈ groups, ∀ doc ∈ g.2, ∃ row ∈ ws, layout.row doc = some row) := by
  induction groups generalizing i chunks with
  | nil => exact ⟨[], nofun, rfl, nofun⟩
  | cons g groups ih =>
      obtain ⟨column, group⟩ := g
      obtain ⟨hgroup, hrest⟩ := List.forall_mem_cons.mp hgroups
      rw [insertGroups]
      cases hparams : group.mapM (chunkParams column) with
      | error e => exact ⟨[], nofun, rfl, nofun⟩
      | ok rows =>
          have hrel := forall₂_of_mapM hparams
          have hown : ∀ row ∈ keyed rows, ∃ doc ∈ docs, layout.row doc = some row := by
            intro row hrow
            obtain ⟨r, hr, rfl⟩ := List.mem_map.mp hrow
            obtain ⟨doc, hdoc, hp⟩ := exists_of_mem_forall₂ hrel hr
            obtain ⟨hmem, hcolumn⟩ := hgroup doc hdoc
            exact ⟨doc, hmem, row_eq hcolumn hp⟩
          obtain ⟨ws, hws, heq, hok⟩ := executeMany_spec (commit i) rows chunks
          have hsome : ∀ row ∈ ws, ∃ doc ∈ docs, layout.row doc = some row := by
            rcases hws with rfl | rfl
            · exact nofun
            · exact hown
          dsimp only
          rcases hexec : executeMany (commit i) rows chunks with ⟨chunks', e | u⟩
          · rw [hexec] at heq
            exact ⟨ws, hsome, heq, nofun⟩
          · rw [hexec] at heq hok
            obtain rfl := hok rfl
            obtain rfl : chunks' = writeAll chunks (keyed rows) := heq
            obtain ⟨ws', hws', heq', hall⟩ := ih hrest (i + 1) (writeAll chunks (keyed rows))
            refine ⟨keyed rows ++ ws', List.forall_mem_append.mpr ⟨hown, hws'⟩, ?_, ?_⟩
            · rw [writeAll_append]
              exact heq'
            · intro hdone
              refine List.forall_mem_cons.mpr ⟨fun doc hdoc => ?_, fun g hg doc hdoc => ?_⟩
              · obtain ⟨r, hr, hp⟩ := exists_of_mem_forall₂ hrel.flip hdoc
                exact ⟨(r.chunkId, r), List.mem_append_left _ (List.mem_map_of_mem hr),
                  row_eq (hgroup doc hdoc).2 hp⟩
              · obtain ⟨row, hrow, hkv⟩ := hall hdone g hg doc hdoc
                exact ⟨row, List.mem_append_right _ hrow, hkv⟩

theorem insertsAsHistory (commit : Nat → CommitOutcome) (fleet : Fleet φ ω) (w : ω) :
    InsertsAsHistory layout fleet w id (insertChunks commit (fleet.run w).chunkDocs) True := by
  refine insertsAsHistory_of_writes fun s => ?_
  rw [insertChunks]
  cases hgroups : byColumn (fleet.run w).chunkDocs with
  | error e => exact ⟨[], nofun, rfl, nofun⟩
  | ok groups =>
      obtain ⟨hmem, hcover⟩ := mem_byColumn hgroups
      obtain ⟨ws, hws, heq, hall⟩ := insertGroups_writes commit hmem 0 s
      refine ⟨ws, fun row hrow => ?_, heq, fun hok doc hdoc => ?_⟩
      · obtain ⟨doc, hdoc, hkv⟩ := hws row hrow
        exact row_mem_rows hdoc hkv
      · obtain ⟨g, hg, hin⟩ := hcover doc hdoc
        exact hall hok g hg doc hin

end Postgres

/-! ## MongoDB -/

namespace Mongo

/-- Documents are written under their ids; all of them, if the call returns. -/
theorem insertChunks_writes (objectId : ChunkDoc φ → String)
    (failure : Option (Nat × InsertError)) (docs : List (ChunkDoc φ))
    (s : Cells String (ChunkDoc φ)) :
    ∃ written, (∀ doc ∈ written, doc ∈ docs) ∧
      (insertChunks objectId failure docs s).1 =
        writeAll s (written.map fun doc => (objectId doc, doc)) ∧
      ((insertChunks objectId failure docs s).2 = .ok () → written = docs) := by
  unfold insertChunks
  split
  · rename_i hempty
    rw [List.isEmpty_iff.mp hempty]
    exact ⟨[], fun _ h => h, rfl, fun _ => rfl⟩
  · cases failure with
    | none => exact ⟨docs, fun _ h => h, rfl, fun _ => rfl⟩
    | some failure => exact ⟨_, fun _ h => List.mem_of_mem_take h, rfl, of_error_eq_ok⟩

theorem insertsAsHistory (objectId : ChunkDoc φ → String) (failure : Option (Nat × InsertError))
    (fleet : Fleet φ ω) (w : ω) :
    InsertsAsHistory (layout objectId) fleet w id
      (insertChunks objectId failure (fleet.run w).chunkDocs) True := by
  refine insertsAsHistory_of_writes fun s => ?_
  obtain ⟨written, hsub, heq, hall⟩ :=
    insertChunks_writes objectId failure (fleet.run w).chunkDocs s
  refine ⟨_, fun row hrow => ?_, heq, fun hok doc hdoc => ?_⟩
  · obtain ⟨doc, hdoc, rfl⟩ := List.mem_map.mp hrow
    exact row_mem_rows (hsub doc hdoc) rfl
  · rw [hall hok]
    exact ⟨_, List.mem_map_of_mem hdoc, rfl⟩

end Mongo

/-! ## All four stores -/

/-- What the servers of the four stores do with an insertion. -/
structure InsertServers (φ : Type) where
  cluster : Elasticsearch.Cluster
  globMatches : String → String → Bool
  pack : φ → Option (List UInt8)
  client : Nat → RequestOutcome
  commit : Nat → Postgres.CommitOutcome
  objectId : ChunkDoc φ → String
  failure : Option (Nat × InsertError)

/-- `insert_chunks` of each store, for the documents of a run, is a history of the run. -/
structure AllInsertAsHistory (servers : InsertServers φ) (fleet : Fleet φ ω) (w : ω) : Prop where
  elasticsearch : InsertsAsHistory Elasticsearch.layout fleet w id
    (Elasticsearch.insertChunks servers.cluster (fleet.run w).chunkDocs) True
  /-- All commands are carried out, and no embedding is empty. -/
  redis : InsertsAsHistory (Redis.layout servers.globMatches servers.pack) fleet w
    Redis.cellsOfHashes (Redis.insertChunks servers.pack servers.client (fleet.run w).chunkDocs)
    ((∀ i j, (servers.client i).stored j = true) ∧
      ∀ doc ∈ (fleet.run w).chunkDocs, doc.embedding.getD [] ≠ [])
  postgres : InsertsAsHistory Postgres.layout fleet w id
    (Postgres.insertChunks servers.commit (fleet.run w).chunkDocs) True
  mongo : InsertsAsHistory (Mongo.layout servers.objectId) fleet w id
    (Mongo.insertChunks servers.objectId servers.failure (fleet.run w).chunkDocs) True

/-- Whatever the servers answer, an insertion puts rows of its run, and all of them if it
    returns. -/
theorem insertChunks_history (servers : InsertServers φ)
    (hglob : Redis.ReadsGlobs servers.globMatches) (fleet : Fleet φ ω) (w : ω) :
    AllInsertAsHistory servers fleet w where
  elasticsearch := Elasticsearch.insertsAsHistory _ fleet w
  redis := Redis.insertsAsHistory hglob _ _ fleet w
  postgres := Postgres.insertsAsHistory _ fleet w
  mongo := Mongo.insertsAsHistory _ _ fleet w

/-- The layouts of the four stores. -/
inductive StoreLayout (fleet : Fleet φ ω) : {κ ν : Type} → Layout φ κ ν → Prop
  | elasticsearch : StoreLayout fleet Elasticsearch.layout
  | redis {globMatches : String → String → Bool} (globs : Redis.ReadsGlobs globMatches)
      (pack : φ → Option (List UInt8)) : StoreLayout fleet (Redis.layout globMatches pack)
  | postgres : StoreLayout fleet Postgres.layout
  | mongo {objectId : ChunkDoc φ → String} (fresh : Mongo.FreshIds objectId fleet) :
      StoreLayout fleet (Mongo.layout objectId)

theorem StoreLayout.lawful {fleet : Fleet φ ω} {L : Layout φ κ ν} (h : StoreLayout fleet L) :
    L.Lawful fleet := by
  cases h with
  | elasticsearch => exact Elasticsearch.lawful fleet
  | redis globs pack => exact Redis.lawful globs pack fleet
  | postgres => exact Postgres.lawful fleet
  | mongo fresh => exact Mongo.lawful fresh

/-- **The scope of a run.** In every interleaving in which everything of the run has been inserted,
    and nothing of it deleted, a filter on its ids finds the rows of its documents, each of them
    and no others. -/
theorem chunkScope_exact [DecidableEq κ] {fleet : Fleet φ ω} {L : Layout φ κ ν}
    (hstore : StoreLayout fleet L) {w : ω} {events : List (StoreEvent ω κ)} {t : Cells κ ν}
    (hrun : history L fleet (fun _ => none) events = some t)
    (hinserted : Inserted L fleet w events) :
    (∀ k v, t k = some v ∧ L.Finds (fleet.run w).scope v ↔
      ∃ i doc, (fleet.run w).IsDoc i doc ∧ L.row doc = some (k, v)) ∧
        ∀ i doc, (fleet.run w).IsDoc i doc → ∃ k v, L.row doc = some (k, v) ∧ t k = some v := by
  have hexact := Layout.scope_exact hstore.lawful hrun hinserted.put hinserted.kept
  refine ⟨fun k v => (hexact k v).trans Layout.mem_rows, fun i doc hdoc => ?_⟩
  obtain ⟨⟨k, v⟩, hrow⟩ := hinserted.rows doc ((fleet.run w).mem_chunkDocs.mpr ⟨i, hdoc⟩)
  exact ⟨k, v, hrow, ((hexact k v).mpr (Layout.mem_rows.mpr ⟨i, doc, hdoc, hrow⟩)).1⟩

/-- A run of one chunk. -/
def oneChunkRun (experimentId runId : String) (he : IsUuid experimentId) (hr : IsUuid runId) :
    ChunkedRun Nat where
  experimentId := experimentId
  runId := runId
  params := runParamsOf (miniLmGrid .stop 512 [] []) (miniLm, .recursive, 512, 0, 0, .dense)
  chunks := ["pell grant"]
  embeddings := [[1]]
  experiment_uuid := he
  run_uuid := hr

/-- Two runs, of different experiments. -/
def twoRuns : Fleet Nat Bool where
  run
    | true => oneChunkRun "e" "a" (by decide) (by decide)
    | false => oneChunkRun "f" "b" (by decide) (by decide)
  distinct b b' h := by cases b <;> cases b' <;> first | rfl | exact absurd h (by decide)

/-- The chunk id serves for the `_id`. -/
def chunkIdAsObjectId (doc : ChunkDoc Nat) : String := doc.chunkId.getD ""

theorem freshIds_chunkId {ω : Type} (fleet : Fleet Nat ω) :
    Mongo.FreshIds chunkIdAsObjectId fleet := by
  rintro w w' i i' doc doc' ⟨chunk, emb, -, -, rfl⟩ ⟨chunk', emb', -, -, rfl⟩ h
  exact congrArg some h

/-- Both runs store their chunks, and the second one's experiment is deleted. -/
def twoRunEvents : List (StoreEvent Bool String) :=
  [.stored true 0, .stored false 0, .experimentDeleted "f" (by decide) fun _ => true]

theorem chunkScope_of_twoRuns :
    ∃ t, history (Mongo.layout chunkIdAsObjectId) twoRuns (fun _ => none) twoRunEvents = some t ∧
      (∀ k v, t k = some v ∧
          (Mongo.layout chunkIdAsObjectId).Finds (twoRuns.run true).scope v ↔
        ∃ i doc, (twoRuns.run true).IsDoc i doc ∧
          (Mongo.layout chunkIdAsObjectId).row doc = some (k, v)) ∧
        ∀ i doc, (twoRuns.run true).IsDoc i doc → ∃ k v,
          (Mongo.layout chunkIdAsObjectId).row doc = some (k, v) ∧ t k = some v := by
  obtain ⟨t, ht⟩ : ∃ t, history (Mongo.layout chunkIdAsObjectId) twoRuns (fun _ => none)
      twoRunEvents = some t := ⟨_, rfl⟩
  refine ⟨t, ht, chunkScope_exact (.mongo (freshIds_chunkId twoRuns)) ht ⟨?_, ?_, ?_⟩⟩
  · exact fun doc _ => ⟨_, rfl⟩
  · intro row hrow
    have hrows : (Mongo.layout chunkIdAsObjectId).rows twoRuns true = [row] := by
      obtain rfl := List.mem_singleton.mp hrow
      rfl
    exact ⟨0, by rw [hrows]; rfl, by simp [twoRunEvents]⟩
  · intro event hevent
    simp only [twoRunEvents, List.mem_cons, List.not_mem_nil, or_false] at hevent
    rcases hevent with rfl | rfl | rfl
    · exact not_false
    · exact not_false
    · simp only [StoreEvent.Deletes]
      decide

/-- A pattern that ends in `*`, read as its prefix. -/
def globByPrefix (pattern key : String) : Bool := pattern.toList.dropLast.isPrefixOf key.toList

theorem readsGlobs_globByPrefix : Redis.ReadsGlobs globByPrefix := by
  intro start key _
  have hstart : (start ++ "*").toList.dropLast = start.toList := by
    rw [String.toList_append]
    exact List.dropLast_concat
  rw [globByPrefix, hstart]
  exact List.isPrefixOf_iff_prefix

/-- Servers that fail at the second request, or half-way through the first. -/
def failingServers : InsertServers Nat where
  cluster := ⟨fun i => if i = 0 then .answered fun _ => none
    else .raised (fun j => j = 0) (.requestError "timed out"), .raised fun _ => false⟩
  globMatches := globByPrefix
  pack n := if n = 0 then some [0, 0, 0, 0] else none
  client _ := .answered fun j => if j = 1 then some "out of memory" else none
  commit _ := .lost (.requestError "connection reset")
  objectId := chunkIdAsObjectId
  failure := some (1, .requestError "not primary")

theorem insertChunks_history_of_failing : AllInsertAsHistory failingServers twoRuns true :=
  insertChunks_history failingServers readsGlobs_globByPrefix twoRuns true

end RagParamsFinder
