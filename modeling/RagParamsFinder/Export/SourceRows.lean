/-
  The rows of a run-state database as the results exporter reads them
  (`server/db/sqlite/sqlite_docs.py`, the first loop of `analyze_results`, and
  `provider_less_key` of `scripts/walkthru/export_walkthru_results.py`).

  The columns of ids and texts hold texts, and ids are unique in a table. The JSON of a row is
  any: what `int`, `float`, `.get` and a loop raise on it is raised here, and that of a score
  which is not finite, which `round` refuses later. A chunk's text and a hit's method are left
  out where they are no strings, and so is the dense score of a reranked hit.

  Proved: `eq_of_readRuns`, `eq_result_of_read`. What a reader returns, if it returns, is what
  the rows say.
-/
import RagParamsFinder.Explore.Compare

namespace RagParamsFinder

open Documents Grouping Ranking Traversals

/-! ## Rows -/

structure ExportExperiment where
  id : String
  doc : Doc
  doc_id : (doc.item "experiment_id").isSome

/-- A run row: its document, and what the column `embedding_dimensions` holds. -/
structure ExportRun where
  id : String
  experimentId : String
  dimensions : Value
  doc : Doc
  doc_id : runIdOf doc = some id

/-- A result row, with the JSON of its column `doc`. -/
structure ExportResult where
  experimentId : String
  runId : String
  queryId : String
  queryText : String
  doc : Doc

/-- A run-state database. -/
structure Source where
  experiments : List ExportExperiment
  runs : List ExportRun
  results : List ExportResult
  experimentIds : (experiments.map (·.id)).Nodup
  runIds : (runs.map (·.id)).Nodup

/-! ## Runs -/

/-- What `read_runs` selects. -/
def readRunRows (source : Source) (experimentId : String) : List ExportRun :=
  rankBy (·.id) (source.runs.filter (·.experimentId = experimentId))

/-- `run_row_to_doc`, where `int(dims)` may raise. -/
def ExportRun.decode (run : ExportRun) : Except Raised ExportRun :=
  match run.dimensions with
  | .null => .ok run
  | dims => dims.intOf.map fun _ => run

/-- `read_runs`. -/
def Source.readRuns (source : Source) (experimentId : String) : Except Raised (List ExportRun) :=
  (readRunRows source experimentId).mapM ExportRun.decode

theorem ExportRun.eq_of_decode {run run' : ExportRun} (h : run.decode = .ok run') :
    run' = run := by
  unfold ExportRun.decode at h
  split at h
  · exact (Except.ok.inj h).symm
  · cases hdims : run.dimensions.intOf with
    | error e =>
        rw [hdims] at h
        cases h
    | ok n =>
        rw [hdims] at h
        exact (Except.ok.inj h).symm

theorem eq_of_readRuns {source : Source} {experimentId : String} {runs : List ExportRun}
    (h : source.readRuns experimentId = .ok runs) : runs = readRunRows source experimentId :=
  (eq_map_of_mapM (fun _ _ => ExportRun.eq_of_decode) h).trans (List.map_id _)

/-- `provider_less_key`, whose first part is empty. -/
def providerLessKey (run : Doc) : Except Raised (KeyFields Value) :=
  runConfigKey "" (run.set "database_provider" (.str ""))

theorem providerLessKey_set (run : Doc) (v : Value) :
    providerLessKey (run.set "database_provider" v) = providerLessKey run := by
  unfold providerLessKey
  rw [Doc.set_set]

theorem runConfigKey_of_item {run : Doc} {v : Value}
    (h : run.item "database_provider" = some v) (defaultDatabase defaultDatabase' : String) :
    runConfigKey defaultDatabase run = runConfigKey defaultDatabase' run := by
  have hget : ∀ d, run.getDefault "database_provider" d = v := fun d =>
    congrArg (Option.getD · d) h
  unfold runConfigKey
  rw [hget, hget]

/-- Under the name of a store the run has the key with that name. -/
theorem runConfigKey_set {run : Doc} {key : KeyFields Value} (h : providerLessKey run = .ok key)
    (defaultDatabase store : String) :
    runConfigKey defaultDatabase (run.set "database_provider" (.str store)) =
      .ok { key with databaseProvider := .str store } := by
  have hless : runConfigKey defaultDatabase (run.set "database_provider" (.str "")) = .ok key :=
    (runConfigKey_of_item (Doc.item_set_self run _ _) defaultDatabase "").trans h
  rw [runConfigKey_of_database (Doc.item_set_self run _ _), Doc.set_set, hless]
  rfl

/-! ## Results -/

/-- A score as a double; `round` raises on one that is not finite. -/
def scoreOf (v : Value) : Except Raised Rat := v.floatOf >>= raising .valueError

/-- An element of `qr["results"]`. -/
def readHit : Value → Except Raised Hit
  | .dict sr => do
      let chunk ← match Doc.getDefault sr "chunk" (.dict []) with
        | .dict chunk => .ok chunk
        | _ => .error .attributeError
      let hit : Hit :=
        { chunkText := (textOf (Doc.get chunk "text")).getD ""
          retrievalMethod := (textOf (Doc.get sr "retrieval_method")).getD ""
          denseScore := 0
          rerankScore := none }
      match Doc.get sr "rerank_score" with
      | .null => do
          let score ← scoreOf (Doc.getDefault sr "dense_score" (.float 0))
          return { hit with denseScore := score }
      | rerank => do
          let score ← scoreOf rerank
          return { hit with rerankScore := some score }
  | _ => .error .attributeError

/-- The hits of a result; the elements of what is no list are texts, which have no `get`. -/
def readHits (doc : Doc) : Except Raised (List Hit) :=
  match doc.getDefault "results" (.list []) with
  | .list hits => hits.mapM readHit
  | .str s => if s = "" then .ok [] else .error .attributeError
  | .timeText _ _ => .error .attributeError
  | .dict kvs => if kvs.isEmpty then .ok [] else .error .attributeError
  | _ => .error .typeError

/-- `result_row_to_doc`, with its hits. -/
def ExportResult.read (r : ExportResult) : Except Raised QueryResult :=
  (readHits r.doc).map fun hits => ⟨r.runId, r.queryText, hits⟩

/-- The result of a row; it has no hit where reading them raises. -/
def ExportResult.result (r : ExportResult) : QueryResult where
  runId := r.runId
  queryText := r.queryText
  results := (readHits r.doc).toOption.getD []

theorem ExportResult.eq_result_of_read {r : ExportResult} {q : QueryResult}
    (h : r.read = .ok q) : q = r.result := by
  unfold ExportResult.read at h
  unfold ExportResult.result
  cases hhits : readHits r.doc with
  | error e =>
      rw [hhits] at h
      cases h
  | ok hits =>
      rw [hhits] at h
      exact (Except.ok.inj h).symm

end RagParamsFinder
