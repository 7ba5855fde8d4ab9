/-
  The search-index preflight of the MongoDB store
  (`server/core/guards/search_index_guard.py`, `server/db/mongo/indexes.py`).

  `validate_experiment_search_indexes` is a program that calls the cluster. Preflights run
  beside one another, and between two calls the cluster may change on its own (builds end,
  other projects create and drop indexes). The definitions of the indexes, the standard
  MongoDB indexes and the log are left out; what is polled for at most 120 seconds, every 5,
  is polled for at most 24 times.

  Proved:
  * `meets_validate`: what a preflight may drop, and when it may return, whatever the cluster
    answers.
  * `preflight_run`: the same for every step of every run of a server.
  * `surplus_is_required`: what is surplus to one configuration may be what a running
    experiment requires.
-/
import RagParamsFinder.Guards.SearchIndexPlan
import RagParamsFinder.Lib.Programs
import RagParamsFinder.Lib.StepMachine

namespace RagParamsFinder

open Programs

/-! ## The cluster -/

def chunksCollection : String := "chunks"

/-- A search index as `list_cluster_search_indexes` reports it. What Atlas calls READY can be
    queried. -/
structure IndexRow where
  database : String
  collection : String
  name : String
  status : String
  queryable : Bool
  queryable_of_ready : status.toUpper = "READY" → queryable = true

def IndexRow.known (row : IndexRow) : Bool := row.name ∈ knownSearchIndexNames

/-- `_is_ready`. -/
def IndexRow.isReady (row : IndexRow) : Bool := row.status.toUpper = "READY"

def IndexRow.isFailed (row : IndexRow) : Bool := row.status.toUpper = "FAILED"

/-- The row is one of `chunks` in the server's database. -/
def IndexRow.onChunks (database : String) (row : IndexRow) : Bool :=
  row.database = database ∧ row.collection = chunksCollection

inductive Creation where
  | created
  | unavailable
  | error

/-- A call of the cluster: `list_cluster_search_indexes`, `chunks.list_search_indexes`,
    `drop_search_index`, `create_search_indexes` on `chunks`, `_ensure_standard_indexes`, and
    the clock of `_wait_for_indexes_ready`. -/
inductive IndexCall where
  | list
  | chunksIndexes
  | drop (database collection name : String)
  | create (name : String)
  | standard
  | inTime

/-- `none` and `false` are exceptions, except that the clock says `false` after the
    deadline. -/
abbrev IndexCall.Answer : IndexCall → Type
  | .list => Option (List IndexRow)
  | .chunksIndexes => Option (List IndexRow)
  | .drop _ _ _ => Bool
  | .create _ => Creation
  | .standard => Bool
  | .inTime => Bool

/-- `SearchIndexMismatchError`, or an exception of the driver. -/
inductive GuardError where
  | mismatch (message : String)
  | service

abbrev Guard (α : Type) := Program IndexCall IndexCall.Answer GuardError α

/-! ## Dropping -/

def listClusterSearchIndexes : Guard (List IndexRow) :=
  .call .list fun
    | some rows => .done rows
    | none => .raise .service

def dropSearchIndexAt (database collection name : String) : Guard Unit :=
  .call (.drop database collection name) fun
    | true => .done ()
    | false => .raise .service

def pruneRows : List IndexRow → Guard (List String)
  | [] => .done []
  | row :: rows =>
      if row.known then pruneRows rows
      else do
        dropSearchIndexAt row.database row.collection row.name
        let dropped ← pruneRows rows
        return s!"{row.database}.{row.collection}.{row.name}" :: dropped

/-- `prune_unknown_search_indexes`. -/
def pruneUnknownSearchIndexes : Guard (List String) := do
  let rows ← listClusterSearchIndexes
  pruneRows rows

def dropReason (required : List String) (row : IndexRow) : Option String :=
  if row.isFailed then some "failed"
  else if row.known ∧ row.name ∉ required then some "surplus"
  else none

def reconcileRows (database : String) (required : List String) :
    List IndexRow → Guard (List String)
  | [] => .done []
  | row :: rows =>
      if !row.onChunks database then reconcileRows database required rows
      else match dropReason required row with
        | none => reconcileRows database required rows
        | some reason => do
            dropSearchIndexAt database chunksCollection row.name
            let dropped ← reconcileRows database required rows
            return s!"{row.name} ({reason})" :: dropped

/-- `reconcile_chunks_search_indexes`. -/
def reconcileChunksSearchIndexes (database : String) (required : List String) :
    Guard (List String) := do
  let rows ← listClusterSearchIndexes
  reconcileRows database required rows

/-! ## Creating -/

/-- `_get_existing_search_indexes`. -/
def getExistingSearchIndexes : Guard (List String) :=
  .call .chunksIndexes fun
    | some rows => .done (rows.map (·.name))
    | none => .done []

/-- `_wait_for_indexes_ready`, with the number of polls that fit before the deadline. -/
def waitForIndexesReady (names : List String) : Nat → Guard Bool
  | 0 => .done false
  | polls + 1 => .call .inTime fun
      | false => .done false
      | true => .call .chunksIndexes fun answer =>
          let statuses := (answer.getD []).filter (·.name ∈ names)
          if (statuses.all fun row => row.status = "READY" ∨ row.status = "True") ∧
              statuses.length = names.length then .done true
          else waitForIndexesReady names polls

def indexPolls : Nat := 24

/-- What `create_vector_index` and `create_text_search_index` have in common. -/
def createSearchIndex (name : String) : Guard Bool := do
  let existing ← getExistingSearchIndexes
  if name ∈ existing then .done true
  else .call (.create name) fun
    | .created => waitForIndexesReady [name] indexPolls
    | .unavailable => .done false
    | .error => .raise .service

def createVectorIndex (name : String) : Guard Bool := createSearchIndex name

def createTextSearchIndex : Guard Bool := createSearchIndex textSearchIndexName

def ensureEach : List String → Guard Unit
  | [] => .done ()
  | name :: names =>
      if name = textSearchIndexName then do
        let _ ← createTextSearchIndex
        ensureEach names
      else match vectorIndexDimensions name with
        | some _ => do
            let _ ← createVectorIndex name
            ensureEach names
        | none => ensureEach names

/-- `ensure_required_search_indexes`. -/
def ensureRequiredSearchIndexes (required : List String) : Guard Unit :=
  .call .standard fun
    | true => ensureEach required
    | false => .raise .service

/-! ## The preflight -/

def snapshotOf (database : String) (clusterLimit : Nat) (rows : List IndexRow) :
    SearchIndexSnapshot where
  chunksReady := (rows.filter fun row => row.onChunks database && row.isReady).map (·.name)
  chunksBuilding := (rows.filter fun row => row.onChunks database && !row.isReady).map (·.name)
  clusterTotal := rows.length
  clusterLimit := clusterLimit
  unknownCount := rows.countP fun row => !row.known

section Validate

variable (database : String) (clusterLimit : Nat)

/-- `collect_search_index_snapshot`. -/
def collectSearchIndexSnapshot : Guard SearchIndexSnapshot := do
  let rows ← listClusterSearchIndexes
  return snapshotOf database clusterLimit rows

variable (required : List String)

/-- A new snapshot and its assessment. -/
def assessCluster : Guard SearchIndexAssessment := do
  let snapshot ← collectSearchIndexSnapshot database clusterLimit
  return assessSearchIndexReadiness required snapshot

/-- The last lines of `validate_experiment_search_indexes`. -/
def concludePreflight (assessment : SearchIndexAssessment) : Guard SearchIndexAssessment :=
  if assessment.isSatisfied then .done assessment
  else .raise (.mismatch (formatMismatchMessage assessment))

/-- From `can_create` on. -/
def createMissing (assessment : SearchIndexAssessment) : Guard SearchIndexAssessment :=
  if assessment.missing ≠ [] ∧ assessment.missing.length ≤ assessment.availableSlots then do
    ensureRequiredSearchIndexes required
    let assessment ← assessCluster database clusterLimit required
    concludePreflight assessment
  else concludePreflight assessment

/-- From the test for missing slots on. -/
def pruneThenCreate (assessment : SearchIndexAssessment) : Guard SearchIndexAssessment :=
  if assessment.missing ≠ [] ∧ assessment.availableSlots < assessment.missing.length then do
    let unknownDropped ← pruneUnknownSearchIndexes
    if unknownDropped ≠ [] then
      let assessment ← assessCluster database clusterLimit required
      createMissing database clusterLimit required assessment
    else createMissing database clusterLimit required assessment
  else createMissing database clusterLimit required assessment

/-- From the call of `reconcile_chunks_search_indexes` on. -/
def reconcileThenCreate (assessment : SearchIndexAssessment) : Guard SearchIndexAssessment := do
  let dropped ← reconcileChunksSearchIndexes database required
  if dropped ≠ [] then
    let assessment ← assessCluster database clusterLimit required
    if assessment.isSatisfied then .done assessment
    else pruneThenCreate database clusterLimit required assessment
  else pruneThenCreate database clusterLimit required assessment

/-- `validate_experiment_search_indexes` on the MongoDB store. -/
def validateExperimentSearchIndexes (attemptEnsure : Bool) (config : ExperimentConfig) :
    Guard SearchIndexAssessment :=
  let required := requiredSearchIndexes config
  match validateVectorIndexFeasibility required with
  | some message => .raise (.mismatch message)
  | none => do
      let assessment ← assessCluster database clusterLimit required
      if assessment.isSatisfied then .done assessment
      else if !attemptEnsure then .raise (.mismatch (formatMismatchMessage assessment))
      else reconcileThenCreate database clusterLimit required assessment

end Validate

/-! ## What a preflight may do -/

/-- How a call is answered; the collections of a listing that cannot be read are left out. -/
inductive Reply where
  | rows (unreadable : List (String × String))
  | done
  | unavailable
  | fails
  | flag (b : Bool)

/-- A new index: its build is pending. -/
def pendingRow (database name : String) : IndexRow where
  database := database
  collection := chunksCollection
  name := name
  status := "PENDING"
  queryable := false
  queryable_of_ready := by decide +kernel

section Specs

variable (database : String) (limit : Nat)

/-- The cluster's part in a call; it holds at most `limit` search indexes. -/
def serveCall (catalogue : List IndexRow) :
    (op : IndexCall) → Reply → Option (List IndexRow × op.Answer)
  | .list, .rows unreadable =>
      some (catalogue,
        some (catalogue.filter fun row => (row.database, row.collection) ∉ unreadable))
  | .list, .fails => some (catalogue, none)
  | .chunksIndexes, .rows _ => some (catalogue, some (catalogue.filter (·.onChunks database)))
  | .chunksIndexes, .fails => some (catalogue, none)
  | .drop db collection name, .done =>
      some (catalogue.filter fun row =>
        ¬(row.database = db ∧ row.collection = collection ∧ row.name = name), true)
  | .drop _ _ _, .fails => some (catalogue, false)
  | .create name, .done =>
      if catalogue.length < limit then
        some (catalogue ++ [pendingRow database name], Creation.created)
      else none
  | .create _, .unavailable => some (catalogue, Creation.unavailable)
  | .create _, .fails => some (catalogue, Creation.error)
  | .standard, .done => some (catalogue, true)
  | .standard, .fails => some (catalogue, false)
  | .inTime, .flag b => some (catalogue, b)
  | _, _ => none

def Serves (catalogue : List IndexRow) (op : IndexCall) (answer : op.Answer) : Prop :=
  ∃ reply after, serveCall database limit catalogue op reply = some (after, answer)

abbrev IndexTrace := Trace (List IndexRow) IndexCall IndexCall.Answer

/-- A listing that returned `rows`, made of the catalogue `s`. -/
def listing (s rows : List IndexRow) : Event (List IndexRow) IndexCall IndexCall.Answer :=
  ⟨s, .list, some rows⟩

/-- A listing in the trace had this row. -/
def Listed (tr : IndexTrace) (row : IndexRow) : Prop :=
  ∃ s rows, listing s rows ∈ tr ∧ row ∈ rows

/-- What a preflight for `required` may drop: failed indexes of `chunks`, known ones that it
    does not require, and indexes that the project does not know. -/
def Droppable (required : List String) (row : IndexRow) : Prop :=
  (row.onChunks database ∧ (row.isFailed ∨ (row.known ∧ row.name ∉ required))) ∨ row.known = false

/-- An index is dropped only after a listing that had it droppable. -/
def Justified (required : List String) (tr : IndexTrace) : IndexCall → Prop
  | .drop db collection name => ∃ row, Listed tr row ∧ row.database = db ∧
      row.collection = collection ∧ row.name = name ∧ Droppable database required row
  | _ => True

/-- The last call was a listing, made when all required indexes could be queried. -/
def EndsReady (required : List String) (tr : IndexTrace) : Prop :=
  ∃ s rows, tr.getLast? = some (listing s rows) ∧
    ∀ name ∈ required, ∃ row ∈ s, row.onChunks database ∧ row.name = name ∧ row.queryable

variable {database limit} {required : List String}

theorem listed_append {tr : IndexTrace} {row : IndexRow} (h : Listed tr row) (tr' : IndexTrace) :
    Listed (tr ++ tr') row := by
  obtain ⟨s, rows, hmem, hrow⟩ := h
  exact ⟨s, rows, List.mem_append_left _ hmem, hrow⟩

theorem mem_of_serves_list {s rows : List IndexRow}
    (h : Serves database limit s .list (some rows)) : ∀ row ∈ rows, row ∈ s := by
  obtain ⟨reply, after, h⟩ := h
  cases reply with
  | rows unreadable =>
      have hpair := Option.some.inj h
      have hrows := Option.some.inj (congrArg Prod.snd hpair)
      exact fun row hrow => List.mem_of_mem_filter (hrows ▸ hrow)
  | fails => exact absurd (congrArg Prod.snd (Option.some.inj h)).symm (Option.some_ne_none _)
  | _ => exact absurd h.symm (Option.some_ne_none _)

abbrev MeetsGuard {α : Type} (database : String) (limit : Nat) (required : List String)
    (post : IndexTrace → α → Prop) (tr : IndexTrace) (p : Guard α) : Prop :=
  Meets (Serves database limit) (Justified database required) post tr p

theorem meets_listCluster {post : IndexTrace → List IndexRow → Prop} {tr : IndexTrace}
    (h : ∀ s rows, (∀ row ∈ rows, row ∈ s) → post (tr ++ [listing s rows]) rows) :
    MeetsGuard database limit required post tr listClusterSearchIndexes := by
  refine ⟨trivial, fun s answer hserves => ?_⟩
  cases answer with
  | none => trivial
  | some rows => exact h s rows (mem_of_serves_list hserves)

theorem meets_dropAt {post : IndexTrace → Unit → Prop} {tr : IndexTrace}
    {db collection name : String}
    (hok : Justified database required tr (.drop db collection name))
    (h : ∀ tr', post (tr ++ tr') ()) :
    MeetsGuard database limit required post tr (dropSearchIndexAt db collection name) := by
  refine ⟨hok, fun s answer _ => ?_⟩
  cases answer with
  | false => trivial
  | true => exact h _

theorem meets_pruneRows {rows : List IndexRow} {tr : IndexTrace}
    (h : ∀ row ∈ rows, Listed tr row) :
    MeetsGuard database limit required (fun _ _ => True) tr (pruneRows rows) := by
  induction rows generalizing tr with
  | nil => trivial
  | cons row rows ih =>
      obtain ⟨hrow, hrest⟩ := List.forall_mem_cons.mp h
      unfold pruneRows
      split
      · exact ih hrest
      · rename_i hunknown
        refine meets_bind (m := fun tr' _ => ∀ r ∈ rows, Listed tr' r)
          (meets_dropAt ?_ fun tr' _ hmem => listed_append (hrest _ hmem) tr') ?_
        · exact ⟨row, hrow, rfl, rfl, rfl, Or.inr (Bool.eq_false_iff.mpr hunknown)⟩
        · exact fun tr' _ hlisted => meets_bind (ih hlisted) fun _ _ _ => trivial

theorem meets_prune (tr : IndexTrace) :
    MeetsGuard database limit required (fun _ _ => True) tr pruneUnknownSearchIndexes :=
  meets_bind (m := fun tr rows => ∀ row ∈ rows, Listed tr row)
    (meets_listCluster fun s rows _ _ hrow =>
      ⟨s, rows, List.mem_append_right _ (List.mem_singleton_self _), hrow⟩)
    fun _ _ h => meets_pruneRows h

theorem droppable_of_dropReason {row : IndexRow} {reason : String}
    (hchunks : row.onChunks database) (h : dropReason required row = some reason) :
    Droppable database required row := by
  unfold dropReason at h
  split at h
  · rename_i hfailed
    exact Or.inl ⟨hchunks, Or.inl hfailed⟩
  · split at h
    · rename_i hsurplus
      exact Or.inl ⟨hchunks, Or.inr hsurplus⟩
    · exact absurd h.symm (Option.some_ne_none _)

theorem meets_reconcileRows {rows : List IndexRow} {tr : IndexTrace}
    (h : ∀ row ∈ rows, Listed tr row) :
    MeetsGuard database limit required (fun _ _ => True) tr
      (reconcileRows database required rows) := by
  induction rows generalizing tr with
  | nil => trivial
  | cons row rows ih =>
      obtain ⟨hrow, hrest⟩ := List.forall_mem_cons.mp h
      unfold reconcileRows
      split
      · exact ih hrest
      · rename_i hchunks
        have hon : row.onChunks database := by simpa using hchunks
        split
        · exact ih hrest
        · rename_i reason hreason
          refine meets_bind (m := fun tr' _ => ∀ r ∈ rows, Listed tr' r)
            (meets_dropAt ?_ fun tr' _ hmem => listed_append (hrest _ hmem) tr') ?_
          · have hplace := of_decide_eq_true hon
            exact ⟨row, hrow, hplace.1, hplace.2, rfl, droppable_of_dropReason hon hreason⟩
          · exact fun tr' _ hlisted => meets_bind (ih hlisted) fun _ _ _ => trivial

theorem meets_reconcile (tr : IndexTrace) :
    MeetsGuard database limit required (fun _ _ => True) tr
      (reconcileChunksSearchIndexes database required) :=
  meets_bind (m := fun tr rows => ∀ row ∈ rows, Listed tr row)
    (meets_listCluster fun s rows _ _ hrow =>
      ⟨s, rows, List.mem_append_right _ (List.mem_singleton_self _), hrow⟩)
    fun _ _ h => meets_reconcileRows h

theorem meets_wait (names : List String) (polls : Nat) (tr : IndexTrace) :
    MeetsGuard database limit required (fun _ _ => True) tr (waitForIndexesReady names polls) := by
  induction polls generalizing tr with
  | zero => trivial
  | succ polls ih =>
      refine ⟨trivial, fun s answer _ => ?_⟩
      cases answer with
      | false => trivial
      | true =>
          refine ⟨trivial, fun s' answer' _ => ?_⟩
          dsimp only
          split
          · trivial
          · exact ih _

theorem meets_createSearchIndex (name : String) (tr : IndexTrace) :
    MeetsGuard database limit required (fun _ _ => True) tr (createSearchIndex name) := by
  refine meets_bind (m := fun _ _ => True) ⟨trivial, fun s answer _ => ?_⟩ fun tr existing _ => ?_
  · cases answer <;> trivial
  · split
    · trivial
    · refine ⟨trivial, fun s answer _ => ?_⟩
      cases answer with
      | created => exact meets_wait _ _ _
      | unavailable => trivial
      | error => trivial

theorem meets_ensureEach (names : List String) (tr : IndexTrace) :
    MeetsGuard database limit required (fun _ _ => True) tr (ensureEach names) := by
  induction names generalizing tr with
  | nil => trivial
  | cons name names ih =>
      unfold ensureEach
      split
      · exact meets_bind (meets_createSearchIndex _ _) fun _ _ _ => ih _
      · split
        · exact meets_bind (meets_createSearchIndex _ _) fun _ _ _ => ih _
        · exact ih _

theorem meets_ensureRequired (tr : IndexTrace) :
    MeetsGuard database limit required (fun _ _ => True) tr
      (ensureRequiredSearchIndexes required) := by
  refine ⟨trivial, fun s answer _ => ?_⟩
  cases answer with
  | false => trivial
  | true => exact meets_ensureEach _ _

/-- A satisfied assessment is one of the listing just made. -/
def SatisfiedNow (database : String) (required : List String) (tr : IndexTrace)
    (assessment : SearchIndexAssessment) : Prop :=
  assessment.isSatisfied → EndsReady database required tr

theorem queryable_of_ready {clusterLimit : Nat} {rows : List IndexRow} {name : String}
    (h : name ∈ (snapshotOf database clusterLimit rows).chunksReady) :
    ∃ row ∈ rows, row.onChunks database ∧ row.name = name ∧ row.queryable := by
  obtain ⟨row, hrow, rfl⟩ := List.mem_map.mp h
  obtain ⟨hmem, hready⟩ := List.mem_filter.mp hrow
  rw [Bool.and_eq_true] at hready
  exact ⟨row, hmem, hready.1, rfl, row.queryable_of_ready (of_decide_eq_true hready.2)⟩

theorem meets_assessCluster (clusterLimit : Nat) (tr : IndexTrace) :
    MeetsGuard database limit required (SatisfiedNow database required) tr
      (assessCluster database clusterLimit required) := by
  refine meets_bind (m := fun tr snapshot => ∃ s rows, (∀ row ∈ rows, row ∈ s) ∧
    tr.getLast? = some (listing s rows) ∧ snapshot = snapshotOf database clusterLimit rows)
    ?_ ?_
  · refine meets_bind (m := fun tr rows => ∃ s, (∀ row ∈ rows, row ∈ s) ∧
      tr.getLast? = some (listing s rows))
      (meets_listCluster fun s rows hsub => ⟨s, hsub, List.getLast?_concat⟩) ?_
    rintro tr rows ⟨s, hsub, hlast⟩
    exact ⟨s, rows, hsub, hlast, rfl⟩
  · rintro tr snapshot ⟨s, rows, hsub, hlast, rfl⟩ hsat
    refine ⟨s, rows, hlast, fun name hname => ?_⟩
    obtain ⟨row, hrow, hrest⟩ :=
      queryable_of_ready ((assess_isSatisfied_iff.mp hsat).2 name hname).1
    exact ⟨row, hsub row hrow, hrest⟩

theorem meets_conclude {tr : IndexTrace} {assessment : SearchIndexAssessment}
    (h : SatisfiedNow database required tr assessment) :
    MeetsGuard database limit required (fun tr _ => EndsReady database required tr) tr
      (concludePreflight assessment) := by
  unfold concludePreflight
  split
  · rename_i hsat
    exact h hsat
  · trivial

theorem meets_createMissing (clusterLimit : Nat) {tr : IndexTrace}
    {assessment : SearchIndexAssessment} (h : SatisfiedNow database required tr assessment) :
    MeetsGuard database limit required (fun tr _ => EndsReady database required tr) tr
      (createMissing database clusterLimit required assessment) := by
  unfold createMissing
  split
  · exact meets_bind (meets_ensureRequired _) fun _ _ _ =>
      meets_bind (meets_assessCluster clusterLimit _) fun _ _ => meets_conclude
  · exact meets_conclude h

theorem meets_pruneThenCreate (clusterLimit : Nat) {tr : IndexTrace}
    {assessment : SearchIndexAssessment} (h : assessment.isSatisfied = false) :
    MeetsGuard database limit required (fun tr _ => EndsReady database required tr) tr
      (pruneThenCreate database clusterLimit required assessment) := by
  have hold : ∀ tr, SatisfiedNow database required tr assessment := fun tr hsat =>
    absurd hsat (Bool.eq_false_iff.mp h)
  unfold pruneThenCreate
  split
  · refine meets_bind (meets_prune _) fun tr dropped _ => ?_
    split
    · exact meets_bind (meets_assessCluster clusterLimit _) fun _ _ =>
        meets_createMissing clusterLimit
    · exact meets_createMissing clusterLimit (hold _)
  · exact meets_createMissing clusterLimit (hold _)

theorem meets_reconcileThenCreate (clusterLimit : Nat) {tr : IndexTrace}
    {assessment : SearchIndexAssessment} (h : assessment.isSatisfied = false) :
    MeetsGuard database limit required (fun tr _ => EndsReady database required tr) tr
      (reconcileThenCreate database clusterLimit required assessment) := by
  refine meets_bind (meets_reconcile _) fun tr dropped _ => ?_
  split
  · refine meets_bind (meets_assessCluster clusterLimit _) fun tr assessment hnow => ?_
    split
    · rename_i hsat
      exact hnow hsat
    · rename_i hsat
      exact meets_pruneThenCreate clusterLimit (Bool.eq_false_iff.mpr hsat)
  · exact meets_pruneThenCreate clusterLimit h

/-- Whatever the cluster answers, a preflight drops only what is droppable for its own
    configuration, and returns only right after a listing with all that it requires. -/
theorem meets_validate (clusterLimit : Nat) (attemptEnsure : Bool) (config : ExperimentConfig) :
    MeetsGuard database limit (requiredSearchIndexes config)
      (fun tr _ => EndsReady database (requiredSearchIndexes config) tr) []
      (validateExperimentSearchIndexes database clusterLimit attemptEnsure config) := by
  unfold validateExperimentSearchIndexes
  dsimp only
  split
  · trivial
  · refine meets_bind (meets_assessCluster clusterLimit _) fun tr assessment hnow => ?_
    split
    · rename_i hsat
      exact hnow hsat
    · rename_i hsat
      split
      · trivial
      · exact meets_reconcileThenCreate clusterLimit (Bool.eq_false_iff.mpr hsat)

end Specs

/-! ## Preflights beside one another -/

/-- A preflight in progress, or one that has ended. `submitted` is a submission whose
    experiment is not stored yet. -/
structure Preflight where
  config : ExperimentConfig
  submitted : Bool
  trace : IndexTrace
  program : Guard SearchIndexAssessment

structure ListedExperiment where
  config : ExperimentConfig
  status : ExperimentStatus

structure IndexServer where
  catalogue : List IndexRow
  preflights : List Preflight
  experiments : List ListedExperiment

/-- A submission, the start of a stored experiment's sweep, the next call of a preflight, the
    insert of an experiment that passed its preflight, a change of status, and a change of the
    catalogue by the cluster or by other clients. -/
inductive IndexAction where
  | submit (config : ExperimentConfig)
  | sweep (experiment : Nat)
  | call (preflight : Nat) (reply : Reply)
  | store (preflight : Nat)
  | setStatus (experiment : Nat) (status : ExperimentStatus)
  | elsewhere (catalogue : List IndexRow)

section System

variable (database : String) (limit : Nat)

def beginPreflight (config : ExperimentConfig) (submitted : Bool) : Preflight where
  config := config
  submitted := submitted
  trace := []
  program := validateExperimentSearchIndexes database m0SearchIndexLimit true config

def indexStep (s : IndexServer) : IndexAction → Option IndexServer
  | .submit config =>
      some { s with preflights := s.preflights ++ [beginPreflight database config true] }
  | .sweep i => do
      let e ← s.experiments[i]?
      return { s with preflights := s.preflights ++ [beginPreflight database e.config false] }
  | .call p reply => do
      let pre ← s.preflights[p]?
      match pre.program with
      | .call op next =>
          let (catalogue, answer) ← serveCall database limit s.catalogue op reply
          return { s with
            catalogue := catalogue
            preflights := s.preflights.set p
              { pre with
                trace := pre.trace ++ [⟨s.catalogue, op, answer⟩]
                program := next answer } }
      | _ => none
  | .store p => do
      let pre ← s.preflights[p]?
      match pre.program, pre.submitted with
      | .done _, true =>
          return { s with
            preflights := s.preflights.set p { pre with submitted := false }
            experiments := s.experiments ++ [⟨pre.config, .running⟩] }
      | _, _ => none
  | .setStatus i status => do
      let e ← s.experiments[i]?
      return { s with experiments := s.experiments.set i { e with status := status } }
  | .elsewhere catalogue => if catalogue.length ≤ limit then some { s with catalogue } else none

/-- The index that an action drops, with the preflight that drops it. -/
def droppedBy (s : IndexServer) : IndexAction → Option (Preflight × String × String × String)
  | .call p .done => (s.preflights[p]?).bind fun pre =>
      match pre.program with
      | .call (.drop db collection name) _ => some (pre, db, collection, name)
      | _ => none
  | _ => none

/-- A server on which no preflight has begun. -/
def IndexServer.start (catalogue : List IndexRow) (experiments : List ListedExperiment) :
    IndexServer where
  catalogue := catalogue
  preflights := []
  experiments := experiments

end System

section Runs

variable {database : String} {limit : Nat}

/-- Where a preflight after a step comes from. -/
inductive Origin (database : String) (limit : Nat) (s t : IndexServer) (p : Nat)
    (pre : Preflight) : Prop where
  | kept (old : Preflight) (at_p : s.preflights[p]? = some old) (config : old.config = pre.config)
      (trace : old.trace = pre.trace) (program : old.program = pre.program)
  | begun (config : ExperimentConfig) (submitted : Bool)
      (eq : pre = beginPreflight database config submitted)
  | answered (old : Preflight) (op : IndexCall)
      (next : op.Answer → Guard SearchIndexAssessment) (reply : Reply) (answer : op.Answer)
      (at_p : s.preflights[p]? = some old) (program : old.program = .call op next)
      (served : serveCall database limit s.catalogue op reply = some (t.catalogue, answer))
      (eq : pre = { old with
        trace := old.trace ++ [⟨s.catalogue, op, answer⟩]
        program := next answer })

theorem origin_of_append {s t : IndexServer} {p : Nat} {pre : Preflight}
    {config : ExperimentConfig} {submitted : Bool}
    (h : (s.preflights ++ [beginPreflight database config submitted])[p]? = some pre) :
    Origin database limit s t p pre := by
  rcases Nat.lt_or_ge p s.preflights.length with hlt | hge
  · rw [List.getElem?_append_left hlt] at h
    exact .kept pre h rfl rfl rfl
  · rw [List.getElem?_append_right hge, List.getElem?_singleton] at h
    split at h
    · exact .begun config submitted (Option.some.inj h).symm
    · exact absurd h.symm (Option.some_ne_none _)

theorem origin_of_step {s t : IndexServer} {a : IndexAction}
    (h : indexStep database limit s a = some t) {p : Nat} {pre : Preflight}
    (hp : t.preflights[p]? = some pre) : Origin database limit s t p pre := by
  cases a with
  | submit config =>
      obtain rfl := Option.some.inj h
      exact origin_of_append hp
  | sweep i =>
      obtain ⟨e, -, h⟩ := Option.bind_eq_some_iff.mp h
      obtain rfl := Option.some.inj h
      exact origin_of_append hp
  | call q reply =>
      obtain ⟨old, hold, h⟩ := Option.bind_eq_some_iff.mp h
      split at h
      · rename_i op next hprogram
        obtain ⟨⟨catalogue, answer⟩, hserved, h⟩ := Option.bind_eq_some_iff.mp h
        obtain rfl := Option.some.inj h
        rcases eq_or_ne q p with rfl | hne
        · rw [List.getElem?_set_self (List.getElem?_eq_some_iff.mp hold).1] at hp
          exact .answered old op next reply answer hold hprogram hserved (Option.some.inj hp).symm
        · rw [List.getElem?_set_ne hne] at hp
          exact .kept pre hp rfl rfl rfl
      · exact absurd h.symm (Option.some_ne_none _)
  | store q =>
      obtain ⟨old, hold, h⟩ := Option.bind_eq_some_iff.mp h
      split at h
      · obtain rfl := Option.some.inj h
        rcases eq_or_ne q p with rfl | hne
        · rw [List.getElem?_set_self (List.getElem?_eq_some_iff.mp hold).1] at hp
          obtain rfl := Option.some.inj hp
          exact .kept old hold rfl rfl rfl
        · rw [List.getElem?_set_ne hne] at hp
          exact .kept pre hp rfl rfl rfl
      · exact absurd h.symm (Option.some_ne_none _)
  | setStatus i status =>
      obtain ⟨e, -, h⟩ := Option.bind_eq_some_iff.mp h
      obtain rfl := Option.some.inj h
      exact .kept pre hp rfl rfl rfl
  | elsewhere catalogue =>
      simp only [indexStep, Option.ite_none_right_eq_some] at h
      obtain rfl := Option.some.inj h.2
      exact .kept pre hp rfl rfl rfl

/-- A preflight does what it may, and returns only with its indexes ready. -/
def Preflight.Guarded (database : String) (limit : Nat) (pre : Preflight) : Prop :=
  MeetsGuard database limit (requiredSearchIndexes pre.config)
    (fun tr _ => EndsReady database (requiredSearchIndexes pre.config) tr) pre.trace pre.program

def AllGuarded (database : String) (limit : Nat) (s : IndexServer) : Prop :=
  ∀ (p : Nat) (pre : Preflight), s.preflights[p]? = some pre → pre.Guarded database limit

theorem allGuarded_step {s t : IndexServer} {a : IndexAction} (hs : AllGuarded database limit s)
    (h : indexStep database limit s a = some t) : AllGuarded database limit t := by
  intro p pre hp
  cases origin_of_step h hp with
  | kept old at_p config trace program =>
      have hold := hs p old at_p
      unfold Preflight.Guarded at hold ⊢
      rwa [config, trace, program] at hold
  | begun config submitted eq =>
      subst eq
      exact meets_validate m0SearchIndexLimit true config
  | answered old op next reply answer at_p program served eq =>
      subst eq
      have hold := hs p old at_p
      unfold Preflight.Guarded at hold
      rw [program] at hold
      exact meets_answered hold ⟨reply, t.catalogue, served⟩

def Preflight.returned (pre : Preflight) : Bool :=
  match pre.program with
  | .done _ => true
  | _ => false

theorem Preflight.Guarded.endsReady {pre : Preflight} (h : pre.Guarded database limit)
    (hret : pre.returned) :
    EndsReady database (requiredSearchIndexes pre.config) pre.trace := by
  unfold Preflight.returned at hret
  unfold Preflight.Guarded at h
  split at hret
  · rename_i hdone
    rwa [hdone] at h
  · cases hret

/-- The call that a preflight returns after is its last listing, so what the listing saw is
    there when it returns. -/
theorem ready_of_returns {s t : IndexServer} {a : IndexAction} (hs : AllGuarded database limit s)
    (h : indexStep database limit s a = some t) {p : Nat} {pre : Preflight}
    (hp : t.preflights[p]? = some pre) (hret : pre.returned)
    (hnew : ∀ old : Preflight, s.preflights[p]? = some old → old.returned = false) :
    ∀ name ∈ requiredSearchIndexes pre.config,
      ∃ row ∈ t.catalogue, row.onChunks database ∧ row.name = name ∧ row.queryable := by
  obtain ⟨seen, rows, hlast, hready⟩ := (allGuarded_step hs h p pre hp).endsReady hret
  cases origin_of_step h hp with
  | kept old at_p config trace program =>
      have hold := hnew old at_p
      unfold Preflight.returned at hold hret
      rw [program, hret] at hold
      cases hold
  | begun config submitted eq =>
      subst eq
      cases hlast
  | answered old op next reply answer at_p program served eq =>
      subst eq
      rw [List.getLast?_concat] at hlast
      obtain ⟨rfl, rfl, -⟩ := Event.mk.inj (Option.some.inj hlast)
      have hsame : s.catalogue = t.catalogue := by
        cases reply with
        | rows unreadable => exact congrArg Prod.fst (Option.some.inj served)
        | fails => exact congrArg Prod.fst (Option.some.inj served)
        | _ => exact absurd served.symm (Option.some_ne_none _)
      rw [← hsame]
      exact hready

/-- A dropped index was listed as droppable for the configuration of its preflight. -/
theorem justified_of_droppedBy {s : IndexServer} {a : IndexAction}
    (hs : AllGuarded database limit s) {pre : Preflight} {db collection name : String}
    (h : droppedBy s a = some (pre, db, collection, name)) :
    Justified database (requiredSearchIndexes pre.config) pre.trace
      (.drop db collection name) := by
  unfold droppedBy at h
  split at h
  · rename_i p
    obtain ⟨old, hold, h⟩ := Option.bind_eq_some_iff.mp h
    split at h
    · rename_i hprogram
      cases Option.some.inj h
      have hguarded := hs p pre hold
      unfold Preflight.Guarded at hguarded
      rw [hprogram] at hguarded
      exact hguarded.1
    · exact absurd h.symm (Option.some_ne_none _)
  · exact absurd h.symm (Option.some_ne_none _)

/-- No index that a running experiment requires is dropped. -/
def SparesRunning (database : String) (s : IndexServer) (a : IndexAction) (_ : IndexServer) :
    Prop :=
  ∀ pre name, droppedBy s a = some (pre, database, chunksCollection, name) →
    ∀ e ∈ s.experiments, e.status = .running → name ∉ requiredSearchIndexes e.config

/-- What one step of the server promises of its preflights. -/
structure PreflightStep (database : String) (s : IndexServer) (a : IndexAction)
    (t : IndexServer) : Prop where
  drops : ∀ pre name, droppedBy s a = some (pre, database, chunksCollection, name) →
    ∀ e ∈ s.experiments, e.status = .running → name ∈ requiredSearchIndexes e.config →
      name ∉ requiredSearchIndexes pre.config ∨
        ∃ row, Listed pre.trace row ∧ row.onChunks database ∧ row.name = name ∧ row.isFailed
  returns : ∀ (p : Nat) (pre : Preflight), t.preflights[p]? = some pre → pre.returned →
    (∀ old : Preflight, s.preflights[p]? = some old → old.returned = false) →
      ∀ name ∈ requiredSearchIndexes pre.config,
        ∃ row ∈ t.catalogue, row.onChunks database ∧ row.name = name ∧ row.queryable

/-- In every run a preflight drops what a running experiment requires only when its own
    configuration does not require it or it has failed, and returns with all indexes ready. -/
theorem preflight_run (database : String) (limit : Nat) (catalogue : List IndexRow)
    (experiments : List ListedExperiment) (actions : List IndexAction) :
    StepMachine.EveryStep (indexStep database limit) (PreflightStep database)
      (IndexServer.start catalogue experiments) actions := by
  have hstart : AllGuarded database limit (IndexServer.start catalogue experiments) :=
    fun p pre hp => absurd hp.symm (Option.some_ne_none _)
  refine StepMachine.everyStep_of_kept
    (fun s a t hs h => ⟨allGuarded_step hs h, ?_, ?_⟩) hstart actions
  · intro pre name hdrop e _ _ hrequired
    obtain ⟨row, hlisted, hdb, hcollection, rfl, hdroppable⟩ := justified_of_droppedBy hs hdrop
    have hon : row.onChunks database := decide_eq_true ⟨hdb, hcollection⟩
    rcases hdroppable with ⟨-, hfailed | ⟨-, hsurplus⟩⟩ | hunknown
    · exact Or.inr ⟨row, hlisted, hon, rfl, hfailed⟩
    · exact Or.inl hsurplus
    · exact absurd (decide_eq_true (mem_known_of_required hrequired)) (by
        rw [IndexRow.known] at hunknown
        rw [hunknown]
        exact Bool.false_ne_true)
  · exact fun p pre => ready_of_returns hs h

end Runs

/-! ## Two experiments of different dimensions -/

def voyage3 : EmbeddingModelId := ⟨"voyage-3", ⟨.voyage, 1024⟩, by decide⟩

def localDense : ExperimentConfig := miniLmGrid .continue 512 [] [0]

def voyageDense : ExperimentConfig :=
  { localDense with embedding := ⟨some .voyage, [voyage3], by decide⟩, valid := rfl }

/-- The index of local models, ready on `chunks`. -/
def readyRow384 : IndexRow where
  database := "rag"
  collection := chunksCollection
  name := "vector_index_384"
  status := "READY"
  queryable := true
  queryable_of_ready := fun _ => rfl

/-- A local sweep is stored as running, and a Voyage sweep is submitted while it runs. -/
def localThenVoyage : List IndexAction :=
  [.submit localDense, .call 0 (.rows []), .store 0,
   .submit voyageDense, .call 1 (.rows []), .call 1 (.rows [])]

/-- The last action drops an index that a running experiment requires. -/
def dropsRequired (database name : String) (s : IndexServer) (a : IndexAction) : Bool :=
  ((droppedBy s a).any fun d => d.2 = (database, chunksCollection, name)) &&
    s.experiments.any fun e => e.status = .running ∧ name ∈ requiredSearchIndexes e.config

theorem not_sparesRunning {database name : String} {s t : IndexServer} {a : IndexAction}
    (h : dropsRequired database name s a = true) : ¬SparesRunning database s a t := by
  intro hspares
  obtain ⟨hdrop, hrunning⟩ := Bool.and_eq_true_iff.mp h
  obtain ⟨⟨pre, dropped⟩, hpre, hname⟩ := (Option.any_eq_true _ _).mp hdrop
  obtain ⟨e, he, hrequired⟩ := List.any_eq_true.mp hrunning
  obtain rfl : dropped = (database, chunksCollection, name) := of_decide_eq_true hname
  obtain ⟨hstatus, hmem⟩ := of_decide_eq_true hrequired
  exact hspares pre name hpre e he hstatus hmem

/-- The surplus of one configuration is what another one runs on. -/
theorem surplus_is_required :
    ¬∀ (database : String) (limit : Nat) (catalogue : List IndexRow)
      (experiments : List ListedExperiment) (actions : List IndexAction),
      catalogue.length ≤ limit →
        StepMachine.EveryStep (indexStep database limit) (SparesRunning database)
          (IndexServer.start catalogue experiments) actions := by
  intro hclaim
  have hall := hclaim "rag" m0SearchIndexLimit [readyRow384] []
    (localThenVoyage ++ [.call 1 .done]) (by decide)
  have hcheck : ((StepMachine.exec (indexStep "rag" m0SearchIndexLimit)
      (IndexServer.start [readyRow384] []) localThenVoyage).any fun t =>
        (indexStep "rag" m0SearchIndexLimit t (.call 1 .done)).isSome &&
          dropsRequired "rag" "vector_index_384" t (.call 1 .done)) = true := by
    decide +kernel
  obtain ⟨t, hrun, ht⟩ := (Option.any_eq_true _ _).mp hcheck
  obtain ⟨hstep, hdrops⟩ := Bool.and_eq_true_iff.mp ht
  obtain ⟨u, hu⟩ := Option.isSome_iff_exists.mp hstep
  exact not_sparesRunning hdrops (StepMachine.everyStep_at hall hrun hu)

end RagParamsFinder
