/-
  The checkpoint file of pending embedding batches (`CheckpointStore` of
  `server/core/pipeline/pre_embed.py`) and the `pre_embed` field of an experiment document.

  The file is a JSON list of entries. It is read as empty when it is missing, is not JSON,
  or is not a list. Each write replaces it as a whole, under one lock.
-/
import RagParamsFinder.Models.Status

namespace RagParamsFinder

/-- `EmbedItem.role`. -/
inductive EmbedRole where
  | doc
  | query
  deriving DecidableEq, Repr

def EmbedRole.value : EmbedRole → String
  | .doc => "doc"
  | .query => "query"

/-- One entry of the file; the two keys that are looked up may be absent from it. -/
structure CheckpointEntry where
  experimentId : Option String
  jobKey : String
  batchId : Option String
  role : EmbedRole
  n : Nat
  submittedAt : Nat
  deriving DecidableEq, Repr

inductive CheckpointFile where
  | missing
  | notJson
  | notAList
  | entries (es : List CheckpointEntry)
  deriving DecidableEq, Repr

namespace CheckpointFile

def load : CheckpointFile → List CheckpointEntry
  | .missing => []
  | .notJson => []
  | .notAList => []
  | .entries es => es

def addEntries (f : CheckpointFile) (new : List CheckpointEntry) : CheckpointFile :=
  .entries (f.load ++ new)

def removeByBatchId (f : CheckpointFile) (batchId : String) : CheckpointFile :=
  .entries (f.load.filter fun e => e.batchId ≠ some batchId)

def getForExperiment (f : CheckpointFile) (experimentId : String) : List CheckpointEntry :=
  f.load.filter fun e => e.experimentId = some experimentId

def removeForExperiment (f : CheckpointFile) (experimentId : String) : CheckpointFile :=
  .entries (f.load.filter fun e => e.experimentId ≠ some experimentId)

end CheckpointFile

/-- A batch as `create_experiment` records it for the dashboard. -/
structure BatchRecord where
  batchId : String
  role : EmbedRole
  status : String
  completed : Nat
  total : Nat
  dashboardUrl : String
  deriving DecidableEq, Repr

/-- The `pre_embed` field: its state, the reason of a failure, and the batches waited for. -/
structure PreEmbed where
  state : String
  reason : Option String := none
  batches : Option (List BatchRecord) := none
  deriving DecidableEq, Repr

end RagParamsFinder
