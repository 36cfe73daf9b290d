/-! What can go wrong between the catalog and its store. -/
namespace ClusterCatalog

inductive TableName where
  | containers
  | replicaHistory
  | nodes
  | pipelines
  | counters
  deriving DecidableEq, Repr, Inhabited

def TableName.all : List TableName := [.containers, .replicaHistory, .nodes, .pipelines, .counters]

theorem TableName.mem_all (t : TableName) : t ∈ all := by cases t <;> decide

def TableName.text : TableName → String
  | .containers => "containers"
  | .replicaHistory => "replica_history"
  | .nodes => "nodes"
  | .pipelines => "pipelines"
  | .counters => "sequence_id"

inductive IoFault where
  | notFound
  | alreadyExists
  | notADirectory
  | isADirectory
  | nameTooLong
  | nullCharacter
  deriving DecidableEq, Repr

def IoFault.name : IoFault → String
  | .notFound => "NotFound"
  | .alreadyExists => "AlreadyExists"
  | .notADirectory => "NotADirectory"
  | .isADirectory => "IsADirectory"
  | .nameTooLong => "InvalidFilename"
  | .nullCharacter => "InvalidInput"

def IoFault.message : IoFault → String
  | .notFound => "No such file or directory (os error 2)"
  | .alreadyExists => "File exists (os error 17)"
  | .notADirectory => "Not a directory (os error 20)"
  | .isADirectory => "Is a directory (os error 21)"
  | .nameTooLong => "File name too long (os error 36)"
  | .nullCharacter => "file name contained an unexpected NUL byte"

inductive StoreError where
  | notADatabase
  | foreignTable
  /-- The write was not taken; the rows are as they were. -/
  | refused
  | badValue (table : TableName)
  | badKey (table : TableName)
  | io (fault : IoFault)
  | exhausted
  deriving DecidableEq, Repr

def StoreError.message : StoreError → String
  | .notADatabase => "redb database error"
  | .foreignTable => "redb table error"
  | .refused => "redb commit error"
  | .badValue table => "codec error in table " ++ table.text
  | .badKey table => "malformed key in table " ++ table.text
  | .io _ => "io error"
  | .exhausted => "attempt to add with overflow"

end ClusterCatalog
