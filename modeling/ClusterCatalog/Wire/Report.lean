import ClusterCatalog.Wire.Domain
import ClusterCatalog.Json.Reader
/-!
The JSON form of a report: an object with the kind under `type` and the fields of that kind beside
it. `Report.ofText` also says which of two faults comes first in the text, bad syntax or a wrong
shape.
-/
namespace ClusterCatalog

open Json Wire

namespace Report

def ofPlainFields (kind : ReportKind) (fields : Value) : Option Report :=
  match kind with
  | .nodeHeartbeat => (read? fields).map .nodeHeartbeat
  | .containerReport => do
    let [node, replicas] ← slots ["node_id", "replicas"] fields | none
    return .containerReport (← node.required) (← replicas.required)
  | .incrementalContainerReport => do
    let [node, replicas] ← slots ["node_id", "replicas"] fields | none
    return .incrementalContainerReport (← node.required) (← replicas.required)
  | .pipelineReport => do
    let [node, pipelines] ← slots ["node_id", "pipelines"] fields | none
    return .pipelineReport (← node.required) (← pipelines.required)
  | .nodeStateChange => do
    let [node, health] ← slots ["node_id", "health"] fields | none
    return .nodeStateChange (← node.required) (← health.required)

/-- In a report a spelled value may also be an object whose one member is that word with an empty
object; no structure of a report can be read from such an object. -/
def ofFields (kind : ReportKind) (fields : Value) : Option Report := ofPlainFields kind fields.emptyAsNull

def fields : Report → List (String × Value)
  | .nodeHeartbeat h => [("details", write h.details), ("readonly", write h.readonly)]
  | .containerReport node replicas => [("node_id", write node), ("replicas", write replicas)]
  | .incrementalContainerReport node replicas => [("node_id", write node), ("replicas", write replicas)]
  | .pipelineReport node pipelines => [("node_id", write node), ("pipelines", write pipelines)]
  | .nodeStateChange node health => [("node_id", write node), ("health", write health)]

def kindOf? : Value → Option ReportKind
  | .string word => ReportKind.all.find? (Spelled.spelling · == word)
  | _ => none

instance : Wire Report where
  write r := .object (("type", Wire.write r.kind) :: r.fields)
  read?
    | .object members =>
      match members.filter (·.1 == "type") with
      | [(_, tag)] => do ofFields (← kindOf? tag) (.object (members.filter (·.1 != "type")))
      | _ => none
    | .array (tag :: rest) => do ofFields (← kindOf? tag) (.array rest)
    | _ => none

inductive Fault where
  | badSyntax
  | badShape
  deriving DecidableEq, Repr

def maxDepth : Nat := 126

def checked (v : Value) : Except Fault Value :=
  if v.sound ∧ v.depth ≤ maxDepth then .ok v else .error .badSyntax

def readPart (fuel : Nat) (text : List Char) : Except Fault (Value × List Char) :=
  match Reader.value fuel text with
  | some (v, rest) => (checked v).map (·, rest)
  | none => .error .badSyntax

/-- The kind at the front of a text. An array or an object is no kind whatever it holds. -/
def readKind (fuel : Nat) (text : List Char) : Except Fault (ReportKind × List Char) :=
  match Reader.skipBlank text with
  | '[' :: _ | '{' :: _ => .error .badShape
  | text => do
    let (tag, rest) ← readPart fuel text
    match kindOf? tag with
    | some kind => return (kind, rest)
    | none => throw .badShape

def ofParts (kind? : Option ReportKind) (fields : Value) (rest : List Char) : Except Fault (Report × List Char) :=
  match kind? >>= (ofFields · fields) with
  | some report => .ok (report, rest)
  | none => .error .badShape

/-- The members of a report from the first name to the closing brace, where `fields` are those
before, the last one first. A second kind is refused before it is looked at. -/
def readMembers (kind? : Option ReportKind) (fields : List (String × Value)) :
    Nat → List Char → Except Fault (Report × List Char)
  | 0, _ => .error .badSyntax
  | fuel + 1, text =>
    match Reader.memberName fuel text with
    | none | some (none, _) => .error .badSyntax
    | some (some name, rest) => do
      if name = "type" ∧ kind?.isSome then throw .badShape
      let some rest := Reader.memberRest rest | throw .badSyntax
      let (kind?, fields, rest) ←
        if name = "type" then (readKind fuel rest).map fun (kind, rest) => (some kind, fields, rest)
        else (readPart fuel rest).map fun (v, rest) => (kind?, (name, v) :: fields, rest)
      match Reader.skipBlank rest with
      | ',' :: rest => readMembers kind? fields fuel rest
      | '}' :: rest => ofParts kind? (.object fields.reverse) rest
      | _ => .error .badSyntax

def readItems (fuel : Nat) (text : List Char) : Except Fault (Report × List Char) := do
  let (kind, rest) ← readKind fuel text
  match Reader.skipBlank rest with
  | ']' :: rest => ofParts (some kind) (.array []) rest
  | ',' :: rest =>
    let some (fields, rest) := Reader.items fuel rest | throw .badSyntax
    ofParts (some kind) (.array (← fields.mapM checked)) rest
  | _ => .error .badSyntax

/-- The report at the front of a text. The first fault in the order of the text is the one that
counts; the fields are looked at when all is read. -/
def ofText (text : String) : Except Fault (Report × List Char) :=
  let fuel := Reader.fuelFor text.toList
  match Reader.skipBlank text.toList with
  | '{' :: inside => match Reader.skipBlank inside with
    | '}' :: _ => .error .badShape
    | inside => readMembers none [] fuel inside
  | '[' :: inside => match Reader.skipBlank inside with
    | ']' :: _ => .error .badShape
    | inside => readItems fuel inside
  | text => (readPart fuel text).bind fun _ => .error .badShape

end Report

end ClusterCatalog
