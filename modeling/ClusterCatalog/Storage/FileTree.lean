import ClusterCatalog.Action
import ClusterCatalog.Storage.Layout
/-!
Directories and files, and paths through them. A path is walked part by part, and what is there has
to be a directory before the next part is looked at, even if that part only leads back.
-/
namespace ClusterCatalog

abbrev Location := List String

inductive FileItem where
  | directory
  | file (text : String)
  deriving DecidableEq, Repr

structure Path where
  start : Location
  parts : List String
  deriving DecidableEq, Repr

namespace Path

def ofText (here : Location) (text : String) : Path :=
  if text = "" then ⟨here, []⟩
  else match text.splitOn "/" with
    | "" :: parts => ⟨[], parts⟩
    | parts => ⟨here, parts⟩

def child (p : Path) (name : String) : Path := { p with parts := p.parts ++ [name] }

def fault? (p : Path) : Option IoFault :=
  if p.parts = [] then some .notFound
  else if p.parts.any (·.toList.contains '\x00') then some .nullCharacter
  else if 4096 ≤ ("/".intercalate p.parts).utf8ByteSize then some .nameTooLong
  else none

end Path

structure FileTree where
  items : List (Location × FileItem) := []

namespace FileTree

def item? (t : FileTree) (place : Location) : Option FileItem :=
  if place = [] then some .directory else t.items.lookup place

def put (t : FileTree) (place : Location) (item : FileItem) : FileTree := ⟨(place, item) :: t.items⟩

def step (t : FileTree) (here : Location) (part : String) : Except IoFault Location :=
  match t.item? here with
  | none => .error .notFound
  | some (.file _) => .error .notADirectory
  | some .directory =>
    if part = "" ∨ part = "." then .ok here
    else if part = ".." then .ok here.dropLast
    else if 255 < part.utf8ByteSize then .error .nameTooLong
    else if (t.item? (here ++ [part])).isSome then .ok (here ++ [part])
    else .error .notFound

def walk (t : FileTree) (p : Path) : Except IoFault Location :=
  match p.fault? with
  | some fault => .error fault
  | none => p.parts.foldlM t.step p.start

def isDirectory (t : FileTree) (p : Path) : Bool :=
  match t.walk p with
  | .ok place => t.item? place == some .directory
  | .error _ => false

def read (t : FileTree) (p : Path) : Except IoFault String := do
  match t.item? (← t.walk p) with
  | some (.file text) => return text
  | some .directory => throw .isADirectory
  | none => throw .notFound

def makeDirectory (p : Path) : Action FileTree IoFault Unit := do
  let t ← get
  if let some fault := p.fault? then throw fault
  match p.parts.reverse.dropWhile (· = "") with
  | [] => throw .alreadyExists
  | last :: before =>
    let here ← Action.ofExcept (before.reverse.foldlM t.step p.start)
    match t.step here last with
    | .ok _ => throw .alreadyExists
    | .error .notFound => set (t.put (here ++ [last]) .directory)
    | .error fault => throw fault

def isHere (part : String) : Bool := part == "" || part == "."

def before (parts : List String) : List String := ((parts.dropWhile isHere).drop 1).dropWhile isHere

theorem length_before_lt (last : String) (rest : List String) :
    (before (last :: rest)).length < (last :: rest).length := by
  have outer := (List.dropWhile_sublist isHere (l := ((last :: rest).dropWhile isHere).drop 1)).length_le
  have inner := (List.dropWhile_sublist isHere (l := last :: rest)).length_le
  simp only [List.length_drop, List.length_cons, before] at outer inner ⊢
  omega

/-- Makes the directory at the end of a path, given by its last part first, and those that lead to
it. What is there already is left as it is, and what was made stays when a later part fails. -/
def makeFrom (start : Location) : List String → Action FileTree IoFault Unit
  | [] => return ()
  | last :: rest => do
    let p : Path := ⟨start, (last :: rest).reverse⟩
    match ← Action.attempt (makeDirectory p) with
    | .ok () => return ()
    | .error .notFound =>
      makeFrom start (before (last :: rest))
      match ← Action.attempt (makeDirectory p) with
      | .ok () => return ()
      | .error fault => if !(← get).isDirectory p then throw fault
    | .error fault => if !(← get).isDirectory p then throw fault
termination_by parts => parts.length
decreasing_by exact length_before_lt last rest

def makeDirectories (p : Path) : Action FileTree IoFault Unit := makeFrom p.start p.parts.reverse

def remove (p : Path) : Action FileTree IoFault Unit := do
  let t ← get
  match t.walk p with
  | .error _ => return ()
  | .ok place =>
    if t.item? place = some .directory then
      set (FileTree.mk (t.items.filter fun (other, _) => !place.isPrefixOf other))
    else throw .notADirectory

def entries (t : FileTree) (here : Location) : Layout Unit :=
  ⟨t.items.foldr (fun (place, item) all =>
    match here.isPrefixOf place, place.drop here.length with
    | true, [name] => all.insert name (match item with
        | .directory => .directory ()
        | .file _ => .file)
    | _, _ => all) ∅⟩

def stores (t : FileTree) (p : Path) : Except StoreError (Layout Unit) :=
  match t.walk p with
  | .error _ => .ok {}
  | .ok place => if t.item? place = some .directory then .ok (t.entries place) else .error (.io .notADirectory)

def databaseName : String := "scm.redb"

def openDatabase (p : Path) : Action FileTree StoreError Unit := do
  let t ← get
  match t.read (p.child databaseName) with
  | .ok text => if text ≠ "" then throw .notADatabase
  | .error .notFound =>
    let here ← Action.ofExcept ((t.walk p).mapError .io)
    set (t.put (here ++ [databaseName]) (.file ""))
  | .error _ => throw .notADatabase

def openLast (clock : UInt64) (p : Path) : Action FileTree StoreError String := do
  let name ← Action.ofExcept ((← get).stores p >>= (·.lastKnown clock))
  (makeDirectories (p.child name)).relabel .io
  openDatabase (p.child name)
  return name

def stage (clock : UInt64) (p : Path) (mark? : Option String) : Action FileTree StoreError String := do
  (makeDirectories p).relabel .io
  let name ← Action.ofExcept ((← get).stores p >>= (·.fresh clock))
  match mark? with
  | none => throw (.io .notFound)
  | some mark =>
    let here ← Action.ofExcept (((← get).walk p).mapError .io)
    modify fun t => (t.put (here ++ [name]) .directory).put (here ++ [name, "mark"]) (.file mark)
    return name

end FileTree

end ClusterCatalog
