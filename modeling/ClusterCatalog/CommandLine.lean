import ClusterCatalog.Settings
import ClusterCatalog.Storage.FileTree
/-!
The command line: flags with values, where a later one wins and an unknown one is skipped. `run`
says what a run in a directory prints and leaves behind.
-/
namespace ClusterCatalog.CommandLine

structure Options where
  config? : Option String := none
  bind? : Option SocketAddress := none
  authority? : Option String := none
  storeDirectory? : Option String := none
  deriving DecidableEq, Repr

inductive Fault where
  | help
  | missingValue (flag : String)
  | badAddress (flag : String)
  deriving DecidableEq, Repr

inductive Flag where
  | config
  | bind
  | authority
  | storeDirectory
  deriving DecidableEq, Repr

def Flag.ofText? : String → Option Flag
  | "--config" => some .config
  | "--bind" => some .bind
  | "--scm" => some .authority
  | "--db-dir" => some .storeDirectory
  | _ => none

def Options.set (o : Options) (flag : Flag) (value : String) : Except Fault Options :=
  match flag with
  | .config => .ok { o with config? := some value }
  | .bind => match SocketAddress.parse? value with
    | some address => .ok { o with bind? := some address }
    | none => .error (.badAddress "--bind")
  | .authority => .ok { o with authority? := some value }
  | .storeDirectory => .ok { o with storeDirectory? := some value }

def parse (o : Options) : List String → Except Fault Options
  | [] => .ok o
  | [text] => match Flag.ofText? text with
    | some _ => .error (.missingValue text)
    | none => if text = "--help" ∨ text = "-h" then .error .help else .ok o
  | text :: value :: rest => match Flag.ofText? text with
    | some flag => match o.set flag value with
      | .ok o => parse o rest
      | .error e => .error e
    | none => if text = "--help" ∨ text = "-h" then .error .help else parse o (value :: rest)

def usage (program : String) : List String :=
  ["Usage: " ++ program ++ " [--config <file.toml>] [--bind <addr:port>] [--scm <addr:port>] [--db-dir <path>]",
   "Example: " ++ program ++ " --scm 127.0.0.1:9860 --bind 127.0.0.1:9888"]

def Fault.lines (program : String) : Fault → List String
  | .help => usage program
  | .missingValue flag => ("Missing value for " ++ flag) :: usage program
  | .badAddress flag => ["Error: " ++ flag]

def Options.settings (o : Options) (read : String → Except IoFault String) : Except String Settings := do
  let base ← match o.config? with
    | none => pure {}
    | some path => match read path with
      | .error fault => throw ("cannot read config " ++ path ++ ": " ++ fault.message)
      | .ok text => (Settings.ofToml text).mapError Settings.Error.message
  return { base with
    httpBind := o.bind?.getD base.httpBind
    authorityAddress := o.authority?.getD base.authorityAddress
    storeDirectory := o.storeDirectory?.getD base.storeDirectory }

def startLines (s : Settings) : List String :=
  ["Starting container recon (db dir " ++ s.storeDirectory ++ ")",
   "Authoritative SCM at " ++ s.authorityAddress]

def servingLines (s : Settings) : List String :=
  ["HTTP server listening on " ++ s.httpBind.render, "Press Ctrl+C to shutdown"]

structure Workspace where
  tree : FileTree
  here : Location
  name : String

namespace Workspace

def path (w : Workspace) (text : String) : Path :=
  match text.splitOn "/" with
  | [] => .ofText w.here text
  | first :: rest => if first = w.name then ⟨w.here, "" :: rest⟩ else .ofText w.here text

def addFile (w : Workspace) (name text : String) : Workspace :=
  let place := w.here ++ name.splitOn "/"
  { w with tree := (FileTree.makeFrom [] place.dropLast.reverse).state w.tree |>.put place (.file text) }

def fresh (name : String) : Workspace :=
  let directories := [["dev"], ["etc"], ["home"], ["proc"], ["root"], ["tmp"], ["tmp", name], ["usr"], ["var"]]
  { tree := ⟨(["dev", "null"], .file "") :: directories.map (·, .directory)⟩, here := ["tmp", name], name }

def left (w : Workspace) : List String := (w.tree.entries w.here).names

end Workspace

structure Run where
  exit : Nat
  errors : List String := []
  log : List String := []
  left : List String
  deriving DecidableEq, Repr

def isLocal : SocketAddress → Bool
  | .v4 ip _ => ip.a == 127 || ip == ⟨0, 0, 0, 0⟩
  | .v6 ip _ _ _ => match ip.mapped? with
    | some ip => ip.a == 127 || ip == ⟨0, 0, 0, 0⟩
    | none => let n := ip.groups.toList.map UInt16.toNat; n.dropLast.all (· == 0) && n.getLast?.any (· ≤ 1)

def run (w : Workspace) (clock : UInt64) (program : String) (args : List String) : Run :=
  let ended := fun (exit : Nat) (errors log : List String) (tree : FileTree) =>
    { exit, errors, log, left := { w with tree }.left : Run }
  match parse {} args with
  | .error fault => ended 1 (fault.lines program) [] w.tree
  | .ok o =>
    match o.settings fun text => w.tree.read (w.path text) with
    | .error message => ended 1 ["Error: " ++ message] [] w.tree
    | .ok s =>
      match (FileTree.openLast clock (w.path s.storeDirectory)).run w.tree with
      | (.error e, tree) => ended 1 ["Error: " ++ e.message] (startLines s) tree
      | (.ok _, tree) =>
        let log := startLines s ++ servingLines s
        if isLocal s.httpBind then ended 0 [] log tree
        else ended 1 ["Error: Cannot assign requested address (os error 99)"] log tree

end ClusterCatalog.CommandLine
