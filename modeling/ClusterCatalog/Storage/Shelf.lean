import ClusterCatalog.Storage.Live
/-! Stores by name: what lies on disk, which of them are open, and which is live. -/
namespace ClusterCatalog

structure Shelf where
  files : Std.ExtTreeMap String StoreFile := ∅
  opened : Std.ExtTreeMap String Database := ∅
  live? : Option Live := none

namespace Shelf

def putBack (s : Shelf) (name : String) (db : Database) : Shelf :=
  { s with files := s.files.insert name (.database db), opened := s.opened.erase name }

def close (s : Shelf) (name : String) : Shelf :=
  match s.opened[name]? with
  | some db => s.putBack name db
  | none => s

def reopen (s : Shelf) (name : String) : Except StoreError Unit × Shelf :=
  let s := s.close name
  if s.live?.any (·.location == name) then (.error .notADatabase, s)
  else match ((s.files[name]?).getD .missing).load with
    | .ok db => (.ok (), { s with opened := s.opened.insert name db })
    | .error e => (.error e, s)

def setOpen (s : Shelf) (name : String) (db : Database) : Shelf := { s with opened := s.opened.insert name db }

def makeLive (s : Shelf) (name : String) (db : Database) : Shelf :=
  let s := (s.live?.map fun old => s.putBack old.location old.db).getD s
  { s with opened := s.opened.erase name, live? := some ⟨name, db⟩ }

def swap {ε α : Type} (s : Shelf) (live next : Live) (ready : Database → Action Database ε α) :
    Except ε α × Shelf :=
  let (result, live, aside) := live.swap next ready
  (result, { s with live? := some live, opened := s.opened.erase next.location }.putBack aside.location aside.db)

end Shelf

end ClusterCatalog
