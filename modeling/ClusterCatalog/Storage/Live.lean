import ClusterCatalog.Storage.TypedTable
/-!
The live store. A store takes its place only after it has been made ready; until then, and if that
fails, the live store is the old one.
-/
namespace ClusterCatalog

structure Live where
  location : String
  db : Database

namespace Live

variable {ε α : Type}

/-- Puts `next` in the place of the live store once `ready` has prepared it from the old one.
Afterwards the first store is live and the second is set aside. -/
def swap (live next : Live) (ready : Database → Action Database ε α) : Except ε α × Live × Live :=
  match (ready live.db).run next.db with
  | (.ok a, db) => (.ok a, { next with db }, live)
  | (.error e, db) => (.error e, live, { next with db })

end Live

structure Stored (σ : Type) where
  view : σ
  db : Database

namespace Stored

variable {σ ε α : Type}

def onStore (a : Action Database ε α) : Action (Stored σ) ε α :=
  a.within Stored.db fun s db => { s with db }

def modifyView (f : σ → σ) : Action (Stored σ) ε Unit := modify fun s => { s with view := f s.view }

def getView : Action (Stored σ) ε σ := Stored.view <$> get

end Stored

end ClusterCatalog
