import ClusterCatalog.Service.Timer
/-!
What outlives a run of the service: the store directories and the authority. A service that is
stopped in order or that ends all of a sudden leaves its store behind, and the next one starts from
the last known store.
-/
namespace ClusterCatalog

structure Host (A : Type) where
  settings : Settings
  clock : Millis
  disk : Layout StoreFile
  authority : A
  service? : Option (Service A) := none

namespace Host

variable {A : Type}

def build (h : Host A) : Except BuildError Catalog.Loaded × Host A :=
  match (Service.build h.settings h.authority h.clock).run h.disk with
  | (.ok (loaded, service), disk) => (.ok loaded, { h with disk, service? := some service })
  | (.error e, disk) => (.error e, { h with disk })

def drop (h : Host A) : Host A :=
  match h.service? with
  | some s => { h with disk := s.state.catalog.park, authority := s.authority, service? := none }
  | none => h

def crash (h : Host A) : Except BuildError Catalog.Loaded × Host A := h.drop.build

def restart [Authority A] (h : Host A) : Except BuildError Catalog.Loaded × Host A :=
  ({ h with service? := h.service?.map Service.stop }.drop).build

def onAuthority (f : A → A) (h : Host A) : Host A :=
  { h with
    authority := f h.authority
    service? := h.service?.map fun s => { s with authority := f s.authority } }

def source (h : Host A) : A := (h.service?.map Service.authority).getD h.authority

end Host

end ClusterCatalog
