import ClusterCatalog.Identity
import ClusterCatalog.Container.Lifecycle
import ClusterCatalog.Storage.Error
/-! What can be wrong with a request on a container. -/
namespace ClusterCatalog

def Lifecycle.title : Lifecycle → String
  | .opened => "Open"
  | .closing => "Closing"
  | .quasiClosed => "QuasiClosed"
  | .closed => "Closed"
  | .deleting => "Deleting"
  | .deleted => "Deleted"

def Lifecycle.Event.title : Lifecycle.Event → String
  | .finalize => "Finalize"
  | .quasiClose => "QuasiClose"
  | .close => "Close"
  | .forceClose => "ForceClose"
  | .delete => "Delete"
  | .cleanup => "Cleanup"

inductive ContainerError where
  | notFound (id : ContainerId)
  | alreadyExists (id : ContainerId)
  | invalidTransition (id : ContainerId) (state : Lifecycle) (event : Lifecycle.Event)
  | store (cause : StoreError)
  deriving DecidableEq, Repr

def ContainerError.message : ContainerError → String
  | .notFound id => "container " ++ id.render ++ " not found"
  | .alreadyExists id => "container " ++ id.render ++ " already exists"
  | .invalidTransition id state event => "container " ++ id.render ++ ": event " ++ event.title ++
      " is not valid in state " ++ state.title
  | .store cause => "container store error: " ++ cause.message

end ClusterCatalog
