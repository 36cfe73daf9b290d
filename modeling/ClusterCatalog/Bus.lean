import ClusterCatalog.Report
import ClusterCatalog.Lanes.Basic
/-!
The bus hands a report to the handlers of its kind: one job for each on the lanes that the handler
is bound to, under the node that the report is about.
-/
namespace ClusterCatalog

structure Subscription (P H : Type) where
  name : String
  pool : P
  handler : H
  deriving DecidableEq, Repr

structure Bus (P H : Type) where
  subscriptions : ReportKind → List (Subscription P H) := fun _ => []
  silent : ReportKind → Bool := fun _ => false
  closed : Bool := false
  published : Nat := 0

namespace Bus

variable {P H J : Type}

instance : Inhabited (Bus P H) := ⟨{}⟩

def bind (s : Subscription P H) : List (Subscription P H) → List (Subscription P H)
  | [] => [s]
  | t :: rest => if t.name = s.name then s :: rest else t :: bind s rest

def subscribe (kind : ReportKind) (s : Subscription P H) (bus : Bus P H) : Bus P H :=
  { bus with subscriptions := fun k =>
      if k = kind then bind s (bus.subscriptions k) else bus.subscriptions k }

def setSilent (kind : ReportKind) (silent : Bool) (bus : Bus P H) : Bus P H :=
  { bus with silent := fun k => if k = kind then silent else bus.silent k }

def close (bus : Bus P H) : Bus P H := { bus with closed := true }

def handlers (bus : Bus P H) (kind : ReportKind) : List String := (bus.subscriptions kind).map (·.name)

structure Delivery where
  accepted : Nat := 0
  refusal? : Option SubmitError := none
  deriving DecidableEq, Repr, Inhabited

/-- Nothing is an error as long as one handler takes the event. -/
def Delivery.result (d : Delivery) : Except SubmitError Nat :=
  match d.refusal? with
  | some e => if d.accepted = 0 then .error e else .ok d.accepted
  | none => .ok d.accepted

def deliver [DecidableEq P] (job : H → J) (node : NodeId) :
    List (Subscription P H) → Delivery → (P → Lanes J) → Delivery × (P → Lanes J)
  | [], d, pools => (d, pools)
  | s :: rest, d, pools =>
    let (result, pool) := (pools s.pool).submit node (job s.handler)
    let d : Delivery := match result with
      | .ok _ => { d with accepted := d.accepted + 1 }
      | .error e => { d with refusal? := some e }
    deliver job node rest d fun p => if p = s.pool then pool else pools p

def publish [DecidableEq P] (job : H → Report → J) (report : Report) (bus : Bus P H)
    (pools : P → Lanes J) : Except SubmitError Nat × Bus P H × (P → Lanes J) :=
  if bus.closed then (.error (.closed "event-bus"), bus, pools)
  else match bus.subscriptions report.kind with
    | [] => (.ok 0, bus, pools)
    | subscriptions =>
      let (d, pools) := deliver (job · report) report.origin subscriptions {} pools
      (d.result, { bus with published := bus.published + 1 }, pools)

end Bus

end ClusterCatalog
