import ClusterCatalog.Codec.Word
import ClusterCatalog.Container.Basic
import ClusterCatalog.Node.Basic
import ClusterCatalog.Pipeline.Basic
import ClusterCatalog.Text.Bytes
/-!
The stored form of values: numbers little-endian at fixed width, the index of a variant as 32 bits,
lengths as 64 bits, one byte before an optional value. `decode` takes a value off the front.
-/
namespace ClusterCatalog

structure Codec (α : Type) where
  encode : α → Codec.Bytes
  decode : Codec.Bytes → Option (α × Codec.Bytes)

namespace Codec

variable {α β : Type}

def decodeFront (c : Codec α) (bytes : Bytes) : Option α := (c.decode bytes).map Prod.fst

def number (width : Nat) : Codec Nat where
  encode n := littleEndian width n
  decode bytes := (split? width bytes).map fun (front, rest) => (ofLittleEndian front, rest)

def via (c : Codec α) (view : β → α) (make? : α → Option β) : Codec β where
  encode b := c.encode (view b)
  decode bytes := (c.decode bytes).bind fun (a, rest) => (make? a).map (·, rest)

def pair (c : Codec α) (d : Codec β) : Codec (α × β) where
  encode | (a, b) => c.encode a ++ d.encode b
  decode bytes := (c.decode bytes).bind fun (a, rest) =>
    (d.decode rest).map fun (b, rest) => ((a, b), rest)

def word : Codec UInt64 := (number 8).via UInt64.toNat fun n => some (UInt64.ofNat n)

def half : Codec UInt16 := (number 2).via UInt16.toNat fun n => some (UInt16.ofNat n)

def byte : Codec UInt8 := (number 1).via UInt8.toNat fun n => some (UInt8.ofNat n)

def variant [DecidableEq α] (all : List α) : Codec α :=
  (number 4).via (fun a => all.idxOf a) fun n => all[n]?

def optional (c : Codec α) : Codec (Option α) where
  encode
    | none => [0]
    | some a => 1 :: c.encode a
  decode
    | 0 :: rest => some (none, rest)
    | 1 :: rest => (c.decode rest).map fun (a, rest) => (some a, rest)
    | _ => none

def blob : Codec Bytes where
  encode bytes := littleEndian 8 bytes.length ++ bytes
  decode bytes := ((number 8).decode bytes).bind fun (n, rest) => split? n rest

def text : Codec String := blob.via Utf8.encode Utf8.decode

def decodeMany (c : Codec α) : Nat → Bytes → Option (List α × Bytes)
  | 0, bytes => some ([], bytes)
  | n + 1, bytes => (c.decode bytes).bind fun (a, rest) =>
    (decodeMany c n rest).map fun (as, rest) => (a :: as, rest)

def list (c : Codec α) : Codec (List α) where
  encode as := littleEndian 8 as.length ++ as.flatMap c.encode
  decode bytes := ((number 8).decode bytes).bind fun (n, rest) => decodeMany c n rest

def uuid : Codec Uuid :=
  blob.via (fun u => bigEndian 16 u.bits.toNat) fun bytes =>
    if bytes.length = 16 then some ⟨BitVec.ofNat 128 (ofBigEndian bytes)⟩ else none

def containerId : Codec ContainerId := word.via ContainerId.value fun n => some ⟨n⟩

def nodeId : Codec NodeId := uuid.via NodeId.uuid fun u => some ⟨u⟩

def pipelineId : Codec PipelineId := uuid.via PipelineId.uuid fun u => some ⟨u⟩

def lifecycle : Codec Lifecycle :=
  variant [.opened, .closing, .quasiClosed, .closed, .deleting, .deleted]

def replicaState : Codec ReplicaState :=
  variant [.opened, .closing, .quasiClosed, .closed, .deleted, .unhealthy]

def operationalState : Codec OperationalState :=
  variant [.inService, .decommissioning, .decommissioned, .enteringMaintenance, .inMaintenance]

def pipelineState : Codec PipelineState := variant [.allocated, .opened, .closed]

def containerInfo : Codec ContainerInfo :=
  (containerId.pair <| lifecycle.pair <| word.pair <| (optional pipelineId).pair <|
    word.pair <| word.pair word).via
    (fun i => (i.id, i.state, i.sequence, i.pipeline?, i.usedBytes, i.keyCount, i.stateEntered))
    fun (id, state, sequence, pipeline?, used, keys, entered) =>
      some ⟨id, state, sequence, pipeline?, used, keys, entered⟩

def sighting : Codec Sighting :=
  (containerId.pair <| nodeId.pair <| word.pair <| word.pair <| word.pair replicaState).via
    (fun s => (s.container, s.node, s.firstSeen, s.lastSeen, s.sequence, s.state))
    fun (container, node, first, last, sequence, state) =>
      some ⟨container, node, first, last, sequence, state⟩

def ipv4 : Codec IPv4 :=
  (byte.pair <| byte.pair <| byte.pair byte).via (fun ip => (ip.a, ip.b, ip.c, ip.d))
    fun (a, b, c, d) => some ⟨a, b, c, d⟩

def ipv6 : Codec IPv6 where
  encode ip := ip.groups.toList.flatMap fun g => bigEndian 2 g.toNat
  decode bytes := (split? 16 bytes).map fun (front, rest) =>
    (⟨Vector.ofFn fun i => UInt16.ofNat (ofBigEndian ((front.drop (2 * i)).take 2))⟩, rest)

/-- A variant index, the address and the socket; neither a flow label nor a scope. -/
def socketAddress : Codec SocketAddress where
  encode
    | .v4 ip socket => littleEndian 4 0 ++ ((ipv4.pair half).encode (ip, socket))
    | .v6 ip socket _ _ => littleEndian 4 1 ++ ((ipv6.pair half).encode (ip, socket))
  decode bytes := ((number 4).decode bytes).bind fun (n, rest) =>
    match n with
    | 0 => ((ipv4.pair half).decode rest).map fun ((ip, socket), rest) => (.v4 ip socket, rest)
    | 1 => ((ipv6.pair half).decode rest).map fun ((ip, socket), rest) => (.v6 ip socket 0 0, rest)
    | _ => none

def nodeDetails : Codec NodeDetails :=
  (nodeId.pair <| text.pair socketAddress).via (fun d => (d.id, d.hostname, d.address))
    fun (id, hostname, address) => some ⟨id, hostname, address⟩

def nodeRow : Codec NodeRow :=
  (nodeDetails.pair operationalState).via (fun r => (r.details, r.opState))
    fun (details, opState) => some ⟨details, opState⟩

def pipeline : Codec Pipeline :=
  (pipelineId.pair <| (list nodeId).pair pipelineState).via (fun p => (p.id, p.nodes, p.state))
    fun (id, nodes, state) => some ⟨id, nodes, state⟩

end Codec

end ClusterCatalog
