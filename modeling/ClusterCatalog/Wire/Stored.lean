import ClusterCatalog.Codec.Key
import ClusterCatalog.Codec.Value
import ClusterCatalog.Wire.Domain
/-! The stored forms of keys and values, each found by the name of what it stores. -/
namespace ClusterCatalog

structure KeyForm where
  {α : Type}
  [form : Wire α]
  codec : KeyCodec α

structure ValueForm where
  {α : Type}
  [form : Wire α]
  codec : Codec α

instance (k : KeyForm) : Wire k.α := k.form

instance (v : ValueForm) : Wire v.α := v.form

namespace KeyForm

def ofName? : String → Option KeyForm
  | "u64" => some ⟨.word⟩
  | "string" => some ⟨.text⟩
  | "uuid" => some ⟨.uuid⟩
  | "container" => some ⟨.container⟩
  | "node" => some ⟨.node⟩
  | "pipeline" => some ⟨.pipeline⟩
  | "replica" => some ⟨.replica⟩
  | _ => none

def encode? (k : KeyForm) (v : Json.Value) : Option Codec.Bytes := (Wire.read? v : Option k.α).map k.codec.encode

def decode? (k : KeyForm) (bytes : Codec.Bytes) : Option Json.Value := (k.codec.decode bytes).map Wire.write

end KeyForm

namespace ValueForm

def ofName? : String → Option ValueForm
  | "container_info" => some ⟨.containerInfo⟩
  | "replica_history" => some ⟨.sighting⟩
  | "node_row" => some ⟨.nodeRow⟩
  | "pipeline" => some ⟨.pipeline⟩
  | "u64" => some ⟨.word⟩
  | _ => none

def encode? (f : ValueForm) (v : Json.Value) : Option Codec.Bytes := (Wire.read? v : Option f.α).map f.codec.encode

def decode? (f : ValueForm) (bytes : Codec.Bytes) : Option Json.Value := (f.codec.decodeFront bytes).map Wire.write

end ValueForm

end ClusterCatalog
