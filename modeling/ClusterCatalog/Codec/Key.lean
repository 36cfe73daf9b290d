import ClusterCatalog.Codec.Word
import ClusterCatalog.Identity
import ClusterCatalog.Text.Bytes
/-!
The stored form of keys. Numbers are written most significant byte first, so that the rows of a
table come in the order of their keys; reading takes the whole of the bytes or nothing.
-/
namespace ClusterCatalog

structure KeyCodec (α : Type) where
  encode : α → Codec.Bytes
  decode : Codec.Bytes → Option α

namespace KeyCodec

open Codec

def word : KeyCodec UInt64 where
  encode n := bigEndian 8 n.toNat
  decode bytes := if bytes.length = 8 then some (UInt64.ofNat (ofBigEndian bytes)) else none

def text : KeyCodec String where
  encode := Utf8.encode
  decode := Utf8.decode

def uuid : KeyCodec Uuid where
  encode u := bigEndian 16 u.bits.toNat
  decode bytes := if bytes.length = 16 then some ⟨BitVec.ofNat 128 (ofBigEndian bytes)⟩ else none

def container : KeyCodec ContainerId where
  encode id := word.encode id.value
  decode bytes := (word.decode bytes).map ContainerId.mk

def node : KeyCodec NodeId where
  encode id := uuid.encode id.uuid
  decode bytes := (uuid.decode bytes).map NodeId.mk

def pipeline : KeyCodec PipelineId where
  encode id := uuid.encode id.uuid
  decode bytes := (uuid.decode bytes).map PipelineId.mk

def replica : KeyCodec ReplicaKey where
  encode k := container.encode k.container ++ node.encode k.node
  decode bytes :=
    if bytes.length = 24 then
      (container.decode (bytes.take 8)).bind fun c =>
        (node.decode (bytes.drop 8)).map fun n => ⟨c, n⟩
    else none

end KeyCodec

end ClusterCatalog
