import Mathlib.Algebra.Group.Nat.Defs
import Mathlib.Data.Option.Basic
import ClusterCatalog.Codec.Value
/-!
Values come back from their bytes. Lengths are written as 64 bits, so this holds of values whose
lists and texts are no longer than that, and of all values that were read.
-/
namespace ClusterCatalog

namespace Codec

variable {α β : Type}

theorem ofLittleEndian_lt (bytes : Bytes) : ofLittleEndian bytes < 256 ^ bytes.length := by
  induction bytes with
  | nil => decide
  | cons b rest ih =>
    have byte : b.toNat < 256 := b.toNat_lt
    rw [ofLittleEndian, List.length_cons, Nat.pow_succ]
    omega

theorem split?_of_length {width : Nat} {front : Bytes} (h : front.length = width) (rest : Bytes) :
    split? width (front ++ rest) = some (front, rest) := by
  rw [← h, split?_append]

theorem length_of_split? {width : Nat} {bytes front rest : Bytes}
    (h : split? width bytes = some (front, rest)) : front.length = width := by
  simp only [split?, Option.ite_none_right_eq_some, Option.some.injEq, Prod.mk.injEq] at h
  obtain ⟨length, rfl, -⟩ := h
  exact length

/-- What fits comes back from its bytes as `norm` has it; whatever is read fits and is as `norm` has it. -/
structure Faithful (c : Codec α) (fits : α → Prop) (norm : α → α) : Prop where
  decode_encode {a : α} (h : fits a) (rest : Bytes) : c.decode (c.encode a ++ rest) = some (norm a, rest)
  of_decode {bytes rest : Bytes} {a : α} (h : c.decode bytes = some (a, rest)) : fits a ∧ norm a = a

abbrev Exact (c : Codec α) : Prop := c.Faithful (fun _ => True) id

namespace Faithful

variable {c : Codec α} {d : Codec β} {fits : α → Prop} {norm : α → α} {fits' : β → Prop} {norm' : β → β}

theorem decodeFront_encode (h : c.Faithful fits norm) {a : α} (fit : fits a) : c.decodeFront (c.encode a) = some (norm a) := by
  have decoded := h.decode_encode fit []
  rw [List.append_nil] at decoded
  rw [decodeFront, decoded, Option.map_some]

theorem via (h : c.Faithful fits norm) {view : β → α} {make? : α → Option β}
    (there : ∀ b, fits' b → fits (view b) ∧ make? (norm (view b)) = some (norm' b))
    (back : ∀ a b, fits a → norm a = a → make? a = some b → fits' b ∧ norm' b = b) :
    (c.via view make?).Faithful fits' norm' where
  decode_encode {b} fit rest := by
    obtain ⟨fit, made⟩ := there b fit
    simp [Codec.via, h.decode_encode fit, made]
  of_decode {bytes rest b} read := by
    obtain ⟨⟨a, rest'⟩, front, more⟩ := Option.bind_eq_some_iff.1 read
    obtain ⟨b', made, same⟩ := Option.map_eq_some_iff.1 more
    cases same
    exact back a b (h.of_decode front).1 (h.of_decode front).2 made

theorem pair (h : c.Faithful fits norm) (g : d.Faithful fits' norm') :
    (c.pair d).Faithful (fun p => fits p.1 ∧ fits' p.2) (Prod.map norm norm') where
  decode_encode {p} fit rest := by
    obtain ⟨a, b⟩ := p
    simp [Codec.pair, List.append_assoc, h.decode_encode fit.1, g.decode_encode fit.2]
  of_decode {bytes rest p} read := by
    obtain ⟨⟨a, rest'⟩, front, back⟩ := Option.bind_eq_some_iff.1 read
    obtain ⟨⟨b, rest''⟩, back, same⟩ := Option.map_eq_some_iff.1 back
    cases same
    obtain ⟨fit, norm⟩ := h.of_decode front
    obtain ⟨fit', norm'⟩ := g.of_decode back
    exact ⟨⟨fit, fit'⟩, Prod.ext norm norm'⟩

theorem optional (h : c.Faithful fits norm) :
    (optional c).Faithful (fun o => ∀ a, o = some a → fits a) (Option.map norm) where
  decode_encode {o} fit rest := by
    cases o with
    | none => rfl
    | some a => simp [Codec.optional, h.decode_encode (fit a rfl)]
  of_decode {bytes rest o} read := by
    simp only [Codec.optional] at read
    split at read
    · cases read
      exact ⟨fun _ none => (nomatch none), rfl⟩
    · obtain ⟨⟨a', rest'⟩, front, same⟩ := Option.map_eq_some_iff.1 read
      cases same
      obtain ⟨fit, norm⟩ := h.of_decode front
      refine ⟨fun a same => ?_, congrArg some norm⟩
      cases same
      exact fit
    · cases read

end Faithful

theorem faithful_number (width : Nat) : (number width).Faithful (· < 256 ^ width) id where
  decode_encode {n} fit rest := by
    have value : ofLittleEndian (littleEndian width n) = n := by
      rw [ofLittleEndian_littleEndian]
      exact Nat.mod_eq_of_lt fit
    simp [number, split?_of_length (length_littleEndian width n), value]
  of_decode {bytes rest n} read := by
    obtain ⟨⟨front, rest'⟩, split, same⟩ := Option.map_eq_some_iff.1 read
    cases same
    have bound := ofLittleEndian_lt front
    rw [length_of_split? split] at bound
    exact ⟨bound, rfl⟩

theorem exact_word : word.Exact :=
  (faithful_number 8).via (fun n _ => ⟨n.toNat_lt, by simp⟩) fun _ _ _ _ _ => ⟨trivial, rfl⟩

theorem exact_half : half.Exact :=
  (faithful_number 2).via (fun n _ => ⟨n.toNat_lt, by simp⟩) fun _ _ _ _ _ => ⟨trivial, rfl⟩

theorem exact_byte : byte.Exact :=
  (faithful_number 1).via (fun n _ => ⟨n.toNat_lt, by simp⟩) fun _ _ _ _ _ => ⟨trivial, rfl⟩

theorem exact_variant [DecidableEq α] {all : List α} (few : all.length < 256) (complete : ∀ a, a ∈ all) :
    (variant all).Exact := by
  refine (faithful_number 4).via (fun a _ => ?_) fun _ _ _ _ _ => ⟨trivial, rfl⟩
  have index : all.idxOf a < all.length := List.idxOf_lt_length_iff.2 (complete a)
  have small : all.length < 256 ^ 4 := Nat.lt_trans few (by decide)
  exact ⟨Nat.lt_trans index small, by simp [index]⟩

theorem encode_blob (bytes : Bytes) : blob.encode bytes = (number 8).encode bytes.length ++ bytes := rfl

theorem encode_list (c : Codec α) (as : List α) :
    (list c).encode as = (number 8).encode as.length ++ as.flatMap c.encode := rfl

theorem faithful_blob : blob.Faithful (fun bytes => bytes.length < 256 ^ 8) id where
  decode_encode {bytes} fit rest := by
    have length := (faithful_number 8).decode_encode (a := bytes.length) fit (bytes ++ rest)
    rw [encode_blob, List.append_assoc, blob]
    dsimp only
    rw [length]
    exact split?_of_length rfl rest
  of_decode {bytes rest front} read := by
    obtain ⟨⟨n, rest'⟩, length, split⟩ := Option.bind_eq_some_iff.1 read
    have bound := ((faithful_number 8).of_decode length).1
    rw [← length_of_split? split] at bound
    exact ⟨bound, rfl⟩

theorem faithful_text : text.Faithful (fun s => (Utf8.encode s).length < 256 ^ 8) id :=
  faithful_blob.via (fun s fit => ⟨fit, Utf8.decode_encode s⟩) fun bytes s fit _ made =>
    ⟨by rwa [Utf8.encode_of_decode made], rfl⟩

theorem exact_uuid : uuid.Exact := by
  refine faithful_blob.via (fun u _ => ?_) fun _ _ _ _ _ => ⟨trivial, rfl⟩
  have value : ofBigEndian (bigEndian 16 u.bits.toNat) = u.bits.toNat := by
    rw [ofBigEndian, bigEndian, List.reverse_reverse, ofLittleEndian_littleEndian]
    exact Nat.mod_eq_of_lt u.bits.isLt
  constructor
  · rw [length_bigEndian]
    decide
  · simp [value]

section List

variable {c : Codec α} {fits : α → Prop} {norm : α → α}

theorem decodeMany_encode (h : c.Faithful fits norm) {as : List α} (fit : ∀ a ∈ as, fits a) (rest : Bytes) :
    decodeMany c as.length (as.flatMap c.encode ++ rest) = some (as.map norm, rest) := by
  induction as with
  | nil => rfl
  | cons a as ih =>
    have first := h.decode_encode (fit a List.mem_cons_self) (as.flatMap c.encode ++ rest)
    have others := ih fun a' mem => fit a' (List.mem_cons_of_mem a mem)
    simp [decodeMany, first, others]

theorem of_decodeMany (h : c.Faithful fits norm) {n : Nat} {bytes rest : Bytes} {as : List α}
    (read : decodeMany c n bytes = some (as, rest)) : as.length = n ∧ ∀ a ∈ as, fits a ∧ norm a = a := by
  induction n generalizing bytes as with
  | zero =>
    cases read
    simp
  | succ n ih =>
    obtain ⟨⟨a, rest'⟩, front, more⟩ := Option.bind_eq_some_iff.1 read
    obtain ⟨⟨as', rest''⟩, others, same⟩ := Option.map_eq_some_iff.1 more
    cases same
    obtain ⟨length, fit⟩ := ih others
    refine ⟨by simp [length], ?_⟩
    rintro a' (_ | ⟨_, mem⟩)
    · exact h.of_decode front
    · exact fit a' mem

theorem faithful_list (h : c.Faithful fits norm) :
    (list c).Faithful (fun as => as.length < 256 ^ 8 ∧ ∀ a ∈ as, fits a) (List.map norm) where
  decode_encode {as} fit rest := by
    have length := (faithful_number 8).decode_encode (a := as.length) fit.1 (as.flatMap c.encode ++ rest)
    rw [encode_list, List.append_assoc, list]
    dsimp only
    rw [length]
    exact decodeMany_encode h fit.2 rest
  of_decode {bytes rest as} read := by
    obtain ⟨⟨n, rest'⟩, length, many⟩ := Option.bind_eq_some_iff.1 read
    obtain ⟨count, fit⟩ := of_decodeMany h many
    refine ⟨⟨count ▸ ((faithful_number 8).of_decode length).1, fun a mem => (fit a mem).1⟩, ?_⟩
    exact (List.map_congr_left fun a mem => (fit a mem).2).trans (List.map_id as)

end List

/-! The rows of the tables. -/

theorem exact_containerId : containerId.Exact :=
  exact_word.via (fun _ _ => ⟨trivial, rfl⟩) fun _ _ _ _ _ => ⟨trivial, rfl⟩

theorem exact_nodeId : nodeId.Exact := exact_uuid.via (fun _ _ => ⟨trivial, rfl⟩) fun _ _ _ _ _ => ⟨trivial, rfl⟩

theorem exact_pipelineId : pipelineId.Exact :=
  exact_uuid.via (fun _ _ => ⟨trivial, rfl⟩) fun _ _ _ _ _ => ⟨trivial, rfl⟩

theorem exact_lifecycle : lifecycle.Exact := exact_variant (by decide) fun a => by cases a <;> decide

theorem exact_operationalState : operationalState.Exact :=
  exact_variant (by decide) fun a => by cases a <;> decide

theorem exact_pipelineState : pipelineState.Exact :=
  exact_variant (by decide) fun a => by cases a <;> decide

theorem exact_containerInfo : containerInfo.Exact := by
  have fields := exact_containerId.pair <| exact_lifecycle.pair <| exact_word.pair <|
    exact_pipelineId.optional.pair <| exact_word.pair <| exact_word.pair exact_word
  exact fields.via (fun i _ => ⟨by simp, by simp⟩) fun _ _ _ _ _ => ⟨trivial, rfl⟩

theorem exact_replicaState : replicaState.Exact := exact_variant (by decide) fun a => by cases a <;> decide

theorem exact_sighting : sighting.Exact := by
  have fields := exact_containerId.pair <| exact_nodeId.pair <| exact_word.pair <| exact_word.pair <|
    exact_word.pair exact_replicaState
  exact fields.via (fun s _ => ⟨by simp, by simp⟩) fun _ _ _ _ _ => ⟨trivial, rfl⟩

theorem exact_ipv4 : ipv4.Exact := by
  have fields := exact_byte.pair <| exact_byte.pair <| exact_byte.pair exact_byte
  exact fields.via (fun ip _ => ⟨by simp, by simp⟩) fun _ _ _ _ _ => ⟨trivial, rfl⟩

theorem length_flatMap_of_length {f : α → List β} {width : Nat} (h : ∀ a, (f a).length = width)
    (l : List α) : (l.flatMap f).length = l.length * width := by
  induction l with
  | nil => simp
  | cons a l ih => simp [ih, h, Nat.succ_mul, Nat.add_comm]

theorem take_drop_flatMap {f : α → List β} {width : Nat} (h : ∀ a, (f a).length = width) {l : List α}
    {i : Nat} (bound : i < l.length) : ((l.flatMap f).drop (width * i)).take width = f l[i] := by
  induction l generalizing i with
  | nil => simp at bound
  | cons a l ih =>
    cases i with
    | zero => simp [← h a]
    | succ i =>
      have skip : width * (i + 1) = (f a).length + width * i := by rw [h, Nat.mul_succ, Nat.add_comm]
      rw [List.flatMap_cons, skip, ← List.drop_drop, List.drop_left, List.getElem_cons_succ]
      exact ih (Nat.lt_of_succ_lt_succ bound)

theorem ofBigEndian_half (g : UInt16) : UInt16.ofNat (ofBigEndian (bigEndian 2 g.toNat)) = g := by
  have value : ofBigEndian (bigEndian 2 g.toNat) = g.toNat := by
    rw [ofBigEndian, bigEndian, List.reverse_reverse, ofLittleEndian_littleEndian]
    exact Nat.mod_eq_of_lt g.toNat_lt
  rw [value, UInt16.ofNat_toNat]

theorem exact_ipv6 : ipv6.Exact where
  decode_encode {ip} _ rest := by
    have width (g : UInt16) : (bigEndian 2 g.toNat).length = 2 := length_bigEndian 2 g.toNat
    have length : (ipv6.encode ip).length = 16 := by
      simp [ipv6, length_flatMap_of_length width]
    have groups : (Vector.ofFn fun i : Fin 8 =>
        UInt16.ofNat (ofBigEndian (((ipv6.encode ip).drop (2 * i)).take 2))) = ip.groups := by
      refine Vector.ext fun i bound => ?_
      rw [Vector.getElem_ofFn, ipv6]
      dsimp only
      rw [take_drop_flatMap width (by simpa using bound), ofBigEndian_half, Vector.getElem_toList]
    change (split? 16 (ipv6.encode ip ++ rest)).map _ = _
    rw [split?_of_length length, Option.map_some]
    dsimp only
    rw [groups]
    rfl
  of_decode _ := ⟨trivial, rfl⟩

theorem encode_v4 (ip : IPv4) (socket : UInt16) :
    socketAddress.encode (.v4 ip socket) = (number 4).encode 0 ++ (ipv4.pair half).encode (ip, socket) := rfl

theorem encode_v6 (ip : IPv6) (socket : UInt16) (flow scope : UInt32) :
    socketAddress.encode (.v6 ip socket flow scope) = (number 4).encode 1 ++ (ipv6.pair half).encode (ip, socket) :=
  rfl

end Codec

namespace SocketAddress

def withoutScope : SocketAddress → SocketAddress
  | .v4 ip socket => .v4 ip socket
  | .v6 ip socket flow _ => .v6 ip socket flow 0

/-- What is stored of an address. Its flow label and its scope are matters of the local host. -/
def stored : SocketAddress → SocketAddress
  | .v4 ip socket => .v4 ip socket
  | .v6 ip socket _ _ => .v6 ip socket 0 0

/-- Of an address that was read only the scope is lost, for no text gives a flow label. -/
theorem stored_of_parse? {text : String} {address : SocketAddress} (read : parse? text = some address) :
    address.stored = address.withoutScope := by
  obtain v4 | ⟨-, v6⟩ := (Option.orElse_eq_some ..).1 read
  · obtain ⟨⟨ip, rest⟩, -, more⟩ := Option.bind_eq_some_iff.1 v4
    obtain ⟨⟨p, rest⟩, -, more⟩ := Option.bind_eq_some_iff.1 more
    obtain ⟨-, same⟩ := Option.ite_none_right_eq_some.1 more
    cases same
    rfl
  · obtain ⟨rest, -, more⟩ := Option.bind_eq_some_iff.1 v6
    obtain ⟨⟨ip, rest⟩, -, more⟩ := Option.bind_eq_some_iff.1 more
    obtain ⟨rest, -, more⟩ := Option.bind_eq_some_iff.1 more
    obtain ⟨⟨p, rest⟩, -, more⟩ := Option.bind_eq_some_iff.1 more
    obtain ⟨-, same⟩ := Option.ite_none_right_eq_some.1 more
    cases same
    rfl

end SocketAddress

namespace Codec

theorem faithful_socketAddress : socketAddress.Faithful (fun _ => True) SocketAddress.stored where
  decode_encode {address} _ rest := by
    cases address with
    | v4 ip socket =>
      have fields := (exact_ipv4.pair exact_half).decode_encode (a := (ip, socket)) ⟨trivial, trivial⟩ rest
      have index := (faithful_number 4).decode_encode (a := 0) (by decide)
        ((ipv4.pair half).encode (ip, socket) ++ rest)
      rw [encode_v4, List.append_assoc, socketAddress]
      dsimp only
      rw [index]
      simp [fields, SocketAddress.stored]
    | v6 ip socket flow scope =>
      have fields := (exact_ipv6.pair exact_half).decode_encode (a := (ip, socket)) ⟨trivial, trivial⟩ rest
      have index := (faithful_number 4).decode_encode (a := 1) (by decide)
        ((ipv6.pair half).encode (ip, socket) ++ rest)
      rw [encode_v6, List.append_assoc, socketAddress]
      dsimp only
      rw [index]
      simp [fields, SocketAddress.stored]
  of_decode {bytes rest a} read := by
    refine ⟨trivial, ?_⟩
    obtain ⟨⟨n, rest'⟩, -, more⟩ := Option.bind_eq_some_iff.1 read
    match n with
    | 0 =>
      obtain ⟨⟨⟨ip, socket⟩, rest''⟩, -, same⟩ := Option.map_eq_some_iff.1 more
      cases same
      rfl
    | 1 =>
      obtain ⟨⟨⟨ip, socket⟩, rest''⟩, -, same⟩ := Option.map_eq_some_iff.1 more
      cases same
      rfl
    | _ + 2 => cases more

end Codec

def NodeRow.stored (r : NodeRow) : NodeRow :=
  { r with details := { r.details with address := r.details.address.stored } }

namespace Codec

theorem faithful_nodeDetails : nodeDetails.Faithful (fun d => (Utf8.encode d.hostname).length < 256 ^ 8)
    fun d => { d with address := d.address.stored } := by
  refine (exact_nodeId.pair (faithful_text.pair faithful_socketAddress)).via
    (fun d fit => ⟨⟨trivial, fit, trivial⟩, rfl⟩) fun a d fit norm made => ?_
  cases made
  exact ⟨fit.2.1, by simpa [Prod.ext_iff] using norm⟩

theorem faithful_nodeRow :
    nodeRow.Faithful (fun r => (Utf8.encode r.details.hostname).length < 256 ^ 8) NodeRow.stored := by
  refine (faithful_nodeDetails.pair exact_operationalState).via (fun r fit => ⟨⟨fit, trivial⟩, rfl⟩)
    fun a r fit norm made => ?_
  cases made
  have same := congrArg Prod.fst norm
  exact ⟨fit.1, congrArg (NodeRow.mk · a.2) same⟩

theorem faithful_pipeline : pipeline.Faithful (fun p => p.nodes.length < 256 ^ 8) id := by
  refine (exact_pipelineId.pair ((faithful_list exact_nodeId).pair exact_pipelineState)).via
    (fun p fit => ⟨⟨trivial, ⟨fit, fun _ _ => trivial⟩, trivial⟩, by simp⟩) fun a p fit _ made => ?_
  cases made
  exact ⟨fit.2.1.1, rfl⟩

end Codec

end ClusterCatalog
