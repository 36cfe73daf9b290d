import ClusterCatalog.Proofs.Codec.Key
/-!
A value has one written form: whatever is read was written so. With reading back what was written this
means that no written form is the beginning of another, and that a form that was cut is not read.
-/
namespace ClusterCatalog.Codec

variable {α β : Type}

structure Canonical (c : Codec α) : Prop where
  eq_append {bytes rest : Bytes} {a : α} (h : c.decode bytes = some (a, rest)) : bytes = c.encode a ++ rest

theorem encode_number (width n : Nat) : (number width).encode n = littleEndian width n := rfl

theorem encode_via (c : Codec α) (view : β → α) (make? : α → Option β) (b : β) :
    (c.via view make?).encode b = c.encode (view b) := rfl

section Laws

variable {c : Codec α} {d : Codec β} {fits : α → Prop} {norm : α → α}

/-- What is kept of a value is written as the value itself. -/
theorem Canonical.encode_norm (canonical : c.Canonical) (h : c.Faithful fits norm) {a : α} (fit : fits a) :
    c.encode (norm a) = c.encode a := by
  have written := canonical.eq_append (h.decode_encode fit [])
  rw [List.append_nil, List.append_nil] at written
  exact written.symm

/-- No proper beginning of a written value is read. -/
theorem Canonical.decode_eq_none (canonical : c.Canonical) (h : c.Faithful fits norm) {a : α} (fit : fits a)
    {front : Bytes} (begins : front <+: c.encode a) (cut : front ≠ c.encode a) : c.decode front = none := by
  rw [Option.eq_none_iff_forall_ne_some]
  rintro ⟨b, rest⟩ read
  obtain ⟨more, whole⟩ := begins
  -- the whole would then be another value with something behind it
  have other : c.encode a = c.encode b ++ (rest ++ more) := by
    rw [← whole, canonical.eq_append read, List.append_assoc]
  have again : c.decode (c.encode a ++ []) = some (norm b, rest ++ more) := by
    rw [List.append_nil, other]
    exact h.decode_encode (h.of_decode read).1 (rest ++ more)
  rw [h.decode_encode fit []] at again
  have nothing : rest ++ more = [] := (congrArg Prod.snd (Option.some.inj again)).symm
  obtain ⟨-, rfl⟩ := List.append_eq_nil_iff.1 nothing
  exact cut (by rw [← whole, List.append_nil])

theorem Canonical.via (canonical : c.Canonical) (h : c.Faithful fits norm) {view : β → α} {make? : α → Option β}
    (back : ∀ a b, fits a → make? a = some b → view b = a) : (c.via view make?).Canonical where
  eq_append {bytes rest b} read := by
    obtain ⟨⟨a, rest'⟩, front, more⟩ := Option.bind_eq_some_iff.1 read
    obtain ⟨b', made, same⟩ := Option.map_eq_some_iff.1 more
    cases same
    rw [canonical.eq_append front, encode_via, back a b (h.of_decode front).1 made]

theorem Canonical.pair (canonical : c.Canonical) (other : d.Canonical) : (c.pair d).Canonical where
  eq_append {bytes rest p} read := by
    obtain ⟨⟨a, rest'⟩, front, more⟩ := Option.bind_eq_some_iff.1 read
    obtain ⟨⟨b, rest''⟩, back, same⟩ := Option.map_eq_some_iff.1 more
    cases same
    rw [canonical.eq_append front, other.eq_append back, Codec.pair, List.append_assoc]

theorem Canonical.optional (canonical : c.Canonical) : (optional c).Canonical where
  eq_append {bytes rest o} read := by
    simp only [Codec.optional] at read ⊢
    split at read
    · cases read
      rfl
    · obtain ⟨⟨a, rest'⟩, front, same⟩ := Option.map_eq_some_iff.1 read
      cases same
      rw [canonical.eq_append front, List.cons_append]
    · cases read

end Laws

theorem append_of_split? {width : Nat} {bytes front rest : Bytes} (h : split? width bytes = some (front, rest)) :
    bytes = front ++ rest := by
  simp only [split?, Option.ite_none_right_eq_some, Option.some.injEq, Prod.mk.injEq] at h
  obtain ⟨-, rfl, rfl⟩ := h
  exact (List.take_append_drop width bytes).symm

theorem canonical_number (width : Nat) : (number width).Canonical where
  eq_append {bytes rest n} read := by
    obtain ⟨⟨front, rest'⟩, split, same⟩ := Option.map_eq_some_iff.1 read
    cases same
    have again := littleEndian_ofLittleEndian front
    rw [length_of_split? split] at again
    rw [append_of_split? split, encode_number, again]

theorem canonical_word : word.Canonical :=
  (canonical_number 8).via (faithful_number 8) fun a b fit made => by
    cases made
    exact UInt64.toNat_ofNat_of_lt' fit

theorem canonical_half : half.Canonical :=
  (canonical_number 2).via (faithful_number 2) fun a b fit made => by
    cases made
    exact UInt16.toNat_ofNat_of_lt' fit

theorem canonical_byte : byte.Canonical :=
  (canonical_number 1).via (faithful_number 1) fun a b fit made => by
    cases made
    exact UInt8.toNat_ofNat_of_lt' fit

theorem canonical_variant [DecidableEq α] {all : List α} (distinct : all.Nodup) : (variant all).Canonical :=
  (canonical_number 4).via (faithful_number 4) fun n a _ made => by
    obtain ⟨bound, rfl⟩ := List.getElem?_eq_some_iff.1 made
    exact distinct.idxOf_getElem n bound

theorem canonical_blob : blob.Canonical where
  eq_append {bytes rest front} read := by
    obtain ⟨⟨n, rest'⟩, length, split⟩ := Option.bind_eq_some_iff.1 read
    rw [(canonical_number 8).eq_append length, append_of_split? split, encode_blob, length_of_split? split,
      List.append_assoc]

theorem canonical_text : text.Canonical :=
  canonical_blob.via faithful_blob fun _ _ _ made => Utf8.encode_of_decode made

theorem canonical_uuid : uuid.Canonical :=
  canonical_blob.via faithful_blob fun bytes u _ made => by
    rw [Option.ite_none_right_eq_some] at made
    obtain ⟨length, same⟩ := made
    cases same
    have value : (BitVec.ofNat 128 (ofBigEndian bytes)).toNat = ofBigEndian bytes :=
      Nat.mod_eq_of_lt (ofBigEndian_lt length)
    rw [value]
    exact bigEndian_ofBigEndian length

theorem Canonical.append_of_decodeMany {c : Codec α} (canonical : c.Canonical) {n : Nat} {bytes rest : Bytes}
    {as : List α} (read : decodeMany c n bytes = some (as, rest)) : bytes = as.flatMap c.encode ++ rest := by
  induction n generalizing bytes as with
  | zero =>
    cases read
    rfl
  | succ n ih =>
    obtain ⟨⟨a, rest'⟩, front, more⟩ := Option.bind_eq_some_iff.1 read
    obtain ⟨⟨as', rest''⟩, others, same⟩ := Option.map_eq_some_iff.1 more
    cases same
    rw [canonical.eq_append front, ih others, List.flatMap_cons, List.append_assoc]

theorem Canonical.list {c : Codec α} {fits : α → Prop} {norm : α → α} (canonical : c.Canonical)
    (h : c.Faithful fits norm) : (list c).Canonical where
  eq_append {bytes rest as} read := by
    obtain ⟨⟨n, rest'⟩, length, many⟩ := Option.bind_eq_some_iff.1 read
    rw [(canonical_number 8).eq_append length, canonical.append_of_decodeMany many, encode_list,
      (of_decodeMany h many).1, List.append_assoc]

/-! The rows of the tables. -/

theorem canonical_containerId : containerId.Canonical :=
  canonical_word.via exact_word fun _ _ _ made => by cases made; rfl

theorem canonical_nodeId : nodeId.Canonical :=
  canonical_uuid.via exact_uuid fun _ _ _ made => by cases made; rfl

theorem canonical_pipelineId : pipelineId.Canonical :=
  canonical_uuid.via exact_uuid fun _ _ _ made => by cases made; rfl

theorem canonical_containerInfo : containerInfo.Canonical := by
  have fields := canonical_containerId.pair <| (canonical_variant (by decide) : lifecycle.Canonical).pair <|
    canonical_word.pair <| canonical_pipelineId.optional.pair <| canonical_word.pair <|
    canonical_word.pair canonical_word
  have exact := exact_containerId.pair <| exact_lifecycle.pair <| exact_word.pair <|
    exact_pipelineId.optional.pair <| exact_word.pair <| exact_word.pair exact_word
  exact fields.via exact fun _ _ _ made => by cases made; rfl

theorem canonical_sighting : sighting.Canonical := by
  have fields := canonical_containerId.pair <| canonical_nodeId.pair <| canonical_word.pair <|
    canonical_word.pair <| canonical_word.pair (canonical_variant (by decide) : replicaState.Canonical)
  have exact := exact_containerId.pair <| exact_nodeId.pair <| exact_word.pair <| exact_word.pair <|
    exact_word.pair exact_replicaState
  exact fields.via exact fun _ _ _ made => by cases made; rfl

theorem canonical_ipv4 : ipv4.Canonical := by
  have fields := canonical_byte.pair <| canonical_byte.pair <| canonical_byte.pair canonical_byte
  have exact := exact_byte.pair <| exact_byte.pair <| exact_byte.pair exact_byte
  exact fields.via exact fun _ _ _ made => by cases made; rfl

theorem flatten_pieces (width : Nat) {count : Nat} {l : List α} (h : l.length = width * count) :
    (List.ofFn fun i : Fin count => (l.drop (width * i)).take width).flatten = l := by
  induction count generalizing l with
  | zero =>
    rw [Nat.mul_zero, List.length_eq_zero_iff] at h
    rw [h, List.ofFn_zero, List.flatten_nil]
  | succ count ih =>
    have rest : (l.drop width).length = width * count := by
      rw [List.length_drop, h, Nat.mul_succ, Nat.add_sub_cancel]
    have later (i : Fin count) : l.drop (width * (i.succ : Nat)) = (l.drop width).drop (width * i) := by
      rw [List.drop_drop, Fin.val_succ, Nat.mul_succ, Nat.add_comm]
    rw [List.ofFn_succ, List.flatten_cons]
    simp only [later]
    rw [ih rest, Fin.val_zero, Nat.mul_zero, List.drop_zero, List.take_append_drop]

theorem canonical_ipv6 : ipv6.Canonical where
  eq_append {bytes rest ip} read := by
    obtain ⟨⟨front, rest'⟩, split, same⟩ := Option.map_eq_some_iff.1 read
    cases same
    have length : front.length = 2 * 8 := length_of_split? split
    have group (i : Fin 8) : bigEndian 2 (UInt16.ofNat (ofBigEndian ((front.drop (2 * i)).take 2))).toNat =
        (front.drop (2 * i)).take 2 := by
      have pair : ((front.drop (2 * i)).take 2).length = 2 := by
        rw [List.length_take, List.length_drop, length]
        omega
      rw [UInt16.toNat_ofNat_of_lt' (ofBigEndian_lt pair)]
      exact bigEndian_ofBigEndian pair
    have groups : ipv6.encode ⟨Vector.ofFn fun i => UInt16.ofNat (ofBigEndian ((front.drop (2 * i)).take 2))⟩ =
        front := by
      simp only [ipv6, Vector.toList_ofFn, List.flatMap, List.map_ofFn, Function.comp_def, group]
      exact flatten_pieces 2 length
    rw [append_of_split? split, groups]

theorem canonical_socketAddress : socketAddress.Canonical where
  eq_append {bytes rest a} read := by
    obtain ⟨⟨n, rest'⟩, index, more⟩ := Option.bind_eq_some_iff.1 read
    rw [(canonical_number 4).eq_append index]
    match n with
    | 0 =>
      obtain ⟨⟨⟨ip, socket⟩, rest''⟩, fields, same⟩ := Option.map_eq_some_iff.1 more
      cases same
      rw [(canonical_ipv4.pair canonical_half).eq_append fields, encode_v4, List.append_assoc]
    | 1 =>
      obtain ⟨⟨⟨ip, socket⟩, rest''⟩, fields, same⟩ := Option.map_eq_some_iff.1 more
      cases same
      rw [(canonical_ipv6.pair canonical_half).eq_append fields, encode_v6, List.append_assoc]
    | _ + 2 => cases more

theorem canonical_nodeDetails : nodeDetails.Canonical := by
  have fields := canonical_nodeId.pair (canonical_text.pair canonical_socketAddress)
  have faithful := exact_nodeId.pair (faithful_text.pair faithful_socketAddress)
  exact fields.via faithful fun _ _ _ made => by cases made; rfl

theorem canonical_nodeRow : nodeRow.Canonical := by
  have fields := canonical_nodeDetails.pair (canonical_variant (by decide) : operationalState.Canonical)
  have faithful := faithful_nodeDetails.pair exact_operationalState
  exact fields.via faithful fun _ _ _ made => by cases made; rfl

theorem canonical_pipeline : pipeline.Canonical := by
  have fields := canonical_pipelineId.pair <| (canonical_nodeId.list exact_nodeId).pair
    (canonical_variant (by decide) : pipelineState.Canonical)
  have exact := exact_pipelineId.pair <| (faithful_list exact_nodeId).pair exact_pipelineState
  exact fields.via exact fun _ _ _ made => by cases made; rfl

end ClusterCatalog.Codec
