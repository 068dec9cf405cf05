import GeminiWorker.Spec.UploadBase64

/-!
# What a base64 upload declares and what it sends

The hash and the body are made of chunks that are decoded on their own, the length of the end
of the text.

* `readToEnd_new`: the reader delivers what the hash is taken of, whatever the buffers.
* `decodeChunks_eq`, `decode_eq_none_of_inner`: the chunks make up the decoded text unless
  one before the last is padded.
* `uploadMatches_iff`: the declared length and hash are those of the body exactly then.
* `upload_of_decode`: text that is base64 as a whole is declared, hashed and sent as what it decodes to.
-/

namespace GeminiWorker

open Base64 (decode pad)

/-- What the chunks from an offset on decode to. -/
def decodeChunks (data : List UInt8) (offset : ℕ) : Option (List UInt8) := hashChunks data offset []

/-! ## Chunks -/

theorem decodeBase64Chunk_eq (chunk : List UInt8) : decodeBase64Chunk chunk = decode chunk := by
  unfold decodeBase64Chunk decodeSlice
  rcases hdecode : decode chunk with _ | decoded
  · rfl
  · obtain ⟨-, hlength⟩ := Base64.length_decode hdecode
    rw [Option.filter_some, if_pos]
    rw [decide_eq_true_eq]
    omega

theorem hashChunks_of_le {data : List UInt8} {offset : ℕ} (h : data.length ≤ offset) (hashed : List UInt8) :
    hashChunks data offset hashed = some hashed := by
  rw [hashChunks, if_neg (Nat.not_lt.mpr h)]

theorem hashChunks_of_lt {data : List UInt8} {offset : ℕ} (h : offset < data.length) (hashed : List UInt8) :
    hashChunks data offset hashed =
      (decode (slice data offset (nextBase64ChunkEnd data.length offset))).bind fun decoded =>
        hashChunks data (nextBase64ChunkEnd data.length offset) (hashed ++ decoded) := by
  rw [hashChunks, if_pos h]
  dsimp only
  rw [decodeBase64Chunk_eq]

/-- What was hashed before stays in front. -/
theorem hashChunks_eq (data : List UInt8) (offset : ℕ) (hashed : List UInt8) :
    hashChunks data offset hashed = (decodeChunks data offset).map fun bytes => hashed ++ bytes := by
  induction hn : data.length - offset using Nat.strong_induction_on generalizing offset hashed with
  | _ n ih =>
    unfold decodeChunks
    by_cases h : offset < data.length
    · have hlt := lt_nextBase64ChunkEnd h
      rw [hashChunks_of_lt h, hashChunks_of_lt h]
      rcases decode (slice data offset (nextBase64ChunkEnd data.length offset)) with _ | decoded
      · rfl
      · rw [Option.bind_some, Option.bind_some, ih _ (by omega) _ _ rfl, ih _ (by omega) _ (_ ++ _) rfl,
          Option.map_map]
        rcases decodeChunks data (nextBase64ChunkEnd data.length offset) with _ | bytes
        · rfl
        · simp
    · rw [hashChunks_of_le (Nat.not_lt.mp h), hashChunks_of_le (Nat.not_lt.mp h), Option.map_some,
        List.append_nil]

theorem decodeChunks_of_le {data : List UInt8} {offset : ℕ} (h : data.length ≤ offset) :
    decodeChunks data offset = some [] := hashChunks_of_le h []

theorem decodeChunks_of_lt {data : List UInt8} {offset : ℕ} (h : offset < data.length) :
    decodeChunks data offset =
      (decode (slice data offset (nextBase64ChunkEnd data.length offset))).bind fun decoded =>
        (decodeChunks data (nextBase64ChunkEnd data.length offset)).map fun bytes => decoded ++ bytes := by
  unfold decodeChunks
  rw [hashChunks_of_lt h]
  congr 1
  funext decoded
  rw [hashChunks_eq, List.nil_append]
  rfl

/-! ## The reader -/

namespace Base64DecodedReader

/-- What a reader is still to deliver. -/
def rest (reader : Base64DecodedReader) : Option (List UInt8) :=
  (decodeChunks reader.data reader.offset).map fun bytes => reader.pending.drop reader.pendingOffset ++ bytes

/-- A reader between two reads: what is consumed of the pending bytes is forgotten at their end. -/
def Ready (reader : Base64DecodedReader) : Prop :=
  reader.pendingOffset < reader.pending.length ∨ reader.pending = [] ∧ reader.pendingOffset = 0

/-- A read into a buffer that has room delivers the next bytes, and none only at the end. -/
theorem pollRead_spec {reader : Base64DecodedReader} {remaining : ℕ} {bytes : List UInt8}
    (hready : reader.Ready) (hrest : reader.rest = some bytes) :
    ∃ piece after, reader.pollRead remaining = some (piece, after) ∧ after.Ready ∧
      ∃ more, after.rest = some more ∧ bytes = piece ++ more ∧
        (0 < remaining → piece = [] → bytes = []) := by
  induction reader, remaining using pollRead.induct generalizing bytes with
  | case1 reader =>
    rw [pollRead, if_pos rfl]
    exact ⟨[], reader, rfl, hready, bytes, hrest, rfl, fun h => absurd h (Nat.lt_irrefl 0)⟩
  | case2 =>
    rename_i reader remaining hremaining hpending available toCopy hleft
    let copied := (reader.pending.drop reader.pendingOffset).take toCopy
    rw [pollRead, if_neg hremaining, if_pos hpending]
    refine ⟨copied, { reader with pendingOffset := reader.pendingOffset + toCopy }, ?_, Or.inl hleft, ?_⟩
    · dsimp only
      rw [if_pos hleft]
    · obtain ⟨chunks, hchunks, rfl⟩ := Option.map_eq_some_iff.mp hrest
      refine ⟨reader.pending.drop (reader.pendingOffset + toCopy) ++ chunks, ?_, ?_, fun _ hcopied => ?_⟩
      · rw [rest, hchunks, Option.map_some]
      · rw [← List.append_assoc, ← List.drop_drop, List.take_append_drop]
      · have hlength : copied.length = 0 := by rw [hcopied]; rfl
        rw [List.length_take, List.length_drop] at hlength
        omega
  | case3 =>
    rename_i reader remaining hremaining hpending available toCopy hleft ih
    let copied := (reader.pending.drop reader.pendingOffset).take toCopy
    obtain ⟨chunks, hchunks, rfl⟩ := Option.map_eq_some_iff.mp hrest
    have hrest' : ({ reader with pending := [], pendingOffset := 0 } : Base64DecodedReader).rest =
        some chunks := by
      rw [rest, hchunks]
      rfl
    obtain ⟨piece, after, hread, hafter, more, hmore, hchunksEq, -⟩ := ih (Or.inr ⟨rfl, rfl⟩) hrest'
    refine ⟨copied ++ piece, after, ?_, hafter, more, hmore, ?_, fun _ hcopied => ?_⟩
    · rw [pollRead, if_neg hremaining, if_pos hpending]
      dsimp only
      rw [if_neg hleft, hread]
      rfl
    · -- all of the pending bytes are copied
      have hall : copied = reader.pending.drop reader.pendingOffset := by
        apply List.take_of_length_le
        rw [List.length_drop]
        omega
      rw [hall, hchunksEq, List.append_assoc]
    · have hlength : copied.length = 0 := by
        rw [(List.append_eq_nil_iff.mp hcopied).1]
        rfl
      rw [List.length_take, List.length_drop] at hlength
      omega
  | case4 reader remaining hremaining hpending hend =>
    rw [pollRead, if_neg hremaining, if_neg hpending, if_pos hend]
    refine ⟨[], reader, rfl, hready, bytes, hrest, rfl, fun _ _ => ?_⟩
    rw [rest, decodeChunks_of_le hend, Option.map_some, List.append_nil] at hrest
    rw [← Option.some.inj hrest]
    exact List.drop_of_length_le (Nat.not_lt.mp hpending)
  | case5 =>
    rename_i reader remaining hremaining hpending hend stop ih
    obtain ⟨hempty, hzero⟩ : reader.pending = [] ∧ reader.pendingOffset = 0 :=
      hready.resolve_left hpending
    rw [rest, decodeChunks_of_lt (Nat.not_le.mp hend), hempty] at hrest
    obtain ⟨chunks, hchunks, hbytes⟩ := Option.map_eq_some_iff.mp hrest
    obtain ⟨decoded, hdecoded, hmore⟩ := Option.bind_eq_some_iff.mp hchunks
    obtain ⟨others, hothers, rfl⟩ := Option.map_eq_some_iff.mp hmore
    rw [List.drop_nil, List.nil_append] at hbytes
    have hrest' : ({ reader with pending := decoded, offset := stop } : Base64DecodedReader).rest =
        some bytes := by
      rw [rest, hothers, hzero, Option.map_some, List.drop_zero, hbytes]
    have hready' : ({ reader with pending := decoded, offset := stop } : Base64DecodedReader).Ready := by
      rcases decoded with _ | ⟨b, decoded⟩
      · exact Or.inr ⟨rfl, hzero⟩
      · refine Or.inl ?_
        show reader.pendingOffset < _
        rw [hzero]
        exact Nat.zero_lt_succ _
    obtain ⟨piece, after, hread, hafter⟩ := ih decoded hready' hrest'
    refine ⟨piece, after, ?_, hafter⟩
    rw [pollRead, if_neg hremaining, if_neg hpending, if_neg hend]
    dsimp only
    rw [decodeBase64Chunk_eq, hdecoded]
    exact hread

/-- A reader is read to its end with any buffers that have room. -/
theorem readToEnd_spec {reader : Base64DecodedReader} {bytes : List UInt8} (hready : reader.Ready)
    (hrest : reader.rest = some bytes) {capacity : ℕ → ℕ} (hcapacity : ∀ i, 0 < capacity i) :
    ∃ reads, readToEnd capacity reads reader = some (some bytes) := by
  induction hn : bytes.length using Nat.strong_induction_on generalizing reader bytes capacity with
  | _ n ih =>
    obtain ⟨piece, after, hread, hafter, more, hmore, hbytes, hempty⟩ :=
      @pollRead_spec reader (capacity 0) bytes hready hrest
    rcases piece with _ | ⟨b, piece⟩
    · refine ⟨1, ?_⟩
      rw [readToEnd, hread, hempty (hcapacity 0) rfl]
    · have hlength : bytes.length = (b :: piece).length + more.length := by
        rw [hbytes, List.length_append]
      obtain ⟨reads, hreads⟩ := ih more.length (by simp only [List.length_cons] at hlength; omega) hafter hmore
        (fun i => hcapacity (i + 1)) rfl
      refine ⟨reads + 1, ?_⟩
      rw [readToEnd, hread]
      dsimp only
      rw [hreads, hbytes]
      rfl

/-- A new reader delivers what the chunks decode to. -/
theorem readToEnd_new {dataBase64 : String} {bytes : List UInt8}
    (h : decodeChunks (Text.bytes dataBase64) 0 = some bytes) {capacity : ℕ → ℕ}
    (hcapacity : ∀ i, 0 < capacity i) :
    ∃ reads, readToEnd capacity reads (new dataBase64) = some (some bytes) := by
  refine readToEnd_spec (Or.inr ⟨rfl, rfl⟩) ?_ hcapacity
  rw [rest, new, h]
  rfl

end Base64DecodedReader

/-! ## The chunks and the whole -/

/-- A chunk before the last one ends with padding. -/
def InnerPadding (data : List UInt8) : Prop :=
  ∃ k, 0 < k ∧ k * base64StreamInputChars < data.length ∧
    data[k * base64StreamInputChars - 1]? = some pad

/-- An inner chunk, what follows it, and its last character. -/
theorem inner_chunk {data : List UInt8} {offset : ℕ}
    (hinner : offset + base64StreamInputChars < data.length) :
    let chunk := slice data offset (offset + base64StreamInputChars)
    nextBase64ChunkEnd data.length offset = offset + base64StreamInputChars ∧
      data.drop offset = chunk ++ data.drop (offset + base64StreamInputChars) ∧
      data.drop (offset + base64StreamInputChars) ≠ [] ∧ chunk.length % 4 = 0 ∧
      chunk.getLast? = data[offset + base64StreamInputChars - 1]? := by
  intro chunk
  have hchars : base64StreamInputChars = 32768 := rfl
  have hchunk : chunk = (data.drop offset).take base64StreamInputChars := by
    show (data.drop offset).take _ = _
    rw [Nat.add_sub_cancel_left]
  have hlength : chunk.length = base64StreamInputChars := by
    rw [hchunk, List.length_take, List.length_drop]
    omega
  refine ⟨?_, ?_, ?_, ?_, ?_⟩
  · unfold nextBase64ChunkEnd
    exact if_neg (by omega)
  · rw [hchunk, ← List.drop_drop, List.take_append_drop]
  · intro hnil
    have hle := List.drop_eq_nil_iff.mp hnil
    omega
  · rw [hlength, hchars]
  · have hindex : offset + (base64StreamInputChars - 1) = offset + base64StreamInputChars - 1 := by omega
    rw [List.getLast?_eq_getElem?, hlength, hchunk, List.getElem?_take_of_lt (by omega), List.getElem?_drop, hindex]

/-- The last chunk is what is left. -/
theorem last_chunk {data : List UInt8} {offset : ℕ} (hlt : offset < data.length)
    (hlast : data.length ≤ offset + base64StreamInputChars) :
    nextBase64ChunkEnd data.length offset = data.length ∧ slice data offset data.length = data.drop offset := by
  constructor
  · unfold nextBase64ChunkEnd
    exact if_pos (by omega)
  · unfold slice
    apply List.take_of_length_le
    rw [List.length_drop]

/-- Unpadded chunks decode to what the text decodes to. -/
theorem decodeChunks_eq {data : List UInt8} (k : ℕ)
    (hinner : ∀ j, k < j → j * base64StreamInputChars < data.length →
      data[j * base64StreamInputChars - 1]? ≠ some pad) :
    decodeChunks data (k * base64StreamInputChars) = decode (data.drop (k * base64StreamInputChars)) := by
  induction hn : data.length - k * base64StreamInputChars using Nat.strong_induction_on generalizing k with
  | _ n ih =>
    have hsucc : (k + 1) * base64StreamInputChars = k * base64StreamInputChars + base64StreamInputChars :=
      Nat.succ_mul ..
    have hchars : base64StreamInputChars = 32768 := rfl
    by_cases hlt : k * base64StreamInputChars < data.length
    · rw [decodeChunks_of_lt hlt]
      by_cases hlast : data.length ≤ k * base64StreamInputChars + base64StreamInputChars
      · -- the last chunk may be padded
        obtain ⟨hend, hslice⟩ := last_chunk hlt hlast
        rw [hend, hslice, decodeChunks_of_le (Nat.le_refl _)]
        rcases decode (data.drop (k * base64StreamInputChars)) with _ | bytes
        · rfl
        · simp
      · obtain ⟨hend, hdrop, hrest, hlength, hgetLast⟩ := inner_chunk (Nat.not_le.mp hlast)
        have hpad := hinner (k + 1) (Nat.lt_succ_self k) (by omega)
        rw [hsucc, ← hgetLast] at hpad
        have hih := ih _ (by omega) (k + 1) (fun j hj => hinner j (by omega)) rfl
        rw [hsucc] at hih
        rw [hend, hih, hdrop, Base64.decode_append hlength hrest hpad]
        rcases decode (slice data (k * base64StreamInputChars)
          (k * base64StreamInputChars + base64StreamInputChars)) with _ | decoded
        · rfl
        · rw [Option.bind_some, Option.bind_some]
          rcases decode (data.drop (k * base64StreamInputChars + base64StreamInputChars)) with _ | more <;> rfl
    · rw [decodeChunks_of_le (Nat.not_lt.mp hlt), List.drop_of_length_le (Nat.not_lt.mp hlt)]
      rfl

/-- The text is not accepted if a chunk before the last one is padded. -/
theorem decode_eq_none_of_inner {data : List UInt8} {j : ℕ} (k : ℕ) (hj : k < j)
    (hlt : j * base64StreamInputChars < data.length)
    (hpad : data[j * base64StreamInputChars - 1]? = some pad) :
    decode (data.drop (k * base64StreamInputChars)) = none := by
  induction hn : j - k using Nat.strong_induction_on generalizing k with
  | _ n ih =>
    have hsucc : (k + 1) * base64StreamInputChars = k * base64StreamInputChars + base64StreamInputChars :=
      Nat.succ_mul ..
    have hle : (k + 1) * base64StreamInputChars ≤ j * base64StreamInputChars := Nat.mul_le_mul_right _ hj
    obtain ⟨-, hdrop, hrest, hlength, hgetLast⟩ :=
      @inner_chunk data (k * base64StreamInputChars) (by omega)
    rw [hdrop]
    by_cases hchunk : (slice data (k * base64StreamInputChars)
        (k * base64StreamInputChars + base64StreamInputChars)).getLast? = some pad
    · exact Base64.decode_padded_append hlength hrest hchunk
    · have hnext : k + 1 < j := by
        rcases Nat.lt_or_ge (k + 1) j with h | h
        · exact h
        · -- otherwise this chunk is the padded one
          have hjk : j = k + 1 := by omega
          rw [hjk, hsucc, ← hgetLast] at hpad
          exact absurd hpad hchunk
      have hnone := ih _ (by omega) (k + 1) hnext rfl
      rw [hsucc] at hnone
      rw [Base64.decode_append hlength hrest hchunk, hnone]
      rcases decode (slice data (k * base64StreamInputChars)
        (k * base64StreamInputChars + base64StreamInputChars)) with _ | decoded <;> rfl

/-! ## The upload -/

/-- What the checks before an upload promise of it: its body is read to the end with any buffers,
is as long as declared and has the declared hash, and the text is base64. -/
def UploadMatches (sha256 : List UInt8 → List UInt8) (dataBase64 : String) (contentLength : ℕ)
    (payloadHash : String) : Prop :=
  (∀ capacity : ℕ → ℕ, (∀ i, 0 < capacity i) → ∃ reads bytes,
    Base64DecodedReader.readToEnd capacity reads (.new dataBase64) = some (some bytes) ∧
      bytes.length = contentLength ∧ Hex.encode (sha256 bytes) = payloadHash) ∧
  (decode (Text.bytes dataBase64)).isSome

theorem decodedBase64Len_eq {dataBase64 : String} {contentLength : ℕ}
    (h : decodedBase64Len dataBase64 = some contentLength) :
    contentLength = (Text.bytes dataBase64).length / 4 * 3 - Base64.padding (Text.bytes dataBase64) := by
  unfold decodedBase64Len at h
  dsimp only at h
  split at h
  · rename_i hnil
    rw [hnil, ← Option.some.inj h]
    rfl
  · split at h
    · cases h
    · rw [← Option.some.inj h]
      rfl

/-- Text that is accepted as a whole has no padding within. -/
theorem not_innerPadding_of_decode {data bytes : List UInt8} (h : decode data = some bytes) : ¬ InnerPadding data := by
  rintro ⟨k, hk, hlt, hpad⟩
  have hnone := decode_eq_none_of_inner 0 hk hlt hpad
  rw [Nat.zero_mul, List.drop_zero, h] at hnone
  cases hnone

/-- The chunks of text that is accepted as a whole make up what it decodes to. -/
theorem decodeChunks_of_decode {data bytes : List UInt8} (h : decode data = some bytes) :
    decodeChunks data 0 = some bytes := by
  have hinner : ∀ j, 0 < j → j * base64StreamInputChars < data.length →
      data[j * base64StreamInputChars - 1]? ≠ some pad :=
    fun j hj hlt hpad => not_innerPadding_of_decode h ⟨j, hj, hlt, hpad⟩
  have hchunks := decodeChunks_eq 0 hinner
  rw [Nat.zero_mul, List.drop_zero] at hchunks
  rw [hchunks, h]

theorem decodedBase64Len_of_decode {dataBase64 : String} {bytes : List UInt8}
    (h : decode (Text.bytes dataBase64) = some bytes) : decodedBase64Len dataBase64 = some bytes.length := by
  obtain ⟨hfours, hsize⟩ := Base64.length_decode h
  have hlength : (decodedBase64Len dataBase64).isSome = true := by
    unfold decodedBase64Len
    dsimp only
    split
    · rfl
    · rw [if_neg (fun hne => hne hfours)]
      rfl
  obtain ⟨contentLength, hlen⟩ := Option.isSome_iff_exists.mp hlength
  have heq := decodedBase64Len_eq hlen
  rw [hlen]
  congr 1
  omega

/-- **The declared length and hash are those of the body exactly if no chunk before the last one
is padded.** -/
theorem uploadMatches_iff {sha256 : List UInt8 → List UInt8} {dataBase64 : String} {contentLength : ℕ}
    {payloadHash : String} (hlength : decodedBase64Len dataBase64 = some contentLength)
    (hhash : sha256HexBase64 sha256 dataBase64 = some payloadHash) :
    UploadMatches sha256 dataBase64 contentLength payloadHash ↔ ¬ InnerPadding (Text.bytes dataBase64) := by
  constructor
  · rintro ⟨-, hdecode⟩
    obtain ⟨bytes, hbytes⟩ := Option.isSome_iff_exists.mp hdecode
    exact not_innerPadding_of_decode hbytes
  · intro hinner
    -- what is hashed is read chunk by chunk, as what is sent
    obtain ⟨bytes, hchunks, hpayload⟩ := Option.map_eq_some_iff.mp hhash
    have hdecode := @decodeChunks_eq (Text.bytes dataBase64) 0 fun j hj hlt hpad => hinner ⟨j, hj, hlt, hpad⟩
    rw [Nat.zero_mul, List.drop_zero] at hdecode
    have hbytes : decode (Text.bytes dataBase64) = some bytes := hdecode.symm.trans hchunks
    obtain ⟨-, hsize⟩ := Base64.length_decode hbytes
    constructor
    · intro capacity hcapacity
      obtain ⟨reads, hreads⟩ := Base64DecodedReader.readToEnd_new hchunks hcapacity
      refine ⟨reads, bytes, hreads, ?_, hpayload⟩
      rw [decodedBase64Len_eq hlength]
      omega
    · rw [hbytes]
      rfl

/-- An image whose text is longer than a chunk. -/
def twoChunks : List UInt8 := List.replicate 24579 0

theorem uploadMatches_example : base64StreamInputChars < (Text.bytes (Base64.encodeText twoChunks)).length ∧
    UploadMatches id (Base64.encodeText twoChunks) 24579 (Hex.encode twoChunks) := by
  have hlength : twoChunks.length = 24579 := List.length_replicate
  have hdecode : decode (Text.bytes (Base64.encodeText twoChunks)) = some twoChunks := by
    rw [Base64.bytes_encodeText, Base64.decode_encode]
  have hhash : sha256HexBase64 id (Base64.encodeText twoChunks) = some (Hex.encode twoChunks) := by
    have hchunks : hashChunks (Text.bytes (Base64.encodeText twoChunks)) 0 [] = some twoChunks :=
      decodeChunks_of_decode hdecode
    rw [sha256HexBase64, hchunks]
    rfl
  have hdeclared : decodedBase64Len (Base64.encodeText twoChunks) = some 24579 := by
    rw [decodedBase64Len_of_decode hdecode, hlength]
  refine ⟨?_, (uploadMatches_iff hdeclared hhash).mpr (not_innerPadding_of_decode hdecode)⟩
  rw [Base64.bytes_encodeText, Base64.length_encode, hlength]
  decide

/-! ## Text that is base64 as a whole -/

/-- **Text that is base64 as a whole is read to its end with any buffers that have room**, as what it decodes to,
and this is what the declared length and hash are of. -/
theorem upload_of_decode (sha256 : List UInt8 → List UInt8) {dataBase64 : String} {bytes : List UInt8}
    (h : decode (Text.bytes dataBase64) = some bytes) :
    (∀ capacity : ℕ → ℕ, (∀ i, 0 < capacity i) →
      ∃ reads, Base64DecodedReader.readToEnd capacity reads (.new dataBase64) = some (some bytes)) ∧
    decodedBase64Len dataBase64 = some bytes.length ∧
    sha256HexBase64 sha256 dataBase64 = some (Hex.encode (sha256 bytes)) := by
  have hchunks := decodeChunks_of_decode h
  refine ⟨fun capacity hcapacity => Base64DecodedReader.readToEnd_new hchunks hcapacity,
    decodedBase64Len_of_decode h, ?_⟩
  rw [sha256HexBase64, show hashChunks _ 0 [] = _ from hchunks]
  rfl

theorem upload_of_decode_example :
    (∀ capacity : ℕ → ℕ, (∀ i, 0 < capacity i) →
      ∃ reads, Base64DecodedReader.readToEnd capacity reads (.new "Zm9vYg==") = some (some [102, 111, 111, 98])) ∧
    decodedBase64Len "Zm9vYg==" = some 4 ∧ sha256HexBase64 id "Zm9vYg==" = some (Hex.encode [102, 111, 111, 98]) :=
  upload_of_decode id (by decide +kernel)

/-! ## A padded first chunk -/

/-- Groups of `A` decode to zeros. -/
theorem decode_zeros (k : ℕ) {rest bytes : List UInt8} (hrest : rest ≠ []) (h : decode rest = some bytes) :
    decode (List.replicate (4 * k) 65 ++ rest) = some (List.replicate (3 * k) 0 ++ bytes) := by
  induction k with
  | zero => exact h
  | succ k ih =>
    have hne : List.replicate (4 * k) 65 ++ rest ≠ [] := List.append_ne_nil_of_right_ne_nil _ hrest
    have hgroup : Base64.decodeGroup 65 65 65 65 = some [0, 0, 0] := by decide
    show decode (65 :: 65 :: 65 :: 65 :: (List.replicate (4 * k) 65 ++ rest)) = _
    rw [Base64.decode_cons hne, ih, hgroup]
    rfl

/-- Groups of `A`, one that is padded, and one more. -/
def paddedWithin (k : ℕ) : String := String.ofList (List.replicate (4 * k) 'A' ++ "AA==AAAA".toList)

theorem bytes_replicate (n : ℕ) :
    Text.bytes (String.ofList (List.replicate n 'A')) = List.replicate n 65 := by
  rw [Text.bytes, String.toList_ofList, List.flatMap_replicate]
  induction n with
  | zero => rfl
  | succ n ih =>
    rw [List.replicate_succ, List.flatten_cons, ih]
    rfl

theorem bytes_paddedWithin (k : ℕ) : Text.bytes (paddedWithin k) =
    (List.replicate (4 * k) 65 ++ [65, 65, pad, pad]) ++ [65, 65, 65, 65] := by
  have hend : Text.bytes (String.ofList "AA==AAAA".toList) = [65, 65, pad, pad] ++ [65, 65, 65, 65] := by
    decide
  rw [paddedWithin, Text.bytes_ofList_append, bytes_replicate, hend, List.append_assoc]

/-- The declared length counts the padding within as data. -/
theorem decodedBase64Len_paddedWithin (k : ℕ) :
    decodedBase64Len (paddedWithin k) = some (3 * (k + 2)) := by
  have hpadding := Base64.padding_last (List.replicate (4 * k) 65 ++ [65, 65, pad, pad]) 65 65 65 65
  rw [← bytes_paddedWithin, if_pos (by decide)] at hpadding
  have hlength : (Text.bytes (paddedWithin k)).length = 4 * (k + 2) := by
    rw [bytes_paddedWithin]
    simp only [List.length_append, List.length_replicate, List.length_cons, List.length_nil]
    omega
  have hne : Text.bytes (paddedWithin k) ≠ [] := fun h => by
    rw [h] at hlength
    simp at hlength
  have hlen : decodedBase64Len (paddedWithin k) =
      some ((Text.bytes (paddedWithin k)).length / 4 * 3 - Base64.padding (Text.bytes (paddedWithin k))) := by
    unfold decodedBase64Len
    dsimp only
    rw [if_neg hne, if_neg (by omega)]
    rfl
  have hcount : 4 * (k + 2) / 4 * 3 - 0 = 3 * (k + 2) := by omega
  rw [hlen, hpadding, hlength, hcount]

/-- If the padded group ends the first chunk, both chunks are decoded. -/
theorem decodeChunks_paddedWithin {k : ℕ} (hk : 4 * k + 4 = base64StreamInputChars) :
    decodeChunks (Text.bytes (paddedWithin k)) 0 = some ((List.replicate (3 * k) 0 ++ [0]) ++ [0, 0, 0]) := by
  have hfirst : (List.replicate (4 * k) 65 ++ [65, 65, pad, pad]).length = base64StreamInputChars := by
    rw [List.length_append, List.length_replicate]
    exact hk
  have hlength : (Text.bytes (paddedWithin k)).length = base64StreamInputChars + 4 := by
    rw [bytes_paddedWithin, List.length_append, hfirst]
    rfl
  have hchunk : slice (Text.bytes (paddedWithin k)) 0 base64StreamInputChars =
      List.replicate (4 * k) 65 ++ [65, 65, pad, pad] := by
    rw [slice, bytes_paddedWithin, List.drop_zero, Nat.sub_zero, ← hfirst, List.take_left]
  have hrest : (Text.bytes (paddedWithin k)).drop base64StreamInputChars = [65, 65, 65, 65] := by
    rw [bytes_paddedWithin, ← hfirst, List.drop_left]
  have hinner := @inner_chunk (Text.bytes (paddedWithin k)) 0 (by omega)
  dsimp only at hinner
  rw [Nat.zero_add] at hinner
  obtain ⟨hend, hlast⟩ := @last_chunk (Text.bytes (paddedWithin k)) base64StreamInputChars (by omega) (by omega)
  rw [decodeChunks_of_lt (by omega), hinner.1, hchunk, decodeChunks_of_lt (by omega), hend, hlast, hrest,
    decodeChunks_of_le (Nat.le_refl _), decode_zeros k (by simp) (show decode [65, 65, pad, pad] = some [0] by decide)]
  rfl

/-- A first chunk that ends in padding is hashed and sent, but not counted. -/
theorem not_uploadMatches_paddedWithin {k : ℕ} (hk : 4 * k + 4 = base64StreamInputChars) {contentLength : ℕ}
    {payloadHash : String} (hlen : decodedBase64Len (paddedWithin k) = some contentLength)
    (hhash : sha256HexBase64 id (paddedWithin k) = some payloadHash) :
    ¬ UploadMatches id (paddedWithin k) contentLength payloadHash := by
  intro hmatches
  have hchunks : hashChunks (Text.bytes (paddedWithin k)) 0 [] = some ((List.replicate (3 * k) 0 ++ [0]) ++ [0, 0, 0]) :=
    decodeChunks_paddedWithin hk
  rw [sha256HexBase64, hchunks, Option.map_some] at hhash
  obtain ⟨-, bytes, -, hlength, hbytes⟩ := hmatches.1 (fun _ => 1) fun _ => Nat.one_pos
  -- the hash determines the body, which is two bytes short
  have hbody : bytes = (List.replicate (3 * k) 0 ++ [0]) ++ [0, 0, 0] :=
    Hex.encode_injective (hbytes.trans (Option.some.inj hhash).symm)
  have hcount : 3 * (k + 2) = contentLength := Option.some.inj ((decodedBase64Len_paddedWithin k).symm.trans hlen)
  rw [hbody] at hlength
  simp only [List.length_append, List.length_replicate, List.length_cons, List.length_nil] at hlength
  omega

theorem paddedChunk_mismatch : ¬ ∀ (sha256 : List UInt8 → List UInt8) (dataBase64 : String)
    (contentLength : ℕ) (payloadHash : String), decodedBase64Len dataBase64 = some contentLength →
      sha256HexBase64 sha256 dataBase64 = some payloadHash →
      UploadMatches sha256 dataBase64 contentLength payloadHash := by
  intro hall
  have hk : 4 * 8191 + 4 = base64StreamInputChars := rfl
  have hlen := decodedBase64Len_paddedWithin 8191
  obtain ⟨payloadHash, hhash⟩ : ∃ payloadHash, sha256HexBase64 id (paddedWithin 8191) = some payloadHash := by
    have hchunks : hashChunks (Text.bytes (paddedWithin 8191)) 0 [] = some _ := decodeChunks_paddedWithin hk
    rw [sha256HexBase64, hchunks]
    exact ⟨_, rfl⟩
  exact not_uploadMatches_paddedWithin hk hlen hhash (hall id _ _ _ hlen hhash)

end GeminiWorker
