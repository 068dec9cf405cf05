import GeminiWorker.Lib.Base64Decode
import GeminiWorker.Lib.Hex

/-!
# The base64 upload to R2

The part of `upload.rs` that uploads base64 text without decoding it as a whole: the length
and the hash that the request declares, and the reader that its body is streamed from.
-/

namespace GeminiWorker

def base64StreamInputChars : ℕ := 32 * 1024

/-- `STANDARD.decode_slice` into a buffer of `capacity` bytes. -/
def decodeSlice (chunk : List UInt8) (capacity : ℕ) : Option (List UInt8) :=
  (Base64.decode chunk).filter fun decoded => decoded.length ≤ capacity

def decodeBase64Chunk (chunk : List UInt8) : Option (List UInt8) :=
  decodeSlice chunk (chunk.length / 4 * 3)

def nextBase64ChunkEnd (totalLen offset : ℕ) : ℕ :=
  let remaining := totalLen - offset
  if remaining ≤ base64StreamInputChars then totalLen else offset + base64StreamInputChars

/-- `decoded_base64_len`; `ends_with` looks at the bytes of the text. -/
def decodedBase64Len (dataBase64 : String) : Option ℕ :=
  let data := Text.bytes dataBase64
  if data = [] then some 0
  else if data.length % 4 ≠ 0 then none
  else
    let padding := if Text.bytes "==" <:+ data then 2 else if Text.bytes "=" <:+ data then 1 else 0
    some (data.length / 4 * 3 - padding)

theorem lt_nextBase64ChunkEnd {totalLen offset : ℕ} (h : offset < totalLen) :
    offset < nextBase64ChunkEnd totalLen offset := by
  unfold nextBase64ChunkEnd base64StreamInputChars
  dsimp only
  split <;> omega

/-- The bytes from `offset` to `stop`. -/
def slice (data : List UInt8) (offset stop : ℕ) : List UInt8 := (data.drop offset).take (stop - offset)

/-- The loop of `sha256_hex_base64`: what the hasher has been updated with. -/
def hashChunks (data : List UInt8) (offset : ℕ) (hashed : List UInt8) : Option (List UInt8) :=
  if offset < data.length then
    let stop := nextBase64ChunkEnd data.length offset
    (decodeBase64Chunk (slice data offset stop)).bind fun decoded =>
      hashChunks data stop (hashed ++ decoded)
  else some hashed
termination_by data.length - offset
decreasing_by
  rename_i h
  have hlt := lt_nextBase64ChunkEnd h
  omega

def sha256HexBase64 (sha256 : List UInt8 → List UInt8) (dataBase64 : String) : Option String :=
  (hashChunks (Text.bytes dataBase64) 0 []).map fun hashed => Hex.encode (sha256 hashed)

structure Base64DecodedReader where
  data : List UInt8
  offset : ℕ
  pending : List UInt8
  pendingOffset : ℕ

namespace Base64DecodedReader

def new (dataBase64 : String) : Base64DecodedReader := ⟨Text.bytes dataBase64, 0, [], 0⟩

/-- `poll_read` into a buffer with room for `remaining` bytes: what it puts there, or nothing if
it fails. -/
def pollRead (reader : Base64DecodedReader) (remaining : ℕ) : Option (List UInt8 × Base64DecodedReader) :=
  if remaining = 0 then some ([], reader)
  else if reader.pendingOffset < reader.pending.length then
    let available := reader.pending.length - reader.pendingOffset
    let toCopy := min available remaining
    let copied := (reader.pending.drop reader.pendingOffset).take toCopy
    if reader.pendingOffset + toCopy < reader.pending.length then
      some (copied, { reader with pendingOffset := reader.pendingOffset + toCopy })
    else
      (pollRead { reader with pending := [], pendingOffset := 0 } (remaining - toCopy)).map
        fun (more, reader) => (copied ++ more, reader)
  else if reader.offset ≥ reader.data.length then some ([], reader)
  else
    let stop := nextBase64ChunkEnd reader.data.length reader.offset
    (decodeBase64Chunk (slice reader.data reader.offset stop)).bind fun decoded =>
      pollRead { reader with pending := decoded, offset := stop } remaining
termination_by (reader.data.length - reader.offset, reader.pending.length - reader.pendingOffset)
decreasing_by
  · apply Prod.Lex.right
    simp only [List.length_nil]
    omega
  · apply Prod.Lex.left
    have hlt := @lt_nextBase64ChunkEnd reader.data.length reader.offset (by omega)
    omega

/-- Reads until a read brings nothing, with a buffer of a size of its own for each read:
nothing while it is still reading, and within that nothing if a read fails. -/
def readToEnd (capacity : ℕ → ℕ) : ℕ → Base64DecodedReader → Option (Option (List UInt8))
  | 0, _ => none
  | reads + 1, reader =>
    match reader.pollRead (capacity 0) with
    | none => some none
    | some ([], _) => some (some [])
    | some (piece, reader) =>
      (readToEnd (fun i => capacity (i + 1)) reads reader).map fun rest => rest.map fun bytes => piece ++ bytes

end Base64DecodedReader

end GeminiWorker
