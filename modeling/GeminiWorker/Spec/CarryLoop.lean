import GeminiWorker.Lib.Buffer
import GeminiWorker.Spec.RequestEncode

/-!
# The carry loop over its buffers

The loop of `write_blob_as_base64` as it works on its two buffers. `writeReads` has the same
loop with the bytes that are carried over instead of the buffer that holds them.
-/

namespace GeminiWorker

/-- What has been written, call by call of `write_counted`, and `content_length`. -/
structure PieceOutput where
  pieces : List (List UInt8)
  contentLength : ℕ

def PieceOutput.writeCounted (out : PieceOutput) (bytes : List UInt8) : PieceOutput :=
  ⟨out.pieces ++ [bytes], out.contentLength + bytes.length⟩

def PieceOutput.toOutput (out : PieceOutput) : Output := ⟨out.pieces.flatten, out.contentLength⟩

/-- A slice index out of bounds panics. -/
def inBounds {α : Type} : Option α → Except EncodeError α
  | some a => .ok a
  | none => .error .indexOutOfBounds

/-- `STANDARD.encode_slice(bytes, &mut output)`: how much was written, and the buffer after it. -/
def encodeInto {capacity : ℕ} (bytes : List UInt8) (output : Buffer UInt8 capacity) :
    Except EncodeError (ℕ × Buffer UInt8 capacity) :=
  match (Base64.encodeSlice bytes capacity).bind fun encoded =>
    (output.write 0 encoded).map fun output => (encoded.length, output) with
  | some result => .ok result
  | none => .error .outputSliceTooSmall

structure CarryLoop where
  input : Buffer UInt8 (chunkBytes + 2)
  output : Buffer UInt8 outputCapacity
  carryLen : ℕ
  out : PieceOutput

namespace CarryLoop

def start (contentLength : ℕ) : CarryLoop := ⟨.replicate _ 0, .replicate _ 0, 0, ⟨[], contentLength⟩⟩

/-- `&input[..len]` is encoded into `output`, and what was written there is written on. -/
def encodeFront (loop : CarryLoop) (len : ℕ) : Except EncodeError CarryLoop := do
  let bytes ← inBounds (loop.input.slice 0 len)
  let (written, output) ← encodeInto bytes loop.output
  let piece ← inBounds (output.slice 0 written)
  return { loop with output, out := loop.out.writeCounted piece }

/-- The turn of the loop for a read that has put some bytes behind the carried ones. -/
def takeRead (loop : CarryLoop) (read : List UInt8) : Except EncodeError CarryLoop := do
  let input ← inBounds (loop.input.write loop.carryLen read)
  let totalLen := loop.carryLen + read.length
  let completeLen := totalLen / 3 * 3
  if completeLen = 0 then return { loop with input, carryLen := totalLen }
  else
    let loop ← encodeFront { loop with input } completeLen
    let carryLen := totalLen - completeLen
    if carryLen > 0 then
      let input ← inBounds (loop.input.copyWithin completeLen totalLen 0)
      return { loop with input, carryLen }
    else return { loop with carryLen }

/-- The loop. A read that brings nothing ends it, as the end of the reads does. -/
def run : List (List UInt8) → CarryLoop → Except EncodeError CarryLoop
  | reads, loop => do
    let _ ← inBounds (loop.input.slice loop.carryLen (loop.carryLen + chunkBytes))
    match reads with
    | [] => return loop
    | read :: reads =>
      if read.length = 0 then return loop
      else
        let loop ← loop.takeRead read
        run reads loop

/-- What is still carried after the loop. -/
def finish (loop : CarryLoop) : Except EncodeError CarryLoop :=
  if loop.carryLen > 0 then loop.encodeFront loop.carryLen else .ok loop

end CarryLoop

/-- The loop and what comes after it, for a reader that delivers the reads. -/
def writeBufferedReads (reads : List (List UInt8)) (contentLength : ℕ) : Except EncodeError PieceOutput := do
  let loop ← CarryLoop.run reads (.start contentLength)
  let loop ← loop.finish
  return loop.out

/-- The byte of the character that pads base64 text. -/
def padding : UInt8 := '='.toNat.toUInt8

end GeminiWorker
