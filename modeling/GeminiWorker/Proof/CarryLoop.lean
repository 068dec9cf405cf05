import GeminiWorker.Proof.RequestEncode
import GeminiWorker.Spec.CarryLoop

/-!
# The carry loop stays within its buffers

* `CarryLoop.run_ok`: the loop writes what `writeReads` writes, and no padding.
* `writeBufferedReads_spec`: what a reader delivers in short reads is written as the base64 of
  the whole.
-/

namespace GeminiWorker

/-! ## Padding -/

theorem padding_notMem_encode {bytes : List UInt8} (h : bytes.length % 3 = 0) : padding ∉ Base64.encode bytes := by
  have halphabet : ∀ n < 64, (Base64.alphabet n).toNat.toUInt8 ≠ padding := by decide +kernel
  unfold Base64.encode
  induction bytes using Base64.encodeChars.induct with
  | case1 a b c rest ih =>
    have hrest : rest.length % 3 = 0 := by
      simp only [List.length_cons] at h
      omega
    have ha := a.toNat_lt
    have hb := b.toNat_lt
    have hc := c.toNat_lt
    simp only [Base64.encodeChars, List.map_cons, List.mem_cons, not_or]
    refine ⟨(halphabet _ ?_).symm, (halphabet _ ?_).symm, (halphabet _ ?_).symm, (halphabet _ ?_).symm, ih hrest⟩
    all_goals omega
  | case2 a b => simp at h
  | case3 a => simp at h
  | case4 => exact List.not_mem_nil

namespace CarryLoop

/-- The bytes that are carried over. -/
def carry (loop : CarryLoop) : List UInt8 := loop.input.items.take loop.carryLen

/-! ## One turn -/

/-- The output has room for the text of the whole input. -/
theorem encodeInto_ok {bytes : List UInt8} (hbytes : bytes.length ≤ chunkBytes + 2)
    (output : Buffer UInt8 outputCapacity) :
    ∃ after, encodeInto bytes output = .ok ((Base64.encode bytes).length, after) ∧
      after.slice 0 (Base64.encode bytes).length = some (Base64.encode bytes) := by
  have hcapacity : outputCapacity = 65540 := rfl
  have hchunk : chunkBytes = 49152 := rfl
  have hlength := Base64.length_encode bytes
  have hroom : 0 + (Base64.encode bytes).length ≤ outputCapacity := by omega
  obtain ⟨after, hafter, htake⟩ := @Buffer.take_write _ _ output 0 (Base64.encode bytes) hroom
  refine ⟨after, ?_, ?_⟩
  · rw [encodeInto, encodeSlice_eq (by omega), Option.bind_some, hafter]
    rfl
  · rw [Nat.zero_add] at hroom htake
    rw [Buffer.slice_zero hroom, htake]
    rfl

theorem encodeFront_ok (loop : CarryLoop) {len : ℕ} (hlen : len ≤ chunkBytes + 2) :
    ∃ output, loop.encodeFront len = .ok ⟨loop.input, output, loop.carryLen,
      loop.out.writeCounted (Base64.encode (loop.input.items.take len))⟩ := by
  have hbytes : (loop.input.items.take len).length ≤ chunkBytes + 2 := by
    rw [List.length_take]
    omega
  obtain ⟨output, hencode, hslice⟩ := encodeInto_ok hbytes loop.output
  refine ⟨output, ?_⟩
  rw [encodeFront, Buffer.slice_zero hlen]
  simp only [inBounds, Except.ok_bind, hencode, hslice]
  rfl

/-- A turn encodes the whole groups of what is carried and read, and carries the rest over. -/
theorem takeRead_ok {loop : CarryLoop} {read : List UInt8} (hcarry : loop.carryLen ≤ 2)
    (hread : read.length ≤ chunkBytes) :
    let bytes := loop.carry ++ read
    let completeLen := bytes.length / 3 * 3
    ∃ after, loop.takeRead read = .ok after ∧ after.carryLen ≤ 2 ∧ after.carry = bytes.drop completeLen ∧
      after.out = if completeLen = 0 then loop.out
        else loop.out.writeCounted (Base64.encode (bytes.take completeLen)) := by
  intro bytes completeLen
  have hcarried : loop.carry.length = loop.carryLen := by
    rw [carry, List.length_take, loop.input.length_items]
    omega
  have hlength : bytes.length = loop.carryLen + read.length := by
    rw [List.length_append, hcarried]
  obtain ⟨input, hwrite, htake⟩ := @Buffer.take_write _ _ loop.input loop.carryLen read (by omega)
  have hbytes : input.items.take bytes.length = bytes := by
    rw [hlength]
    exact htake
  have hfront : ∀ len ≤ bytes.length, input.items.take len = bytes.take len := by
    intro len hlen
    rw [← hbytes, List.take_take, Nat.min_eq_left hlen]
  rw [takeRead, hwrite]
  simp only [inBounds, Except.ok_bind]
  rw [← hlength]
  by_cases hcomplete : completeLen = 0
  · -- fewer than three bytes so far: all of them are carried over
    rw [if_pos hcomplete, if_pos hcomplete]
    refine ⟨_, rfl, ?_, ?_, rfl⟩
    · dsimp only
      omega
    · rw [carry, hcomplete, List.drop_zero]
      exact hbytes
  · rw [if_neg hcomplete, if_neg hcomplete]
    obtain ⟨output, hencode⟩ := @encodeFront_ok { loop with input } completeLen (by omega)
    rw [hencode, hfront completeLen (Nat.div_mul_le_self _ _)]
    simp only [Except.ok_bind]
    by_cases hrest : bytes.length - completeLen > 0
    · rw [if_pos hrest]
      obtain ⟨moved, hmoved, hcopied⟩ := @Buffer.take_copyWithin _ _ input completeLen bytes.length (by omega) (by omega)
      rw [hmoved]
      refine ⟨_, rfl, ?_, ?_, rfl⟩
      · dsimp only
        omega
      · rw [carry]
        dsimp only
        rw [hcopied, hbytes]
    · rw [if_neg hrest]
      refine ⟨_, rfl, ?_, ?_, rfl⟩
      · dsimp only
        omega
      · have hnone : bytes.length - completeLen = 0 := by omega
        rw [carry, List.drop_of_length_le (by omega)]
        dsimp only
        rw [hnone, List.take_zero]

/-! ## The loop -/

theorem toOutput_writeCounted (out : PieceOutput) (bytes : List UInt8) :
    (out.writeCounted bytes).toOutput = out.toOutput.writeCounted bytes := by
  simp only [PieceOutput.toOutput, PieceOutput.writeCounted, Output.writeCounted, List.flatten_append,
    List.flatten_singleton]

/-- Before the next read there is room for a whole chunk. -/
theorem window_inBounds {loop : CarryLoop} (hcarry : loop.carryLen ≤ 2) :
    ∃ window, inBounds (loop.input.slice loop.carryLen (loop.carryLen + chunkBytes)) = .ok window := by
  rw [Buffer.slice_of_le (by omega) (by omega)]
  exact ⟨_, rfl⟩

/-- **The loop keeps at most two bytes and stays in bounds.** It leaves to write what `writeReads`
would write from where it started, and has written no padding. -/
theorem run_ok {reads : List (List UInt8)}
    (hreads : ∀ read ∈ reads, 1 ≤ read.length ∧ read.length ≤ chunkBytes) :
    ∀ {loop : CarryLoop}, loop.carryLen ≤ 2 →
      ∃ after, run reads loop = .ok after ∧ after.carryLen ≤ 2 ∧
        writeReads reads loop.carry loop.out.toOutput = writeReads [] after.carry after.out.toOutput ∧
        ∃ pieces, after.out.pieces = loop.out.pieces ++ pieces ∧ ∀ piece ∈ pieces, padding ∉ piece := by
  induction reads with
  | nil =>
    intro loop hcarry
    obtain ⟨window, hwindow⟩ := window_inBounds hcarry
    refine ⟨loop, ?_, hcarry, rfl, [], (List.append_nil _).symm, fun piece hpiece => absurd hpiece List.not_mem_nil⟩
    rw [run, hwindow]
    rfl
  | cons read reads ih =>
    intro loop hcarry
    obtain ⟨hsome, hchunk⟩ := hreads read List.mem_cons_self
    obtain ⟨window, hwindow⟩ := window_inBounds hcarry
    obtain ⟨next, hnext, hcarry', hrest, hout⟩ := takeRead_ok hcarry hchunk
    obtain ⟨after, hafter, hend, hwrites, pieces, hpieces, hunpadded⟩ :=
      ih (fun read hread => hreads read (List.mem_cons_of_mem _ hread)) hcarry'
    have hrun : run (read :: reads) loop = .ok after := by
      rw [run, hwindow]
      simp only [Except.ok_bind]
      rw [if_neg (by omega), hnext]
      exact hafter
    have hcarried : loop.carry.length ≤ 2 := by
      rw [carry, List.length_take]
      omega
    have hlength : (loop.carry ++ read).length ≤ chunkBytes + 2 := by
      rw [List.length_append]
      omega
    -- `writeReads` takes the same turn
    have hturn : writeReads (read :: reads) loop.carry loop.out.toOutput =
        writeReads reads next.carry next.out.toOutput := by
      rw [writeReads, if_neg (by omega), hrest, hout]
      dsimp only
      split
      · rename_i hcomplete
        rw [hcomplete, List.drop_zero]
      · have hcapacity : outputCapacity = 65540 := rfl
        have hchunkBytes : chunkBytes = 49152 := rfl
        rw [encodeSlice_eq (by rw [List.length_take]; omega), toOutput_writeCounted]
    refine ⟨after, hrun, hend, hturn.trans hwrites, ?_⟩
    rw [hout] at hpieces
    split at hpieces
    · exact ⟨pieces, hpieces, hunpadded⟩
    · rename_i hcomplete
      refine ⟨_ :: pieces, hpieces.trans (List.append_assoc _ _ _), ?_⟩
      rw [List.forall_mem_cons]
      refine ⟨padding_notMem_encode ?_, hunpadded⟩
      rw [List.length_take]
      omega

/-- What is still carried is written last. -/
theorem finish_ok {loop : CarryLoop} (hcarry : loop.carryLen ≤ 2) :
    ∃ after, loop.finish = .ok after ∧ writeReads [] loop.carry loop.out.toOutput = .ok after.out.toOutput ∧
      loop.out.pieces <+: after.out.pieces := by
  have hcarried : loop.carry.length = loop.carryLen := by
    rw [carry, List.length_take, loop.input.length_items]
    omega
  rw [finish, writeReads, hcarried]
  by_cases hrest : loop.carryLen > 0
  · obtain ⟨output, hencode⟩ := loop.encodeFront_ok (show loop.carryLen ≤ chunkBytes + 2 by omega)
    have hcapacity : outputCapacity = 65540 := rfl
    rw [if_pos hrest, if_pos hrest, hencode, encodeSlice_eq (by omega)]
    refine ⟨_, rfl, ?_, List.prefix_append _ _⟩
    rw [toOutput_writeCounted]
    rfl
  · rw [if_neg hrest, if_neg hrest]
    exact ⟨loop, rfl, rfl, List.prefix_rfl⟩

end CarryLoop

/-- The loop over the buffers writes what `writeReads` writes. -/
theorem writeBufferedReads_refines {reads : List (List UInt8)}
    (hreads : ∀ read ∈ reads, 1 ≤ read.length ∧ read.length ≤ chunkBytes) (contentLength : ℕ) :
    ∃ loop out, CarryLoop.run reads (.start contentLength) = .ok loop ∧
      writeBufferedReads reads contentLength = .ok out ∧
      (∀ piece ∈ loop.out.pieces, padding ∉ piece) ∧ loop.out.pieces <+: out.pieces ∧
      writeReads reads [] ⟨[], contentLength⟩ = .ok out.toOutput := by
  obtain ⟨loop, hrun, hcarry, hwrites, pieces, hpieces, hunpadded⟩ :=
    @CarryLoop.run_ok reads hreads (.start contentLength) (Nat.zero_le 2)
  obtain ⟨after, hfinish, hlast, hprefix⟩ := CarryLoop.finish_ok hcarry
  refine ⟨loop, after.out, hrun, ?_, ?_, hprefix, hwrites.trans hlast⟩
  · rw [writeBufferedReads, hrun]
    simp only [Except.ok_bind, hfinish]
    rfl
  · rw [hpieces]
    exact hunpadded

/-- **The carry loop writes the base64 of what is read, whatever the reads.** No index is out of
bounds and the output buffer is large enough, or there would be an error; the pieces of the loop
have no padding, all pieces together are the base64 text, and its length is what
`content_length` grows by. -/
theorem writeBufferedReads_spec (reads : List (List UInt8))
    (hreads : ∀ read ∈ reads, 1 ≤ read.length ∧ read.length ≤ 49152) (contentLength : ℕ) :
    ∃ loop out, CarryLoop.run reads (.start contentLength) = .ok loop ∧
      writeBufferedReads reads contentLength = .ok out ∧
      (∀ piece ∈ loop.out.pieces, padding ∉ piece) ∧ loop.out.pieces <+: out.pieces ∧
      out.pieces.flatten = Base64.encode reads.flatten ∧
      out.contentLength = contentLength + (Base64.encode reads.flatten).length := by
  obtain ⟨loop, out, hrun, hwritten, hunpadded, hprefix, hwrites⟩ := writeBufferedReads_refines hreads contentLength
  have hwhole := @writeReads_eq reads [] ⟨[], contentLength⟩ (Nat.zero_le 2) fun read hread => (hreads read hread).2
  rw [hwrites, List.nil_append] at hwhole
  have hout := (Except.ok.inj hwhole).symm
  exact ⟨loop, out, hrun, hwritten, hunpadded, hprefix, (congrArg Output.bytes hout).symm,
    (congrArg Output.contentLength hout).symm⟩

/-- A first read of less than a group. -/
theorem writeBufferedReads_example :
    ∃ out, writeBufferedReads [[77], [97, 110, 77]] 5 = .ok out ∧
      out.pieces.flatten = Text.bytes "TWFuTQ==" ∧ out.contentLength = 13 := by
  obtain ⟨loop, out, -, hwritten, -, -, hpieces, hlength⟩ :=
    writeBufferedReads_spec [[77], [97, 110, 77]] (by decide) 5
  have htext : Base64.encode [77, 97, 110, 77] = Text.bytes "TWFuTQ==" := by decide +kernel
  have hbytes : ([[77], [97, 110, 77]] : List (List UInt8)).flatten = [77, 97, 110, 77] := rfl
  rw [hbytes, htext] at hpieces hlength
  exact ⟨out, hwritten, hpieces, hlength⟩

end GeminiWorker
