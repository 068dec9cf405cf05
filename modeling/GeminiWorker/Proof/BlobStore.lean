import GeminiWorker.Proof.BlobRuntime
import GeminiWorker.Spec.BlobStore
import Mathlib.Data.List.TakeWhile

/-!
# What a store awaits

Each store awaits a list of operations that its bytes, the configuration and the free hot memory determine. Up to the
one that creates the spill file they leave the runtime as it was, and then only the spill file differs.

* `storeBytes_performs` and `storeStream_performs`: the operations of a store, and what it returns.
* `storeStream_refines`: a stream is stored as its bytes are, however it is split.
* `leavesNothing_iff`: a store that is stopped leaves nothing behind exactly if it has not created its spill file.
-/

namespace GeminiWorker

/-- The operations that create the spill file. -/
def StoreOp.creates : StoreOp → Bool
  | .createFile | .write _ => true
  | _ => false

/-- The operations on the open spill file. -/
def StoreOp.onFile : StoreOp → Bool
  | .writeAll _ | .flush => true
  | _ => false

namespace BlobStore

open Awaits (Performs)

/-- What a reader delivers before a read of no bytes. -/
def delivered (reads : List (List UInt8)) : List UInt8 := (reads.takeWhile (· ≠ [])).flatten

/-! ## The operations -/

/-- The loop of `store_stream` with an open spill file. -/
def spilledOps : List (List UInt8) → List StoreOp
  | [] => [.read]
  | chunk :: reads => .read :: if chunk = [] then [] else .writeAll chunk :: spilledOps reads

/-- The loop of `store_stream` with a buffer. -/
def bufferedOps (inlineLimit : ℕ) : List UInt8 → List (List UInt8) → List StoreOp
  | _, [] => [.read]
  | buffer, chunk :: reads => .read ::
    if chunk = [] then []
    else if buffer.length + chunk.length ≤ inlineLimit then bufferedOps inlineLimit (buffer ++ chunk) reads
    else .createDirAll :: .createFile ::
      ((if buffer ≠ [] then [.writeAll buffer] else []) ++ .writeAll chunk :: spilledOps reads)

/-- The end of the stores. -/
def bufferOps (runtime : BlobRuntime) (bytes : List UInt8) : List StoreOp :=
  if (runtime.tryInlineReserve bytes.length).isSome then [] else [.createDirAll, .write bytes]

/-- The operations of `store_stream`. -/
def streamOps (runtime : BlobRuntime) (reads : List (List UInt8)) : List StoreOp :=
  bufferedOps (BlobRuntime.inlineLimit runtime.cfg) [] reads ++
    if (delivered reads).length ≤ BlobRuntime.inlineLimit runtime.cfg then bufferOps runtime (delivered reads)
    else [.flush, .metadata]

theorem delivered_cons {chunk : List UInt8} (h : chunk ≠ []) (reads : List (List UInt8)) :
    delivered (chunk :: reads) = chunk ++ delivered reads := by
  unfold delivered
  rw [List.takeWhile_cons_of_pos (by simpa using h), List.flatten_cons]

theorem delivered_empty (reads : List (List UInt8)) : delivered ([] :: reads) = [] := rfl

/-- The loop creates the spill file exactly if more is delivered than fits. -/
theorem creates_bufferedOps (inlineLimit : ℕ) (reads : List (List UInt8)) :
    ∀ buffer : List UInt8, buffer.length ≤ inlineLimit →
      (bufferedOps inlineLimit buffer reads).any StoreOp.creates =
        decide (inlineLimit < (buffer ++ delivered reads).length) := by
  induction reads with
  | nil =>
    intro buffer hbuffer
    have hend : (buffer ++ delivered []).length = buffer.length := by
      change (buffer ++ []).length = _
      rw [List.append_nil]
    rw [hend, decide_eq_false (Nat.not_lt_of_le hbuffer)]
    rfl
  | cons chunk reads ih =>
    intro buffer hbuffer
    by_cases hchunk : chunk = []
    · subst hchunk
      rw [delivered_empty, List.append_nil, decide_eq_false (Nat.not_lt_of_le hbuffer)]
      rfl
    · rw [delivered_cons hchunk, ← List.append_assoc, bufferedOps, if_neg hchunk]
      by_cases hfits : buffer.length + chunk.length ≤ inlineLimit
      · rw [if_pos hfits, List.any_cons, ih _ (by rwa [List.length_append])]
        rfl
      · have hlarge : inlineLimit < (buffer ++ chunk ++ delivered reads).length := by
          rw [List.length_append, List.length_append]
          omega
        rw [if_neg hfits, decide_eq_true hlarge]
        rfl

/-! ## The states in which they are awaited -/

/-- Each operation is awaited in the runtime as it was, or, once the spill file is created, with some file there. -/
def Trace (runtime : BlobRuntime) (path : String) : Bool → List (BlobRuntime × StoreOp) → Prop
  | _, [] => True
  | created, (before, op) :: steps =>
    (if created then ∃ file, before = runtime.writeFile path file else before = runtime) ∧
      (op.onFile = true → created = true) ∧ Trace runtime path (created || op.creates) steps

variable {runtime : BlobRuntime} {path : String} {created : Bool} {steps steps' : List (BlobRuntime × StoreOp)}

theorem trace_append : Trace runtime path created (steps ++ steps') ↔
    Trace runtime path created steps ∧ Trace runtime path (created || steps.any fun step => step.2.creates) steps' := by
  induction steps generalizing created with
  | nil => simp [Trace]
  | cons step steps ih =>
    obtain ⟨before, op⟩ := step
    rw [List.cons_append, Trace, Trace, ih, List.any_cons, Bool.or_assoc, and_assoc, and_assoc]

/-- The operation at a place, with what stands before it. -/
theorem Trace.getElem (h : Trace runtime path created steps) {i : ℕ} {before : BlobRuntime} {op : StoreOp}
    (hget : steps[i]? = some (before, op)) :
    (if created || (steps.take i).any (fun step => step.2.creates) then ∃ file, before = runtime.writeFile path file
      else before = runtime) ∧
    (op.onFile = true → (created || (steps.take i).any fun step => step.2.creates) = true) := by
  induction i generalizing steps created with
  | zero =>
    obtain ⟨step, rest, rfl⟩ : ∃ step rest, steps = step :: rest := by
      cases steps with
      | nil => cases hget
      | cons step rest => exact ⟨step, rest, rfl⟩
    obtain rfl := Option.some.inj hget
    rw [List.take_zero, List.any_nil, Bool.or_false]
    exact ⟨h.1, h.2.1⟩
  | succ i ih =>
    obtain ⟨step, rest, rfl⟩ : ∃ step rest, steps = step :: rest := by
      cases steps with
      | nil => cases hget
      | cons step rest => exact ⟨step, rest, rfl⟩
    rw [List.take_succ_cons, List.any_cons, ← Bool.or_assoc]
    exact ih h.2.2 hget

/-! ## The parts of a store -/

theorem writeFile_writeFile (runtime : BlobRuntime) (path : String) (file file' : List UInt8) :
    (runtime.writeFile path file).writeFile path file' = runtime.writeFile path file' := by
  unfold BlobRuntime.writeFile
  rw [Function.update_idem]

theorem fileAt_writeFile (runtime : BlobRuntime) (path : String) (file : List UInt8) :
    StoreOp.fileAt path (runtime.writeFile path file) = file := by
  unfold StoreOp.fileAt BlobRuntime.writeFile
  dsimp only
  rw [Function.update_self, Option.getD_some]

/-- Bytes written to the spill file are appended. -/
theorem complete_writeAll (runtime : BlobRuntime) (path : String) (file bytes : List UInt8) :
    ((StoreOp.writeAll bytes).awaits path).complete (runtime.writeFile path file) =
      runtime.writeFile path (file ++ bytes) := by
  change (runtime.writeFile path file).writeFile path (StoreOp.fileAt path (runtime.writeFile path file) ++ bytes) = _
  rw [fileAt_writeFile, writeFile_writeFile]

/-- **The loop with an open spill file** appends what is delivered. -/
theorem spilled_performs (inlineLimit id : ℕ) (runtime : BlobRuntime) (reads : List (List UInt8)) :
    ∀ file, ∃ steps, Performs (StoreOp.awaits (runtime.cfg.spillPath id))
        (streamLoop inlineLimit id ⟨[], some (runtime.cfg.spillPath id)⟩ reads)
        (runtime.writeFile (runtime.cfg.spillPath id) file) steps ⟨[], some (runtime.cfg.spillPath id)⟩
        (runtime.writeFile (runtime.cfg.spillPath id) (file ++ delivered reads)) ∧
      steps.map Prod.snd = spilledOps reads ∧ Trace runtime (runtime.cfg.spillPath id) true steps := by
  induction reads with
  | nil =>
    intro file
    refine ⟨[(_, .read)], ?_, rfl, ⟨⟨file, rfl⟩, nofun, trivial⟩⟩
    unfold delivered
    rw [List.takeWhile_nil, List.flatten_nil, List.append_nil]
    exact (Performs.get _).bind (Performs.await_bind (Performs.pure _ _))
  | cons chunk reads ih =>
    intro file
    by_cases hchunk : chunk = []
    · subst hchunk
      refine ⟨[(_, .read)], ?_, rfl, ⟨⟨file, rfl⟩, nofun, trivial⟩⟩
      rw [delivered_empty, List.append_nil]
      exact (Performs.get _).bind (Performs.await_bind (Performs.pure _ _))
    · obtain ⟨steps, hperforms, hops, htrace⟩ := ih (file ++ chunk)
      refine ⟨(_, .read) :: (_, .writeAll chunk) :: steps, ?_, ?_, ⟨⟨file, rfl⟩, nofun, ⟨file, rfl⟩, fun _ => rfl, htrace⟩⟩
      · rw [delivered_cons hchunk, ← List.append_assoc]
        refine (Performs.get _).bind (Performs.await_bind ?_)
        rw [if_neg hchunk]
        refine Performs.await_bind ?_
        change Performs _ _ (((StoreOp.writeAll chunk).awaits (runtime.cfg.spillPath id)).complete
          (runtime.writeFile (runtime.cfg.spillPath id) file)) _ _ _
        rw [complete_writeAll]
        exact hperforms
      · rw [List.map_cons, List.map_cons, hops, spilledOps, if_neg hchunk]

/-- What the loop leaves of bytes that are delivered to a buffer: a longer buffer, or the spill file. -/
def streamEnd (inlineLimit : ℕ) (path : String) (bytes : List UInt8) (runtime : BlobRuntime) :
    StreamLocals × BlobRuntime :=
  if bytes.length ≤ inlineLimit then (⟨bytes, none⟩, runtime) else (⟨[], some path⟩, runtime.writeFile path bytes)

/-- **The loop with a buffer** keeps all that is delivered, or has written all of it to the spill file. -/
theorem buffered_performs (inlineLimit id : ℕ) (runtime : BlobRuntime) (reads : List (List UInt8)) :
    ∀ buffer : List UInt8, buffer.length ≤ inlineLimit →
      ∃ steps, Performs (StoreOp.awaits (runtime.cfg.spillPath id)) (streamLoop inlineLimit id ⟨buffer, none⟩ reads)
          runtime steps (streamEnd inlineLimit (runtime.cfg.spillPath id) (buffer ++ delivered reads) runtime).1
          (streamEnd inlineLimit (runtime.cfg.spillPath id) (buffer ++ delivered reads) runtime).2 ∧
        steps.map Prod.snd = bufferedOps inlineLimit buffer reads ∧
        Trace runtime (runtime.cfg.spillPath id) false steps := by
  induction reads with
  | nil =>
    intro buffer hbuffer
    refine ⟨[(_, .read)], ?_, rfl, ⟨rfl, nofun, trivial⟩⟩
    unfold delivered streamEnd
    rw [List.takeWhile_nil, List.flatten_nil, List.append_nil, if_pos hbuffer]
    exact (Performs.get _).bind (Performs.await_bind (Performs.pure _ _))
  | cons chunk reads ih =>
    intro buffer hbuffer
    by_cases hchunk : chunk = []
    · subst hchunk
      refine ⟨[(_, .read)], ?_, rfl, ⟨rfl, nofun, trivial⟩⟩
      unfold streamEnd
      rw [delivered_empty, List.append_nil, if_pos hbuffer]
      exact (Performs.get _).bind (Performs.await_bind (Performs.pure _ _))
    · rw [delivered_cons hchunk, ← List.append_assoc]
      by_cases hfits : buffer.length + chunk.length ≤ inlineLimit
      · have hlonger : (buffer ++ chunk).length ≤ inlineLimit := by rwa [List.length_append]
        obtain ⟨steps, hperforms, hops, htrace⟩ := ih (buffer ++ chunk) hlonger
        refine ⟨(_, .read) :: steps, ?_, ?_, ⟨rfl, nofun, htrace⟩⟩
        · refine (Performs.get _).bind (Performs.await_bind ?_)
          rw [if_neg hchunk]
          dsimp only
          rw [if_pos hfits]
          exact hperforms
        · rw [List.map_cons, hops, bufferedOps, if_neg hchunk, if_pos hfits]
      · -- the spill file is created here
        obtain ⟨steps, hperforms, hops, htrace⟩ := spilled_performs inlineLimit id runtime reads (buffer ++ chunk)
        have hlarge : ¬ (buffer ++ chunk ++ delivered reads).length ≤ inlineLimit := by
          rw [List.length_append, List.length_append]
          omega
        have hend : streamEnd inlineLimit (runtime.cfg.spillPath id) (buffer ++ chunk ++ delivered reads) runtime =
            (⟨[], some (runtime.cfg.spillPath id)⟩,
              runtime.writeFile (runtime.cfg.spillPath id) (buffer ++ chunk ++ delivered reads)) := if_neg hlarge
        rw [hend]
        by_cases hempty : buffer = []
        · subst hempty
          refine ⟨(_, .read) :: (_, .createDirAll) :: (_, .createFile) :: (_, .writeAll chunk) :: steps, ?_, ?_,
            ⟨rfl, nofun, rfl, nofun, rfl, nofun, ⟨[], rfl⟩, fun _ => rfl, htrace⟩⟩
          · refine (Performs.get _).bind (Performs.await_bind ?_)
            rw [if_neg hchunk]
            dsimp only
            rw [if_neg hfits]
            refine ((Performs.get _).bind (Performs.pure _ _)).bind (Performs.await_bind (Performs.await_bind ?_))
            rw [if_neg (by simp)]
            refine (Performs.pure _ _).bind (Performs.await_bind ?_)
            change Performs _ _ (((StoreOp.writeAll chunk).awaits (runtime.cfg.spillPath id)).complete
              (runtime.writeFile (runtime.cfg.spillPath id) [])) _ _ _
            rw [complete_writeAll]
            exact hperforms
          · rw [List.map_cons, List.map_cons, List.map_cons, List.map_cons, hops, bufferedOps, if_neg hchunk,
              if_neg hfits, if_neg (by simp)]
            rfl
        · refine ⟨(_, .read) :: (_, .createDirAll) :: (_, .createFile) :: (_, .writeAll buffer) :: (_, .writeAll chunk) ::
            steps, ?_, ?_, ⟨rfl, nofun, rfl, nofun, rfl, nofun, ⟨[], rfl⟩, fun _ => rfl, ⟨buffer, rfl⟩, fun _ => rfl,
            htrace⟩⟩
          · refine (Performs.get _).bind (Performs.await_bind ?_)
            rw [if_neg hchunk]
            dsimp only
            rw [if_neg hfits]
            refine ((Performs.get _).bind (Performs.pure _ _)).bind (Performs.await_bind (Performs.await_bind ?_))
            rw [if_pos hempty]
            refine Performs.await_bind ?_
            change Performs _ _ (((StoreOp.writeAll buffer).awaits (runtime.cfg.spillPath id)).complete
              (runtime.writeFile (runtime.cfg.spillPath id) [])) _ _ _
            rw [complete_writeAll, List.nil_append]
            refine Performs.await_bind ?_
            rw [complete_writeAll]
            exact hperforms
          · rw [List.map_cons, List.map_cons, List.map_cons, List.map_cons, List.map_cons, hops, bufferedOps,
              if_neg hchunk, if_neg hfits, if_pos hempty]
            rfl

/-! ## The stores -/

variable {id : ℕ} {bytes : List UInt8} {mimeType : String} {reads : List (List UInt8)}

theorem nextId_performs (sem : StoreOp → AwaitOp BlobRuntime) (runtime : BlobRuntime) :
    Performs sem nextId runtime [] runtime.nextId runtime.takeId.2 :=
  (Performs.get _).bind ((Performs.set _ _).bind (Performs.pure _ _))

theorem recordSpill_performs (sem : StoreOp → AwaitOp BlobRuntime) (runtime : BlobRuntime) (sizeBytes : ℕ) :
    Performs sem (recordSpill sizeBytes) runtime [] () (runtime.recordSpill sizeBytes) :=
  (Performs.get _).bind (Performs.set _ _)

theorem metadataLen_performs (runtime : BlobRuntime) (path : String) (file : List UInt8) :
    Performs (StoreOp.awaits path) (metadataLen path) (runtime.writeFile path file)
      [(runtime.writeFile path file, .metadata)] file.length (runtime.writeFile path file) := by
  have hfile : ((StoreOp.awaits path .metadata).complete (runtime.writeFile path file)).files path = some file := by
    change Function.update runtime.files path (some file) path = some file
    exact Function.update_self ..
  refine Performs.await_bind ((Performs.get _).bind ?_)
  rw [hfile]
  exact Performs.pure _ _

/-- The end of a store awaits what it needs to spill its bytes, if it has to. -/
theorem storeBuffer_performs (id : ℕ) (bytes : List UInt8) (mimeType : String) (runtime : BlobRuntime) :
    ∃ steps handle after, Performs (StoreOp.awaits (runtime.cfg.spillPath id)) (storeBuffer id bytes mimeType) runtime
        steps handle after ∧
      runtime.storeBuffer .completed id bytes mimeType = (some handle, after) ∧
      steps.map Prod.snd = bufferOps runtime bytes ∧ Trace runtime (runtime.cfg.spillPath id) false steps := by
  cases hreserve : runtime.tryInlineReserve bytes.length with
  | some reserved =>
    have hperforms : Performs (StoreOp.awaits (runtime.cfg.spillPath id)) (tryInlineReserve bytes.length) runtime [] true
        reserved := by
      refine (Performs.get _).bind ?_
      rw [hreserve]
      exact (Performs.set _ _).bind (Performs.pure _ _)
    refine ⟨[], _, reserved, hperforms.bind (Performs.pure _ _), ?_, ?_, trivial⟩
    · unfold BlobRuntime.storeBuffer
      rw [hreserve]
      rfl
    · unfold bufferOps
      rw [hreserve]
      rfl
  | none =>
    have hperforms : Performs (StoreOp.awaits (runtime.cfg.spillPath id)) (tryInlineReserve bytes.length) runtime [] false
        runtime := by
      refine (Performs.get _).bind ?_
      rw [hreserve]
      exact Performs.pure _ _
    have hwrite : Performs (StoreOp.awaits (runtime.cfg.spillPath id)) (writeSpilledBytes id bytes) runtime
        [(runtime, .createDirAll), (runtime, .write bytes)] (runtime.cfg.spillPath id)
        (runtime.writeFile (runtime.cfg.spillPath id) bytes) :=
      ((Performs.get _).bind (Performs.pure _ _)).bind
        (Performs.await_bind (Performs.await_bind (Performs.pure _ _)))
    refine ⟨[(runtime, .createDirAll), (runtime, .write bytes)],
      buildHandle id mimeType bytes.length (.spilled (runtime.cfg.spillPath id)),
      (runtime.writeFile (runtime.cfg.spillPath id) bytes).recordSpill bytes.length,
      hperforms.bind (hwrite.bind ((recordSpill_performs _ _ _).bind (Performs.pure _ _))), ?_, ?_,
      ⟨rfl, nofun, rfl, nofun, trivial⟩⟩
    · unfold BlobRuntime.storeBuffer
      rw [hreserve]
      rfl
    · unfold bufferOps
      rw [hreserve]
      rfl

/-- **What `store_bytes` awaits and returns.** -/
theorem storeBytes_performs (bytes : List UInt8) (mimeType : String) (runtime : BlobRuntime) :
    ∃ steps handle after, Performs (StoreOp.awaits (runtime.cfg.spillPath runtime.nextId)) (storeBytes bytes mimeType)
        runtime steps handle after ∧
      runtime.storeBytes .completed bytes mimeType = (some handle, after) ∧
      steps.map Prod.snd = bufferOps runtime.takeId.2 bytes ∧
      Trace runtime.takeId.2 (runtime.cfg.spillPath runtime.nextId) false steps := by
  obtain ⟨steps, handle, after, hperforms, hstore, hops, htrace⟩ :=
    storeBuffer_performs runtime.nextId bytes mimeType runtime.takeId.2
  exact ⟨steps, handle, after, (nextId_performs _ runtime).bind hperforms, hstore, hops, htrace⟩

/-- **What `store_stream` awaits**; what it returns is what `store_bytes` returns for the bytes delivered. -/
theorem storeStream_performs (reads : List (List UInt8)) (mimeType : String) (runtime : BlobRuntime) :
    ∃ steps handle after, Performs (StoreOp.awaits (runtime.cfg.spillPath runtime.nextId)) (storeStream reads mimeType)
        runtime steps handle after ∧
      runtime.storeBytes .completed (delivered reads) mimeType = (some handle, after) ∧
      steps.map Prod.snd = streamOps runtime.takeId.2 reads ∧
      Trace runtime.takeId.2 (runtime.cfg.spillPath runtime.nextId) false steps := by
  obtain ⟨steps, hloop, hops, htrace⟩ := buffered_performs (BlobRuntime.inlineLimit runtime.cfg) runtime.nextId
    runtime.takeId.2 reads [] (Nat.zero_le _)
  rw [List.nil_append] at hloop
  by_cases hfits : (delivered reads).length ≤ BlobRuntime.inlineLimit runtime.cfg
  · obtain ⟨rest, handle, after, hbuffer, hstore, hrest, hlast⟩ :=
      storeBuffer_performs runtime.nextId (delivered reads) mimeType runtime.takeId.2
    have hend : streamEnd (BlobRuntime.inlineLimit runtime.cfg) (runtime.takeId.2.cfg.spillPath runtime.nextId)
        (delivered reads) runtime.takeId.2 = (⟨delivered reads, none⟩, runtime.takeId.2) := if_pos hfits
    rw [hend] at hloop
    refine ⟨steps ++ rest, handle, after, ?_, hstore, ?_, ?_⟩
    · exact (Performs.get _).bind ((nextId_performs _ runtime).bind (hloop.bind hbuffer))
    · rw [List.map_append, hops, hrest]
      unfold streamOps
      rw [if_pos (show (delivered reads).length ≤ BlobRuntime.inlineLimit runtime.takeId.2.cfg from hfits)]
      rfl
    · -- the loop has created no file
      have huncreated : steps.any (fun step => step.2.creates) = false := by
        have hcreates := creates_bufferedOps (BlobRuntime.inlineLimit runtime.cfg) reads [] (Nat.zero_le _)
        rw [List.nil_append, decide_eq_false (Nat.not_lt_of_le hfits), ← hops, List.any_map] at hcreates
        exact hcreates
      rw [trace_append, huncreated]
      exact ⟨htrace, hlast⟩
  · have hend : streamEnd (BlobRuntime.inlineLimit runtime.cfg) (runtime.takeId.2.cfg.spillPath runtime.nextId)
        (delivered reads) runtime.takeId.2 =
        (⟨[], some (runtime.cfg.spillPath runtime.nextId)⟩,
          runtime.takeId.2.writeFile (runtime.cfg.spillPath runtime.nextId) (delivered reads)) := if_neg hfits
    rw [hend] at hloop
    have hlarge : runtime.takeId.2.tryInlineReserve (delivered reads).length = none :=
      BlobRuntime.tryInlineReserve_of_large (Nat.lt_of_not_le hfits)
    have hfinish : Performs (StoreOp.awaits (runtime.cfg.spillPath runtime.nextId))
        (do
          let size ← metadataLen (runtime.cfg.spillPath runtime.nextId)
          recordSpill size
          return buildHandle runtime.nextId mimeType size (.spilled (runtime.cfg.spillPath runtime.nextId)) : Store BlobHandle)
        (runtime.takeId.2.writeFile (runtime.cfg.spillPath runtime.nextId) (delivered reads)) [(_, .metadata)]
        (buildHandle runtime.nextId mimeType (delivered reads).length (.spilled (runtime.cfg.spillPath runtime.nextId)))
        ((runtime.takeId.2.writeFile (runtime.cfg.spillPath runtime.nextId) (delivered reads)).recordSpill
          (delivered reads).length) :=
      (metadataLen_performs _ _ _).bind ((recordSpill_performs _ _ _).bind (Performs.pure _ _))
    refine ⟨steps ++ [(runtime.takeId.2.writeFile (runtime.cfg.spillPath runtime.nextId) (delivered reads), .flush),
        (runtime.takeId.2.writeFile (runtime.cfg.spillPath runtime.nextId) (delivered reads), .metadata)],
      buildHandle runtime.nextId mimeType (delivered reads).length (.spilled (runtime.cfg.spillPath runtime.nextId)),
      (runtime.takeId.2.writeFile (runtime.cfg.spillPath runtime.nextId) (delivered reads)).recordSpill
        (delivered reads).length, ?_, ?_, ?_, ?_⟩
    · refine (Performs.get _).bind ((nextId_performs _ runtime).bind (hloop.bind ?_))
      exact Performs.await_bind hfinish
    · unfold BlobRuntime.storeBytes BlobRuntime.storeBuffer
      dsimp only
      rw [show (runtime.takeId).2.tryInlineReserve (delivered reads).length = none from hlarge]
      rfl
    · rw [List.map_append, hops]
      unfold streamOps
      rw [if_neg (show ¬ (delivered reads).length ≤ BlobRuntime.inlineLimit runtime.takeId.2.cfg from hfits)]
      rfl
    · have hcreated : steps.any (fun step => step.2.creates) = true := by
        have hcreates := creates_bufferedOps (BlobRuntime.inlineLimit runtime.cfg) reads [] (Nat.zero_le _)
        rw [List.nil_append, decide_eq_true (Nat.lt_of_not_le hfits), ← hops, List.any_map] at hcreates
        exact hcreates
      rw [trace_append, hcreated]
      exact ⟨htrace, ⟨delivered reads, rfl⟩, fun _ => rfl, ⟨delivered reads, rfl⟩, nofun, trivial⟩

/-- **A stream is stored as its bytes are**, however the reader splits them: the same handle, from which the bytes are
read back, and the same runtime afterwards. -/
theorem storeStream_refines {bytes : List UInt8} {reads : List (List UInt8)} (hsplit : reads.flatten = bytes)
    (hreads : ∀ chunk ∈ reads, 1 ≤ chunk.length ∧ chunk.length ≤ 16 * 1024) (mimeType : String)
    (runtime : BlobRuntime) :
    ∃ handle after, (storeBytes bytes mimeType).run none runtime = (some handle, after) ∧
      (storeStream reads mimeType).run none runtime = (some handle, after) ∧
      handle.blobMeta.sizeBytes = bytes.length ∧ after.readBytes handle = some bytes ∧
      after.openReader handle = some bytes := by
  have hdelivered : delivered reads = bytes := by
    unfold delivered
    rw [List.takeWhile_eq_self_iff.mpr, hsplit]
    intro chunk hchunk
    exact decide_eq_true (List.ne_nil_of_length_pos (hreads chunk hchunk).1)
  obtain ⟨steps, handle, after, hbytes, hstore, -, -⟩ := storeBytes_performs bytes mimeType runtime
  obtain ⟨steps', handle', after', hstream, hstore', -, -⟩ := storeStream_performs reads mimeType runtime
  obtain ⟨stored, afterStore, hcompleted, hstoredAs, -⟩ := BlobRuntime.storeBytes_completed bytes mimeType runtime
  rw [hdelivered] at hstore'
  obtain ⟨hhandle, rfl⟩ := Prod.mk.inj (hstore.symm.trans hstore')
  obtain rfl := Option.some.inj hhandle
  obtain ⟨hhandle, rfl⟩ := Prod.mk.inj (hstore.symm.trans hcompleted)
  obtain rfl := Option.some.inj hhandle
  exact ⟨handle, after, hbytes.run_none, hstream.run_none, hstoredAs.size_eq, hstoredAs.bytes_eq, hstoredAs.bytes_eq⟩

/-- A runtime with a small inline limit and nothing stored. -/
def smallRuntime : BlobRuntime := .new ⟨2, 2, 8, "spill"⟩ fun _ => none

theorem storeStream_refines_example : ∃ handle after,
    (storeBytes [1, 2, 3] "application/json").run none smallRuntime = (some handle, after) ∧
      (storeStream [[1, 2], [3]] "application/json").run none smallRuntime = (some handle, after) ∧
      handle.blobMeta.sizeBytes = 3 ∧ after.readBytes handle = some [1, 2, 3] ∧
      after.openReader handle = some [1, 2, 3] :=
  @storeStream_refines [1, 2, 3] [[1, 2], [3]] rfl (by decide) "application/json" smallRuntime

/-! ## A store that is stopped -/

/-- A call that returned no handle left no trace: the counters are as they were, and no file is new. -/
structure LeavesNothing (before after : BlobRuntime) : Prop where
  globalHotBytes : after.globalHotBytes = before.globalHotBytes
  spillCount : after.spillCount = before.spillCount
  spillBytesTotal : after.spillBytesTotal = before.spillBytesTotal
  files : ∀ path, (after.files path).isSome → (before.files path).isSome

/-- The operation that the fault stops comes before the one that creates the spill file, or is that one and has created
nothing. -/
def StopsUncreated (ops : List StoreOp) (fault : Fault) : Prop :=
  ∀ op, ops[fault.op]? = some op →
    (ops.take fault.op).any StoreOp.creates = false ∧ (op.creates = true → fault.effect = 0)

theorem leavesNothing_writeFile {runtime : BlobRuntime} {path : String} {file : List UInt8} :
    LeavesNothing runtime (runtime.writeFile path file) ↔ (runtime.files path).isSome := by
  constructor
  · intro h
    have hself : ((runtime.writeFile path file).files path).isSome := by
      change (Function.update runtime.files path (some file) path).isSome
      rw [Function.update_self]
      rfl
    exact h.files path hself
  · intro hsome
    refine ⟨rfl, rfl, rfl, fun path' h => ?_⟩
    by_cases hpath : path' = path
    · exact hpath ▸ hsome
    · change (Function.update runtime.files path (some file) path').isSome at h
      rwa [Function.update_of_ne hpath] at h

/-- A creation that is stopped creates the file, or does nothing. -/
theorem stop_of_creates {op : StoreOp} (h : op.creates = true) (path : String) (effect : ℕ) (before : BlobRuntime) :
    ∃ file, op.stop path effect before = if effect = 0 then before else before.writeFile path file := by
  cases op with
  | createFile => exact ⟨[], rfl⟩
  | write bytes => exact ⟨bytes.take (effect - 1), rfl⟩
  | read | createDirAll | metadata | writeAll | flush => cases h

/-- Any other operation that is stopped changes at most the open file. -/
theorem stop_of_not_creates {op : StoreOp} (h : op.creates = false) (path : String) (effect : ℕ)
    (before : BlobRuntime) : op.stop path effect before = before ∨
      op.onFile = true ∧ ∃ file, op.stop path effect before = before.writeFile path file := by
  cases op with
  | read | createDirAll | metadata => exact Or.inl rfl
  | writeAll bytes => exact Or.inr ⟨rfl, _, rfl⟩
  | flush => exact Or.inr ⟨rfl, _, rfl⟩
  | createFile | write => cases h

/-- What a stopped operation leaves, in the states of a trace. -/
theorem leavesNothing_stop {runtime before : BlobRuntime} {path : String} {created : Bool} {op : StoreOp} {effect : ℕ}
    (hbefore : if created then ∃ file, before = runtime.writeFile path file else before = runtime)
    (hfile : op.onFile = true → created = true) :
    LeavesNothing runtime (op.stop path effect before) ↔
      (created = false ∧ (op.creates = true → effect = 0)) ∨ (runtime.files path).isSome := by
  cases created with
  | true =>
    obtain ⟨file, rfl⟩ := hbefore
    -- the file is there, whatever the operation does with it
    have hwritten : ∃ file', op.stop path effect (runtime.writeFile path file) = runtime.writeFile path file' := by
      cases hcreates : op.creates with
      | true =>
        obtain ⟨file', hstop⟩ := stop_of_creates hcreates path effect (runtime.writeFile path file)
        rw [hstop, writeFile_writeFile]
        split
        · exact ⟨file, rfl⟩
        · exact ⟨file', rfl⟩
      | false =>
        rcases stop_of_not_creates hcreates path effect (runtime.writeFile path file) with hstop | ⟨-, file', hstop⟩
        · exact ⟨file, hstop⟩
        · rw [writeFile_writeFile] at hstop
          exact ⟨file', hstop⟩
    obtain ⟨file', hstop⟩ := hwritten
    rw [hstop, leavesNothing_writeFile]
    exact ⟨Or.inr, fun h => h.resolve_left fun hfalse => Bool.noConfusion hfalse.1⟩
  | false =>
    obtain rfl : before = runtime := hbefore
    have hself : LeavesNothing before before := ⟨rfl, rfl, rfl, fun _ h => h⟩
    cases hcreates : op.creates with
    | true =>
      obtain ⟨file, hstop⟩ := stop_of_creates hcreates path effect before
      rw [hstop]
      by_cases heffect : effect = 0
      · rw [if_pos heffect]
        exact iff_of_true hself (Or.inl ⟨rfl, fun _ => heffect⟩)
      · rw [if_neg heffect, leavesNothing_writeFile]
        exact ⟨Or.inr, fun h => h.resolve_left fun hzero => heffect (hzero.2 rfl)⟩
    | false =>
      rcases stop_of_not_creates hcreates path effect before with hstop | ⟨hopen, -⟩
      · rw [hstop]
        exact iff_of_true hself (Or.inl ⟨rfl, nofun⟩)
      · cases hfile hopen

variable {store : Store BlobHandle} {ops : List StoreOp}

/-- **A store that is stopped leaves nothing behind exactly if it has not created its spill file.** -/
theorem leavesNothing_iff {steps : List (BlobRuntime × StoreOp)} {handle : BlobHandle} {after : BlobRuntime}
    (hperforms : Performs (StoreOp.awaits path) store runtime steps handle after) (hops : steps.map Prod.snd = ops)
    (htrace : Trace runtime.takeId.2 path false steps) (fault : Fault) :
    (∀ after, store.run (some fault) runtime = (none, after) → LeavesNothing runtime after) ↔
      StopsUncreated ops fault ∨ (runtime.files path).isSome := by
  have hrun := hperforms.run_some fault
  cases hget : steps[fault.op]? with
  | none =>
    rw [hget] at hrun
    have hnone : ops[fault.op]? = none := by
      rw [← hops, List.getElem?_map, hget]
      rfl
    refine iff_of_true (fun after h => ?_) (Or.inl fun op hop => ?_)
    · rw [hrun] at h
      cases h
    · rw [hnone] at hop
      cases hop
  | some step =>
    obtain ⟨before, op⟩ := step
    rw [hget] at hrun
    obtain ⟨hbefore, hfile⟩ := htrace.getElem hget
    rw [Bool.false_or] at hbefore hfile
    have hcreated : (steps.take fault.op).any (fun step => step.2.creates) = (ops.take fault.op).any StoreOp.creates := by
      rw [← hops, ← List.map_take, List.any_map]
      rfl
    have hop : ops[fault.op]? = some op := by
      rw [← hops, List.getElem?_map, hget]
      rfl
    -- taking the id changes neither a counter of the account nor a file
    have htaken : ∀ after, LeavesNothing runtime after ↔ LeavesNothing runtime.takeId.2 after :=
      fun after => ⟨fun h => ⟨h.1, h.2, h.3, h.4⟩, fun h => ⟨h.1, h.2, h.3, h.4⟩⟩
    have hstop := @leavesNothing_stop runtime.takeId.2 before path _ op fault.effect hbefore hfile
    rw [hcreated] at hstop
    constructor
    · intro h
      rcases hstop.mp ((htaken _).mp (h _ hrun)) with hclean | hsome
      · refine Or.inl fun op' hop' => ?_
        obtain rfl := Option.some.inj (hop.symm.trans hop')
        exact hclean
      · exact Or.inr hsome
    · intro h after hafter
      obtain ⟨-, rfl⟩ := Prod.mk.inj (hrun.symm.trans hafter)
      refine (htaken _).mpr (hstop.mpr ?_)
      exact h.imp (fun hclean => hclean op hop) id

/-- **A store that fails or is aborted leaves nothing behind exactly if this happens before it has created its spill
file**, or there was a file at the path already. -/
theorem failedStore_iff (runtime : BlobRuntime) (mimeType : String) (fault : Fault) :
    (∀ bytes : List UInt8,
      ((∀ after, (storeBytes bytes mimeType).run (some fault) runtime = (none, after) → LeavesNothing runtime after) ↔
        StopsUncreated (bufferOps runtime.takeId.2 bytes) fault ∨
          (runtime.files (runtime.cfg.spillPath runtime.nextId)).isSome) ∧
      ((∀ after, (storeSharedBytes bytes mimeType).run (some fault) runtime = (none, after) →
          LeavesNothing runtime after) ↔
        StopsUncreated (bufferOps runtime.takeId.2 bytes) fault ∨
          (runtime.files (runtime.cfg.spillPath runtime.nextId)).isSome)) ∧
    ∀ reads : List (List UInt8),
      (∀ after, (storeStream reads mimeType).run (some fault) runtime = (none, after) → LeavesNothing runtime after) ↔
        StopsUncreated (streamOps runtime.takeId.2 reads) fault ∨
          (runtime.files (runtime.cfg.spillPath runtime.nextId)).isSome := by
  refine ⟨fun bytes => ?_, fun reads => ?_⟩
  · obtain ⟨steps, handle, after, hperforms, -, hops, htrace⟩ := storeBytes_performs bytes mimeType runtime
    have hiff := leavesNothing_iff hperforms hops htrace fault
    exact ⟨hiff, hiff⟩
  · obtain ⟨steps, handle, after, hperforms, -, hops, htrace⟩ := storeStream_performs reads mimeType runtime
    exact leavesNothing_iff hperforms hops htrace fault

/-- A stream of three bytes spills, and the next read fails: the file stays. -/
theorem abandonedSpill_left : ¬ ∀ (runtime : BlobRuntime) (mimeType : String) (fault : Fault)
    (reads : List (List UInt8)) (after : BlobRuntime),
    (storeStream reads mimeType).run (some fault) runtime = (none, after) → LeavesNothing runtime after := by
  intro hall
  have hrun : (storeStream [[1, 2, 3]] "application/json").run (some ⟨4, 0⟩) smallRuntime = (none, _) := rfl
  have hclean := hall smallRuntime "application/json" ⟨4, 0⟩ [[1, 2, 3]] _ hrun
  have hleft := hclean.files "spill/blob-1.bin" (by decide +kernel)
  cases hleft

end BlobStore

end GeminiWorker
