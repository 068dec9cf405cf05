import GeminiWorker.Spec.BlobRuntime
import Mathlib.Order.Nat
import Std.Data.String.ToNat

/-!
# Storing and reading blobs

* `storeBuffer_completed`, `storeStream_completed`: a store that meets no I/O failure
  returns a handle from which the stored bytes are read back.
* `Extends.readBytes_eq`: it changes no blob stored before.
-/

namespace GeminiWorker

theorem BlobRuntimeConfig.spillPath_injective (cfg : BlobRuntimeConfig) {id id' : ℕ}
    (h : cfg.spillPath id = cfg.spillPath id') : id = id' := by
  unfold BlobRuntimeConfig.spillPath at h
  rw [← String.toList_inj] at h
  simp only [String.toList_append, List.append_cancel_right_eq, List.append_cancel_left_eq] at h
  exact Nat.repr_injective (String.toList_inj.1 h)

namespace BlobRuntime

/-- A handle this runtime gave out: its id is taken, and its spill file is its own. -/
structure Stored (runtime : BlobRuntime) (handle : BlobHandle) : Prop where
  id_lt : handle.id < runtime.nextId
  path_eq : ∀ path, handle.storage = .spilled path → path = runtime.cfg.spillPath handle.id
  readable : (runtime.readBytes handle).isSome

/-- The bytes of a handle in the runtime after its store. -/
structure StoredAs (runtime : BlobRuntime) (handle : BlobHandle) (bytes : List UInt8) : Prop where
  bytes_eq : runtime.readBytes handle = some bytes
  size_eq : handle.blobMeta.sizeBytes = bytes.length
  id_lt : handle.id < runtime.nextId
  path_eq : ∀ path, handle.storage = .spilled path → path = runtime.cfg.spillPath handle.id

theorem tryInlineReserve_eq_some {runtime runtime' : BlobRuntime} {sizeBytes : ℕ}
    (h : runtime.tryInlineReserve sizeBytes = some runtime') :
    runtime' = { runtime with globalHotBytes := runtime.globalHotBytes + sizeBytes } := by
  unfold tryInlineReserve at h
  dsimp only at h
  split at h
  · cases h
  split at h
  · cases h
  split at h
  · cases h
  · exact (Option.some.inj h).symm

/-- A later state of the runtime: what was stored before is still there. -/
structure Extends (runtime runtime' : BlobRuntime) : Prop where
  cfg_eq : runtime'.cfg = runtime.cfg
  nextId_le : runtime.nextId ≤ runtime'.nextId
  files_eq : ∀ id < runtime.nextId, runtime'.files (runtime.cfg.spillPath id) =
    runtime.files (runtime.cfg.spillPath id)

namespace Extends

theorem refl (runtime : BlobRuntime) : runtime.Extends runtime :=
  ⟨rfl, le_rfl, fun _ _ => rfl⟩

theorem trans {r r' r'' : BlobRuntime} (h : r.Extends r') (h' : r'.Extends r'') : r.Extends r'' := by
  refine ⟨h'.cfg_eq.trans h.cfg_eq, h.nextId_le.trans h'.nextId_le, ?_⟩
  intro id hid
  have hfile := h'.files_eq id (lt_of_lt_of_le hid h.nextId_le)
  rw [h.cfg_eq] at hfile
  exact hfile.trans (h.files_eq id hid)

/-- **A blob stored before reads the same.** -/
theorem readBytes_eq {runtime runtime' : BlobRuntime} {handle : BlobHandle}
    (h : runtime.Extends runtime') (hstored : runtime.Stored handle) :
    runtime'.readBytes handle = runtime.readBytes handle := by
  unfold readBytes
  cases hs : handle.storage with
  | inline bytes => rfl
  | shared bytes => rfl
  | spilled path =>
    have hpath := hstored.path_eq path hs
    subst hpath
    exact h.files_eq _ hstored.id_lt

theorem stored {runtime runtime' : BlobRuntime} {handle : BlobHandle}
    (h : runtime.Extends runtime') (hstored : runtime.Stored handle) : runtime'.Stored handle := by
  refine ⟨lt_of_lt_of_le hstored.id_lt h.nextId_le, ?_, ?_⟩
  · rw [h.cfg_eq]
    exact hstored.path_eq
  · rw [h.readBytes_eq hstored]
    exact hstored.readable

end Extends

theorem StoredAs.stored {runtime : BlobRuntime} {handle : BlobHandle} {bytes : List UInt8}
    (h : runtime.StoredAs handle bytes) : runtime.Stored handle :=
  ⟨h.id_lt, h.path_eq, by rw [h.bytes_eq]; rfl⟩

theorem extends_takeId (runtime : BlobRuntime) : runtime.Extends runtime.takeId.2 :=
  ⟨rfl, Nat.le_succ _, fun _ _ => rfl⟩

/-- A spilled blob is in the file of the id taken for it. -/
theorem storedAs_spilled (runtime : BlobRuntime) (bytes : List UInt8) (mimeType : String) :
    let path := runtime.cfg.spillPath runtime.nextId
    let runtime' := (runtime.takeId.2.writeFile path bytes).recordSpill bytes.length
    runtime'.StoredAs ⟨runtime.nextId, ⟨mimeType, bytes.length⟩, .spilled path⟩ bytes ∧
      runtime.Extends runtime' := by
  refine ⟨⟨?_, rfl, Nat.lt_succ_self _, ?_⟩, ⟨rfl, Nat.le_succ _, ?_⟩⟩
  · simp [readBytes, recordSpill, writeFile]
  · intro path hpath
    exact (BlobStorage.spilled.inj hpath).symm
  · intro id hid
    -- files of other ids are not touched
    refine Function.update_of_ne (fun he => ?_) _ _
    have := runtime.cfg.spillPath_injective he
    omega

/-- **A buffer is stored inline or in the file of its id**, and read back. -/
theorem storeBuffer_completed {id : ℕ} {runtime taken : BlobRuntime} (htaken : runtime.takeId = (id, taken))
    (bytes : List UInt8) (mimeType : String) :
    ∃ handle runtime', taken.storeBuffer .completed id bytes mimeType = (some handle, runtime') ∧
      runtime'.StoredAs handle bytes ∧ runtime.Extends runtime' := by
  obtain ⟨rfl, rfl⟩ := Prod.mk.inj htaken
  unfold storeBuffer
  cases h : tryInlineReserve _ bytes.length with
  | some reserved =>
    obtain rfl := tryInlineReserve_eq_some h
    refine ⟨_, _, rfl, ⟨rfl, rfl, Nat.lt_succ_self _, ?_⟩, ⟨rfl, Nat.le_succ _, fun _ _ => rfl⟩⟩
    intro path hpath
    cases hpath
  | none => exact ⟨_, _, rfl, storedAs_spilled runtime bytes mimeType⟩

theorem storeBytes_completed (bytes : List UInt8) (mimeType : String) (runtime : BlobRuntime) :
    ∃ handle runtime', runtime.storeBytes .completed bytes mimeType = (some handle, runtime') ∧
      runtime'.StoredAs handle bytes ∧ runtime.Extends runtime' :=
  storeBuffer_completed rfl bytes mimeType

theorem storeExternalSharedBytes_eq (bytes : List UInt8) (mimeType : String)
    (runtime : BlobRuntime) :
    ∃ handle runtime', runtime.storeExternalSharedBytes bytes mimeType = (handle, runtime') ∧
      runtime'.StoredAs handle bytes ∧ runtime.Extends runtime' := by
  refine ⟨_, _, rfl, ⟨rfl, rfl, Nat.lt_succ_self _, ?_⟩, extends_takeId runtime⟩
  intro path hpath
  cases hpath

theorem StreamState.foldl_spilled (inlineLimit : ℕ) (reads : List (List UInt8)) :
    ∀ file, reads.foldl (StreamState.read inlineLimit) ⟨[], some file⟩ =
      ⟨[], some (file ++ reads.flatten)⟩ := by
  induction reads with
  | nil => intro file; simp
  | cons chunk reads ih =>
    intro file
    have hread : StreamState.read inlineLimit ⟨[], some file⟩ chunk = ⟨[], some (file ++ chunk)⟩ := rfl
    rw [List.foldl_cons, hread, ih, List.flatten_cons, List.append_assoc]

/-- **The loop of `store_stream`**: what it received stays in the buffer as long as it fits. -/
theorem StreamState.foldl_read (inlineLimit : ℕ) (reads : List (List UInt8)) :
    ∀ buffer : List UInt8, buffer.length ≤ inlineLimit →
      reads.foldl (StreamState.read inlineLimit) ⟨buffer, none⟩ =
        if (buffer ++ reads.flatten).length ≤ inlineLimit then ⟨buffer ++ reads.flatten, none⟩
        else ⟨[], some (buffer ++ reads.flatten)⟩ := by
  induction reads with
  | nil =>
    intro buffer hfits
    rw [List.flatten_nil, List.append_nil, if_pos hfits]
    rfl
  | cons chunk reads ih =>
    intro buffer _
    rw [List.foldl_cons, List.flatten_cons, ← List.append_assoc]
    have hlength : (buffer ++ chunk).length = buffer.length + chunk.length := List.length_append
    by_cases hchunk : buffer.length + chunk.length ≤ inlineLimit
    · have hread : StreamState.read inlineLimit ⟨buffer, none⟩ chunk = ⟨buffer ++ chunk, none⟩ := by
        unfold StreamState.read
        exact if_pos hchunk
      rw [hread, ih _ (by omega)]
    · have hread : StreamState.read inlineLimit ⟨buffer, none⟩ chunk =
          ⟨[], some (buffer ++ chunk)⟩ := by
        unfold StreamState.read
        exact if_neg hchunk
      rw [hread, StreamState.foldl_spilled, if_neg]
      rw [List.length_append]
      omega

/-- The largest blob that may be inline. -/
def inlineLimit (cfg : BlobRuntimeConfig) : ℕ := min cfg.inlineMaxBytes cfg.requestHotBudgetBytes

theorem tryInlineReserve_of_large {runtime : BlobRuntime} {sizeBytes : ℕ}
    (h : inlineLimit runtime.cfg < sizeBytes) : runtime.tryInlineReserve sizeBytes = none := by
  unfold inlineLimit at h
  unfold tryInlineReserve
  rw [if_pos]
  simp only [Bool.or_eq_true, decide_eq_true_eq]
  omega

/-- **A stream is stored as its contents would be**, unless a final write fails that a stream
past the inline limit does not make. -/
theorem storeStream_eq (io : WriteOutcome) (reads : List (List UInt8)) (mimeType : String)
    (runtime : BlobRuntime) :
    runtime.storeStream io reads mimeType =
      runtime.storeBytes (if reads.flatten.length ≤ inlineLimit runtime.cfg then io else .completed)
        reads.flatten mimeType := by
  have hloop := StreamState.foldl_read (inlineLimit runtime.cfg) reads [] (Nat.zero_le _)
  rw [List.nil_append] at hloop
  unfold storeStream storeBytes takeId
  dsimp only
  unfold inlineLimit at hloop ⊢
  rw [hloop]
  by_cases hfits : reads.flatten.length ≤ min runtime.cfg.inlineMaxBytes runtime.cfg.requestHotBudgetBytes
  · rw [if_pos hfits, if_pos hfits]
  · have hlarge : tryInlineReserve { runtime with nextId := runtime.nextId + 1 } reads.flatten.length =
        none := tryInlineReserve_of_large (by unfold inlineLimit; exact Nat.lt_of_not_le hfits)
    rw [if_neg hfits, if_neg hfits]
    unfold storeBuffer
    rw [hlarge]

/-- **What is stored from a stream is what it delivered**, however it was split. -/
theorem storeStream_completed (reads : List (List UInt8)) (mimeType : String)
    (runtime : BlobRuntime) :
    ∃ handle runtime', runtime.storeStream .completed reads mimeType = (some handle, runtime') ∧
      runtime'.StoredAs handle reads.flatten ∧ runtime.Extends runtime' := by
  rw [storeStream_eq, ite_self]
  exact storeBytes_completed reads.flatten mimeType runtime

end BlobRuntime

end GeminiWorker
