import GeminiWorker.Proof.BlobRuntime
import GeminiWorker.Spec.ForwardBlobs

/-!
# The account of a call

Which blobs of a call are live, and that the hot bytes and the spill files of the call are
exactly theirs.

* `Account`: the invariant, for a list of live handles.
* `Adds.account`, `account_remove`: a store adds a handle, a removal takes one away.
* `Account.released_iff`: nothing is left if and only if no live handle holds anything.
-/

namespace GeminiWorker

namespace BlobRuntime

/-- What a handle counts against the hot budget. -/
def inlineSize (handle : BlobHandle) : ℕ :=
  match handle.storage with
  | .inline bytes => bytes.length
  | _ => 0

/-- A handle that holds neither hot bytes nor a file. -/
def HoldsNothing (handle : BlobHandle) : Prop :=
  inlineSize handle = 0 ∧ ∀ path, handle.storage ≠ .spilled path

/-- The hot bytes and the files of a call are those of its live handles. -/
structure Account (runtime : BlobRuntime) (live : List BlobHandle) : Prop where
  hot_eq : runtime.globalHotBytes = (live.map inlineSize).sum
  hot_lt : runtime.globalHotBytes < 2 ^ 64
  files_iff : ∀ path, (runtime.files path).isSome = true ↔ ∃ h ∈ live, h.storage = .spilled path
  path_eq : ∀ h ∈ live, ∀ path, h.storage = .spilled path → path = runtime.cfg.spillPath h.id
  id_lt : ∀ h ∈ live, h.id < runtime.nextId
  ids_nodup : (live.map BlobHandle.id).Nodup
  removed_lt : ∀ id ∈ runtime.removed, id < runtime.nextId
  not_removed : ∀ h ∈ live, h.id ∉ runtime.removed

/-- Nothing of the call is left: no hot bytes and no file. -/
def Released (runtime : BlobRuntime) : Prop :=
  runtime.globalHotBytes = 0 ∧ ∀ path, runtime.files path = none

/-- **Nothing is left if and only if no live handle holds anything.** -/
theorem Account.released_iff {runtime : BlobRuntime} {live : List BlobHandle}
    (h : runtime.Account live) : runtime.Released ↔ ∀ handle ∈ live, HoldsNothing handle := by
  unfold Released
  rw [h.hot_eq, List.sum_eq_zero_iff_forall_eq_nat]
  constructor
  · rintro ⟨hhot, hfiles⟩ handle hlive
    refine ⟨hhot _ (List.mem_map_of_mem hlive), fun path hpath => ?_⟩
    have hfile := (h.files_iff path).2 ⟨handle, hlive, hpath⟩
    rw [hfiles path] at hfile
    cases hfile
  · intro hnothing
    constructor
    · intro size hsize
      obtain ⟨handle, hlive, rfl⟩ := List.mem_map.1 hsize
      exact (hnothing handle hlive).1
    · intro path
      by_contra hne
      obtain ⟨handle, hlive, hpath⟩ := (h.files_iff path).1 (Option.isSome_iff_ne_none.2 hne)
      exact (hnothing handle hlive).2 path hpath

/-- One handle more: its id is the next one, and what it holds is added. -/
structure Adds (runtime : BlobRuntime) (handle : BlobHandle) (runtime' : BlobRuntime) : Prop where
  cfg_eq : runtime'.cfg = runtime.cfg
  id_eq : handle.id = runtime.nextId
  nextId_eq : runtime'.nextId = runtime.nextId + 1
  removed_eq : runtime'.removed = runtime.removed
  hot_eq : runtime'.globalHotBytes = runtime.globalHotBytes + inlineSize handle
  hot_lt : runtime'.globalHotBytes < 2 ^ 64
  files_iff : ∀ path, (runtime'.files path).isSome = true ↔
    (runtime.files path).isSome = true ∨ handle.storage = .spilled path
  path_eq : ∀ path, handle.storage = .spilled path → path = runtime.cfg.spillPath handle.id

theorem Adds.account {runtime runtime' : BlobRuntime} {handle : BlobHandle} {live : List BlobHandle}
    (hadds : runtime.Adds handle runtime') (h : runtime.Account live) :
    runtime'.Account (handle :: live) := by
  refine ⟨?_, hadds.hot_lt, ?_, ?_, ?_, ?_, ?_, ?_⟩
  · rw [hadds.hot_eq, h.hot_eq, List.map_cons, List.sum_cons, Nat.add_comm]
  · intro path
    rw [hadds.files_iff, h.files_iff, List.exists_mem_cons_iff]
    exact or_comm
  · intro g hg path hpath
    rw [hadds.cfg_eq]
    rcases List.mem_cons.1 hg with rfl | hg
    · exact hadds.path_eq path hpath
    · exact h.path_eq g hg path hpath
  · intro g hg
    rw [hadds.nextId_eq]
    rcases List.mem_cons.1 hg with rfl | hg
    · have := hadds.id_eq
      omega
    · have := h.id_lt g hg
      omega
  · refine List.nodup_cons.2 ⟨fun hmem => ?_, h.ids_nodup⟩
    obtain ⟨g, hg, hid⟩ := List.mem_map.1 hmem
    have hlt := h.id_lt g hg
    have heq := hadds.id_eq
    omega
  · intro id hid
    rw [hadds.removed_eq] at hid
    rw [hadds.nextId_eq]
    have := h.removed_lt id hid
    omega
  · intro g hg hremoved
    rw [hadds.removed_eq] at hremoved
    rcases List.mem_cons.1 hg with rfl | hg
    · have hlt := h.removed_lt _ hremoved
      have heq := hadds.id_eq
      omega
    · exact h.not_removed g hg hremoved

/-! ## Stores -/

/-- Whether `try_inline_reserve` succeeds on a counter that shows `hot` bytes. -/
def Reservable (cfg : BlobRuntimeConfig) (hot size : ℕ) : Prop :=
  size ≤ inlineLimit cfg ∧ hot + size < 2 ^ 64 ∧ hot + size ≤ cfg.globalHotBudgetBytes

instance (cfg : BlobRuntimeConfig) (hot size : ℕ) : Decidable (Reservable cfg hot size) :=
  inferInstanceAs (Decidable (_ ∧ _ ∧ _))

theorem tryInlineReserve_eq (runtime : BlobRuntime) (size : ℕ) :
    runtime.tryInlineReserve size =
      if Reservable runtime.cfg runtime.globalHotBytes size then
        some { runtime with globalHotBytes := runtime.globalHotBytes + size }
      else none := by
  have hiff : Reservable runtime.cfg runtime.globalHotBytes size ↔
      size ≤ runtime.cfg.inlineMaxBytes ∧ size ≤ runtime.cfg.requestHotBudgetBytes ∧
        runtime.globalHotBytes + size < 2 ^ 64 ∧
        runtime.globalHotBytes + size ≤ runtime.cfg.globalHotBudgetBytes := by
    unfold Reservable inlineLimit
    omega
  unfold tryInlineReserve
  simp only [Bool.or_eq_true, decide_eq_true_eq]
  split
  · rw [if_neg (fun h => by have := hiff.1 h; omega)]
  split
  · rw [if_neg (fun h => by have := hiff.1 h; omega)]
  split
  · rw [if_neg (fun h => by have := hiff.1 h; omega)]
  · rw [if_pos (hiff.2 (by omega))]

/-- What a store of `bytes` under `id` leaves: its handle, or one that stands for the rest
of a failed write. -/
def storedHandle (cfg : BlobRuntimeConfig) (hot id : ℕ) (io : WriteOutcome) (bytes : List UInt8)
    (mimeType : String) : BlobHandle :=
  ⟨id, ⟨mimeType, bytes.length⟩,
    if Reservable cfg hot bytes.length then .inline bytes
    else match io with
      | .completed | .failed (some _) => .spilled (cfg.spillPath id)
      | .failed none => .shared []⟩

/-- A file under the next id is added. -/
theorem adds_spilled {runtime runtime' : BlobRuntime} {handle : BlobHandle} {bytes : List UInt8}
    (hid : handle.id = runtime.nextId)
    (hstorage : handle.storage = .spilled (runtime.cfg.spillPath runtime.nextId))
    (hlt : runtime.globalHotBytes < 2 ^ 64) (hcfg : runtime'.cfg = runtime.cfg)
    (hnext : runtime'.nextId = runtime.nextId + 1) (hremoved : runtime'.removed = runtime.removed)
    (hhot : runtime'.globalHotBytes = runtime.globalHotBytes)
    (hfiles : runtime'.files =
      Function.update runtime.files (runtime.cfg.spillPath runtime.nextId) (some bytes)) :
    runtime.Adds handle runtime' := by
  refine ⟨hcfg, hid, hnext, hremoved, ?_, by omega, fun path => ?_, fun path hpath => ?_⟩
  · unfold inlineSize
    rw [hstorage, hhot]
    rfl
  · rw [hfiles, hstorage, BlobStorage.spilled.injEq]
    by_cases hpath : path = runtime.cfg.spillPath runtime.nextId
    · subst hpath
      simp
    · rw [Function.update_of_ne hpath]
      exact ⟨Or.inl, fun h => h.resolve_right fun he => hpath he.symm⟩
  · rw [hstorage] at hpath
    rw [hid]
    exact (BlobStorage.spilled.inj hpath).symm

/-- A handle that holds nothing is added. -/
theorem adds_shared {runtime runtime' : BlobRuntime} {handle : BlobHandle} {bytes : List UInt8}
    (hid : handle.id = runtime.nextId) (hstorage : handle.storage = .shared bytes)
    (hlt : runtime.globalHotBytes < 2 ^ 64) (hcfg : runtime'.cfg = runtime.cfg)
    (hnext : runtime'.nextId = runtime.nextId + 1) (hremoved : runtime'.removed = runtime.removed)
    (hhot : runtime'.globalHotBytes = runtime.globalHotBytes)
    (hfiles : runtime'.files = runtime.files) : runtime.Adds handle runtime' := by
  refine ⟨hcfg, hid, hnext, hremoved, ?_, by omega, fun path => ?_, fun path hpath => ?_⟩
  · unfold inlineSize
    rw [hstorage, hhot]
    rfl
  · rw [hfiles, hstorage]
    simp
  · rw [hstorage] at hpath
    cases hpath

/-- **A store adds one handle**, which it returns unless its write fails. -/
theorem amid_storeBytes (others : ℕ) (io : WriteOutcome) (bytes : List UInt8) (mimeType : String)
    {runtime : BlobRuntime} (hlt : runtime.globalHotBytes < 2 ^ 64) :
    ∃ runtime', runtime.amid others (storeBytes io bytes mimeType) =
        (if Reservable runtime.cfg (runtime.globalHotBytes + others) bytes.length ∨ io = .completed then
          some (storedHandle runtime.cfg (runtime.globalHotBytes + others) runtime.nextId io bytes mimeType)
        else none, runtime') ∧
      runtime.Adds (storedHandle runtime.cfg (runtime.globalHotBytes + others) runtime.nextId io bytes
        mimeType) runtime' := by
  unfold amid storeBytes storeBuffer takeId
  dsimp only
  rw [tryInlineReserve_eq]
  dsimp only
  by_cases hfits : Reservable runtime.cfg (runtime.globalHotBytes + others) bytes.length
  · have hhandle : (storedHandle runtime.cfg (runtime.globalHotBytes + others) runtime.nextId io
        bytes mimeType).storage = .inline bytes := if_pos hfits
    rw [if_pos hfits, if_pos (Or.inl hfits)]
    refine ⟨_, Prod.ext (congrArg some ?_) rfl, ?_⟩
    · unfold storedHandle
      rw [if_pos hfits]
    · have hsum := hfits.2.1
      refine ⟨rfl, rfl, rfl, rfl, ?_, ?_, fun path => ?_, fun path hpath => ?_⟩
      · unfold inlineSize
        rw [hhandle]
        dsimp only
        omega
      · dsimp only
        omega
      · rw [hhandle]
        simp
      · rw [hhandle] at hpath
        cases hpath
  · have hback := Nat.add_sub_cancel runtime.globalHotBytes others
    rw [if_neg hfits]
    cases io with
    | completed =>
      rw [if_pos (Or.inr rfl)]
      refine ⟨_, Prod.ext (congrArg some ?_) rfl, ?_⟩
      · unfold storedHandle
        rw [if_neg hfits]
      · exact adds_spilled rfl (if_neg hfits) hlt rfl rfl rfl hback rfl
    | failed left =>
      have hnone : ¬ (Reservable runtime.cfg (runtime.globalHotBytes + others) bytes.length ∨
          WriteOutcome.failed left = .completed) := by simp [hfits]
      rw [if_neg hnone]
      refine ⟨_, rfl, ?_⟩
      cases left with
      | none => exact adds_shared rfl (if_neg hfits) hlt rfl rfl rfl hback rfl
      | some left => exact adds_spilled rfl (if_neg hfits) hlt rfl rfl rfl hback rfl

/-! ## Removals -/

theorem Account.perm {runtime : BlobRuntime} {live live' : List BlobHandle}
    (h : runtime.Account live) (hperm : live.Perm live') : runtime.Account live' := by
  refine ⟨?_, h.hot_lt, fun path => ?_, fun g hg => h.path_eq g (hperm.mem_iff.2 hg),
    fun g hg => h.id_lt g (hperm.mem_iff.2 hg), (hperm.map _).nodup_iff.1 h.ids_nodup, h.removed_lt,
    fun g hg => h.not_removed g (hperm.mem_iff.2 hg)⟩
  · rw [h.hot_eq]
    exact (hperm.map inlineSize).sum_nat
  · rw [h.files_iff]
    constructor
    · rintro ⟨g, hg, hpath⟩
      exact ⟨g, hperm.mem_iff.1 hg, hpath⟩
    · rintro ⟨g, hg, hpath⟩
      exact ⟨g, hperm.mem_iff.2 hg, hpath⟩

theorem releaseInlineBytes_eq {runtime : BlobRuntime} {size : ℕ} (hle : size ≤ runtime.globalHotBytes)
    (hlt : runtime.globalHotBytes < 2 ^ 64) :
    runtime.releaseInlineBytes size = { runtime with globalHotBytes := runtime.globalHotBytes - size } := by
  unfold releaseInlineBytes
  have hsize : size % 2 ^ 64 = size := Nat.mod_eq_of_lt (by omega)
  have hwrap : runtime.globalHotBytes + (2 ^ 64 - size) = runtime.globalHotBytes - size + 2 ^ 64 := by
    omega
  rw [hsize, hwrap, Nat.add_mod_right, Nat.mod_eq_of_lt (by omega)]

/-- The spill file of a live handle is no other's. -/
theorem Account.path_ne {runtime : BlobRuntime} {handle other : BlobHandle} {rest : List BlobHandle}
    (h : runtime.Account (handle :: rest)) (hother : other ∈ rest) {path path' : String}
    (hpath : handle.storage = .spilled path) (hpath' : other.storage = .spilled path') :
    path' ≠ path := by
  intro heq
  have h1 := h.path_eq handle (List.mem_cons_self ..) path hpath
  have h2 := h.path_eq other (List.mem_cons_of_mem _ hother) path' hpath'
  have hid : other.id = handle.id :=
    runtime.cfg.spillPath_injective (by rw [← h1, ← h2, heq])
  have hnotin := (List.nodup_cons.1 h.ids_nodup).1
  rw [← hid] at hnotin
  exact hnotin (List.mem_map_of_mem hother)

/-- **A removal takes one handle away**, with what it holds. -/
theorem Account.remove {runtime : BlobRuntime} {handle : BlobHandle} {rest : List BlobHandle}
    (h : runtime.Account (handle :: rest)) :
    ∃ runtime', runtime.remove false handle = (true, runtime') ∧ runtime'.Account rest ∧
      runtime'.removed = handle.id :: runtime.removed := by
  have hnotin := h.not_removed handle (List.mem_cons_self ..)
  have hids := List.nodup_cons.1 h.ids_nodup
  have hhot := h.hot_eq
  rw [List.map_cons, List.sum_cons] at hhot
  have hlt := h.hot_lt
  have hremoved_lt : ∀ id ∈ handle.id :: runtime.removed, id < runtime.nextId := by
    intro id hid
    rcases List.mem_cons.1 hid with rfl | hid
    · exact h.id_lt handle (List.mem_cons_self ..)
    · exact h.removed_lt id hid
  have hnot_removed : ∀ g ∈ rest, g.id ∉ handle.id :: runtime.removed := by
    intro g hg hmem
    rcases List.mem_cons.1 hmem with heq | hmem
    · exact hids.1 (heq ▸ List.mem_map_of_mem hg)
    · exact h.not_removed g (List.mem_cons_of_mem _ hg) hmem
  have hpaths : ∀ g ∈ rest, ∀ path, g.storage = .spilled path → path = runtime.cfg.spillPath g.id :=
    fun g hg => h.path_eq g (List.mem_cons_of_mem _ hg)
  have hids_lt : ∀ g ∈ rest, g.id < runtime.nextId := fun g hg => h.id_lt g (List.mem_cons_of_mem _ hg)
  -- the files of the rest, where the handle has none
  have hfiles : (∀ path, handle.storage ≠ .spilled path) → ∀ path,
      (runtime.files path).isSome = true ↔ ∃ g ∈ rest, g.storage = .spilled path := by
    intro hnone path
    rw [h.files_iff, List.exists_mem_cons_iff]
    exact or_iff_right (hnone path)
  unfold BlobRuntime.remove
  rw [if_neg hnotin]
  dsimp only
  cases hs : handle.storage with
  | inline bytes =>
    have hsize : inlineSize handle = bytes.length := by
      unfold inlineSize
      rw [hs]
    dsimp only
    have hle : bytes.length ≤ runtime.globalHotBytes := by omega
    rw [@releaseInlineBytes_eq { runtime with removed := handle.id :: runtime.removed } _ hle hlt]
    refine ⟨_, rfl, ⟨?_, ?_, hfiles (by simp [hs]), hpaths, hids_lt, hids.2, hremoved_lt,
      hnot_removed⟩, rfl⟩
    · dsimp only
      omega
    · dsimp only
      omega
  | shared bytes =>
    have hsize : inlineSize handle = 0 := by
      unfold inlineSize
      rw [hs]
    refine ⟨_, rfl, ⟨?_, hlt, hfiles (by simp [hs]), hpaths, hids_lt, hids.2, hremoved_lt,
      hnot_removed⟩, rfl⟩
    dsimp only
    omega
  | spilled path =>
    have hsize : inlineSize handle = 0 := by
      unfold inlineSize
      rw [hs]
    dsimp only
    rw [Bool.and_false, if_neg Bool.false_ne_true]
    refine ⟨_, rfl, ⟨?_, hlt, fun path' => ?_, hpaths, hids_lt, hids.2, hremoved_lt,
      hnot_removed⟩, rfl⟩
    · dsimp only
      omega
    · dsimp only
      by_cases hpath : path' = path
      · subst hpath
        rw [Function.update_self]
        refine iff_of_false (by simp) ?_
        rintro ⟨g, hg, hgpath⟩
        exact h.path_ne hg hs hgpath rfl
      · rw [Function.update_of_ne hpath, h.files_iff, List.exists_mem_cons_iff, hs]
        exact or_iff_right fun he => hpath (BlobStorage.spilled.inj he).symm

/-- **A removal that does not delete the file** of its handle. -/
theorem Account.remove_fails {runtime : BlobRuntime} {handle : BlobHandle} {rest : List BlobHandle}
    (h : runtime.Account (handle :: rest)) {path : String} (hs : handle.storage = .spilled path) :
    runtime.remove true handle = (false, { runtime with removed := handle.id :: runtime.removed }) := by
  have hfile : (runtime.files path).isSome = true :=
    (h.files_iff path).2 ⟨handle, List.mem_cons_self .., hs⟩
  unfold BlobRuntime.remove
  rw [if_neg (h.not_removed handle (List.mem_cons_self ..)), hs]
  dsimp only
  rw [hfile]
  rfl

/-- Whether the deletion of the file of a handle fails is no matter if it has none. -/
theorem remove_of_not_spilled (removeFails : Bool) (runtime : BlobRuntime) {handle : BlobHandle}
    (hs : ∀ path, handle.storage ≠ .spilled path) :
    runtime.remove removeFails handle = runtime.remove false handle := by
  unfold BlobRuntime.remove
  cases h : handle.storage with
  | inline bytes => rfl
  | shared bytes => rfl
  | spilled path => exact absurd h (hs path)

end BlobRuntime

end GeminiWorker
