import GeminiWorker.Proof.BlobSteps

/-!
# The hot memory of a blob runtime

* `BlobProcess.HotAccount`: the counter is what the inline blobs and the reservations hold.
* `Takes.hotAccount`: every step of an operation keeps the account.
* `hotBytes_accounted`: it holds in every state that is reached.
-/

namespace GeminiWorker

open Transition (Reach Any sum_map_set le_sum_map)

def BlobStorage.inlineBytes : BlobStorage → ℕ
  | .inline bytes => bytes.length
  | _ => 0

/-- What a blob holds inline until its `removed` flag is set. -/
def StoredBlob.hotBytes (stored : StoredBlob) : ℕ :=
  if stored.removed then 0 else stored.handle.storage.inlineBytes

/-- What a removal is about to give back. -/
def BlobCall.releasingBytes : BlobCall → ℕ
  | .releasing sizeBytes => sizeBytes
  | _ => 0

/-- What a store has reserved for a blob that has no handle yet. -/
def BlobCall.reservedBytes : BlobCall → ℕ
  | .reserved _ bytes => bytes.length
  | _ => 0

namespace BlobProcess

/-- The bytes of the inline blobs that are stored and not yet removed; a removal is complete
once it has given the bytes back. -/
def storedBytes (process : BlobProcess) : ℕ :=
  (process.blobs.map StoredBlob.hotBytes).sum + (process.calls.map BlobCall.releasingBytes).sum

/-- The bytes of the reservations in progress. -/
def reservedBytes (process : BlobProcess) : ℕ := (process.calls.map BlobCall.reservedBytes).sum

structure HotAccount (process : BlobProcess) : Prop where
  sum : process.globalHotBytes = process.storedBytes + process.reservedBytes
  le_budget : process.globalHotBytes ≤ process.cfg.globalHotBudgetBytes
  lt_word : process.globalHotBytes < 2 ^ 64
  /-- What a store is about to exchange is within the budget. -/
  exchanging : ∀ args bytes current, .exchanging args bytes current ∈ process.calls →
    current + bytes.length ≤ process.cfg.globalHotBudgetBytes ∧ current + bytes.length < 2 ^ 64

theorem hotAccount_new (cfg : BlobRuntimeConfig) : (new cfg).HotAccount where
  sum := rfl
  le_budget := Nat.zero_le _
  lt_word := by
    show 0 < 2 ^ 64
    decide
  exchanging args bytes current h := by cases h

variable {process : BlobProcess}

theorem storedBytes_begin (call : BlobCall) :
    (process.begin call).storedBytes = process.storedBytes + call.releasingBytes := by
  simp only [storedBytes, begin, List.map_append, List.sum_append, List.map_cons, List.map_nil,
    List.sum_cons, List.sum_nil]
  omega

theorem reservedBytes_begin (call : BlobCall) :
    (process.begin call).reservedBytes = process.reservedBytes + call.reservedBytes := by
  simp only [reservedBytes, begin, List.map_append, List.sum_append, List.map_cons, List.map_nil,
    List.sum_cons, List.sum_nil]
  omega

theorem storedBytes_goOn {call : ℕ} {old : BlobCall} (hcall : process.calls[call]? = some old)
    (next : BlobCall) : (process.goOn call next).storedBytes + old.releasingBytes =
      process.storedBytes + next.releasingBytes := by
  have hsum := sum_map_set BlobCall.releasingBytes hcall next
  simp only [storedBytes, goOn]
  omega

theorem reservedBytes_goOn {call : ℕ} {old : BlobCall} (hcall : process.calls[call]? = some old)
    (next : BlobCall) : (process.goOn call next).reservedBytes + old.reservedBytes =
      process.reservedBytes + next.reservedBytes :=
  sum_map_set BlobCall.reservedBytes hcall next

theorem storedBytes_buildHandle (args : StoreArgs) (sizeBytes : ℕ) (storage : BlobStorage)
    (content : List UInt8) : (process.buildHandle args sizeBytes storage content).storedBytes =
      process.storedBytes + storage.inlineBytes := by
  simp only [storedBytes, buildHandle, List.map_append, List.sum_append, List.map_cons, List.map_nil,
    List.sum_cons, List.sum_nil, StoredBlob.hotBytes]
  simp only [Bool.false_eq_true, if_false]
  omega

theorem storedBytes_setRemoved {blob : ℕ} {stored : StoredBlob}
    (hblob : process.blobs[blob]? = some stored) (hlive : stored.removed = false) :
    (process.setRemoved blob stored).storedBytes + stored.handle.storage.inlineBytes =
      process.storedBytes := by
  have hsum := sum_map_set StoredBlob.hotBytes hblob { stored with removed := true }
  simp only [StoredBlob.hotBytes, hlive, if_true, Bool.false_eq_true, if_false] at hsum
  simp only [storedBytes, setRemoved]
  omega

/-- A step of the loop that moves on gives nothing back and reserves nothing. -/
theorem moves_hotBytes {disk : Disk} {old new : BlobCall} (h : old.Moves process disk new) :
    old.releasingBytes = 0 ∧ new.releasingBytes = 0 ∧ old.reservedBytes = 0 ∧ new.reservedBytes = 0 := by
  cases h <;> exact ⟨rfl, rfl, rfl, rfl⟩

theorem begins_hotBytes {disk : Disk} {call : BlobCall} (h : call.Begins process disk) :
    call.releasingBytes = 0 ∧ call.reservedBytes = 0 := by
  cases h <;> exact ⟨rfl, rfl⟩

theorem begins_ne_exchanging {disk : Disk} {args : StoreArgs} {bytes : List UInt8} {current : ℕ} :
    ¬ (BlobCall.exchanging args bytes current).Begins process disk := by
  intro h
  cases h

/-- The subtraction does not wrap around where there is enough to subtract from. -/
theorem sub_wrap {total sizeBytes : ℕ} (hle : sizeBytes ≤ total) (hlt : total < 2 ^ 64) :
    (total + (2 ^ 64 - sizeBytes % 2 ^ 64)) % 2 ^ 64 = total - sizeBytes := by
  rw [Nat.mod_eq_of_lt (show sizeBytes < 2 ^ 64 by omega)]
  omega

/-- What is exchanged after a step was exchanged before it, or was just loaded. -/
theorem exchanging_goOn {P : StoreArgs → List UInt8 → ℕ → Prop} {call : ℕ} {next : BlobCall}
    (hold : ∀ args bytes current, .exchanging args bytes current ∈ process.calls → P args bytes current)
    (hnext : ∀ args bytes current, next = .exchanging args bytes current → P args bytes current) :
    ∀ args bytes current, .exchanging args bytes current ∈ (process.goOn call next).calls →
      P args bytes current := by
  intro args bytes current hmem
  rcases List.mem_or_eq_of_mem_set hmem with h | h
  · exact hold _ _ _ h
  · exact hnext _ _ _ h.symm

/-- An operation that goes on with as many bytes as before leaves the account as it is. -/
theorem HotAccount.goOn (hacc : process.HotAccount) {call : ℕ} {old next : BlobCall}
    (hcall : process.calls[call]? = some old) (hreleasing : next.releasingBytes = old.releasingBytes)
    (hreserved : next.reservedBytes = old.reservedBytes)
    (hnext : ∀ args bytes current, next = .exchanging args bytes current →
      current + bytes.length ≤ process.cfg.globalHotBudgetBytes ∧ current + bytes.length < 2 ^ 64) :
    (process.goOn call next).HotAccount where
  sum := by
    have hsum := hacc.sum
    have hstored := storedBytes_goOn hcall next
    have hres := reservedBytes_goOn hcall next
    show process.globalHotBytes = _
    omega
  le_budget := hacc.le_budget
  lt_word := hacc.lt_word
  exchanging := exchanging_goOn hacc.exchanging hnext

/-- Neither does an operation that begins without any. -/
theorem HotAccount.begin (hacc : process.HotAccount) {call : BlobCall} (hreleasing : call.releasingBytes = 0)
    (hreserved : call.reservedBytes = 0) (hnot : ∀ args bytes current, call ≠ .exchanging args bytes current) :
    (process.begin call).HotAccount where
  sum := by
    rw [storedBytes_begin, reservedBytes_begin, hreleasing, hreserved]
    exact hacc.sum
  le_budget := hacc.le_budget
  lt_word := hacc.lt_word
  exchanging args bytes current hmem := by
    rcases List.mem_append.mp hmem with hmem | hmem
    · exact hacc.exchanging _ _ _ hmem
    · exact absurd (List.mem_singleton.mp hmem).symm (hnot args bytes current)

theorem HotAccount.buildHandle (hacc : process.HotAccount) {args : StoreArgs} {sizeBytes : ℕ}
    {storage : BlobStorage} {content : List UInt8} (hstorage : storage.inlineBytes = 0) :
    (process.buildHandle args sizeBytes storage content).HotAccount where
  sum := by
    rw [storedBytes_buildHandle, hstorage]
    exact hacc.sum
  le_budget := hacc.le_budget
  lt_word := hacc.lt_word
  exchanging := hacc.exchanging

theorem HotAccount.setRemoved (hacc : process.HotAccount) {blob : ℕ} {stored : StoredBlob}
    (hblob : process.blobs[blob]? = some stored) (hlive : stored.removed = false)
    (hstorage : stored.handle.storage.inlineBytes = 0) : (process.setRemoved blob stored).HotAccount where
  sum := by
    have hflag := storedBytes_setRemoved hblob hlive
    rw [hstorage, Nat.add_zero] at hflag
    rw [hflag]
    exact hacc.sum
  le_budget := hacc.le_budget
  lt_word := hacc.lt_word
  exchanging := hacc.exchanging

/-- **Every step keeps the account.** -/
theorem Takes.hotAccount {disk disk' : Disk} {process' : BlobProcess} {event : BlobEvent}
    (h : Takes disk process event disk' process') (hacc : process.HotAccount) : process'.HotAccount := by
  have hsum := hacc.sum
  have hle := hacc.le_budget
  have hlt := hacc.lt_word
  cases h with
  | @begins _ call nextId hbegins =>
    have hacc' : ({ process with nextId } : BlobProcess).HotAccount := ⟨hsum, hle, hlt, hacc.exchanging⟩
    obtain ⟨hreleasing, hreserved⟩ := begins_hotBytes hbegins
    refine hacc'.begin hreleasing hreserved fun args bytes current heq => ?_
    rw [heq] at hbegins
    exact begins_ne_exchanging hbegins
  | @moves _ call old new hcall hmoves =>
    obtain ⟨hold₁, hnew₁, hold₂, hnew₂⟩ := moves_hotBytes hmoves
    refine hacc.goOn hcall (hnew₁.trans hold₁.symm) (hnew₂.trans hold₂.symm) fun args bytes current hnew => ?_
    subst hnew
    cases hmoves with
    | loads args bytes _ _ hword hglobal => exact ⟨hglobal, hword⟩
  | storesShared args bytes =>
    have hacc' : process.takeId.HotAccount := ⟨hsum, hle, hlt, hacc.exchanging⟩
    exact hacc'.buildHandle rfl
  | @reserves call args bytes hcall =>
    -- The counter grows by the bytes that the operation now holds.
    obtain ⟨hglobal, hword⟩ := hacc.exchanging _ _ _ (List.mem_of_getElem? hcall)
    have hstored := @storedBytes_goOn { process with globalHotBytes := process.globalHotBytes + bytes.length }
      call _ hcall (.reserved args bytes)
    have hres := @reservedBytes_goOn { process with globalHotBytes := process.globalHotBytes + bytes.length }
      call _ hcall (.reserved args bytes)
    simp only [BlobCall.releasingBytes, BlobCall.reservedBytes, Nat.add_zero] at hstored hres
    refine ⟨?_, hglobal, hword, exchanging_goOn hacc.exchanging fun args bytes current hnew => by cases hnew⟩
    rw [hstored, hres]
    show process.globalHotBytes + bytes.length = process.storedBytes + (process.reservedBytes + bytes.length)
    omega
  | @builds call args bytes hcall =>
    -- The handle takes over what the operation held.
    have hbuilt := @storedBytes_buildHandle process args bytes.length (.inline bytes) bytes
    have hstored := @storedBytes_goOn (process.buildHandle args bytes.length (.inline bytes) bytes) call _ hcall
      .ended
    have hres := @reservedBytes_goOn (process.buildHandle args bytes.length (.inline bytes) bytes) call _ hcall
      .ended
    simp only [BlobCall.releasingBytes, BlobCall.reservedBytes, Nat.add_zero, BlobStorage.inlineBytes]
      at hstored hres hbuilt
    have hsame : (process.buildHandle args bytes.length (.inline bytes) bytes).reservedBytes =
        process.reservedBytes := rfl
    refine ⟨?_, hle, hlt, exchanging_goOn hacc.exchanging fun args bytes current hnew => by cases hnew⟩
    show process.globalHotBytes = _
    omega
  | creates hcall | writes hcall | deletes hcall => exact hacc.goOn hcall rfl rfl fun _ _ _ hnew => by cases hnew
  | @finishes _ call args file written stream sizeBytes hcall =>
    have hacc' : (process.recordSpill sizeBytes).HotAccount := ⟨hsum, hle, hlt, hacc.exchanging⟩
    have hbuilt : ((process.recordSpill sizeBytes).buildHandle args sizeBytes
        (.spilled (process.cfg.spillPath args.id)) written).HotAccount := hacc'.buildHandle rfl
    exact hbuilt.goOn hcall rfl rfl fun _ _ _ hnew => by cases hnew
  | removesAgain => exact hacc
  | @removesInline blob stored bytes hblob hlive hstorage =>
    -- The operation that gives the bytes back takes them over from the handle.
    have hflag := storedBytes_setRemoved hblob hlive
    have hstored := @storedBytes_begin (process.setRemoved blob stored) (.releasing bytes.length)
    have hres := @reservedBytes_begin (process.setRemoved blob stored) (.releasing bytes.length)
    rw [hstorage] at hflag
    simp only [BlobCall.releasingBytes, BlobCall.reservedBytes, Nat.add_zero, BlobStorage.inlineBytes]
      at hstored hres hflag
    refine ⟨?_, hle, hlt, fun args bytes current hmem => ?_⟩
    · rw [hstored, hres]
      show process.globalHotBytes = _ + process.reservedBytes
      omega
    · rcases List.mem_append.mp hmem with hmem | hmem
      · exact hacc.exchanging _ _ _ hmem
      · cases List.mem_singleton.mp hmem
  | removesShared hblob hlive hstorage => exact hacc.setRemoved hblob hlive (by rw [hstorage]; rfl)
  | removesSpilled hblob hlive hstorage =>
    have hflag := hacc.setRemoved hblob hlive (by rw [hstorage]; rfl)
    exact hflag.begin rfl rfl fun _ _ _ heq => by cases heq
  | @releases call sizeBytes hcall =>
    have hsize : sizeBytes ≤ process.globalHotBytes := by
      have hmem := le_sum_map BlobCall.releasingBytes hcall
      rw [hsum]
      simp only [BlobCall.releasingBytes, storedBytes] at hmem ⊢
      omega
    have hstored := @storedBytes_goOn (process.releaseInlineBytes sizeBytes) call _ hcall .ended
    have hres := @reservedBytes_goOn (process.releaseInlineBytes sizeBytes) call _ hcall .ended
    simp only [BlobCall.releasingBytes, BlobCall.reservedBytes, Nat.add_zero] at hstored hres
    have hcounter : ((process.releaseInlineBytes sizeBytes).goOn call .ended).globalHotBytes =
        process.globalHotBytes - sizeBytes := sub_wrap hsize hlt
    have hsame : (process.releaseInlineBytes sizeBytes).storedBytes = process.storedBytes := rfl
    have hsame' : (process.releaseInlineBytes sizeBytes).reservedBytes = process.reservedBytes := rfl
    refine ⟨?_, ?_, ?_, exchanging_goOn hacc.exchanging fun args bytes current hnew => by cases hnew⟩
    · rw [hcounter, hres, hsame']
      omega
    · rw [hcounter]
      show _ ≤ process.cfg.globalHotBudgetBytes
      omega
    · rw [hcounter]
      omega

end BlobProcess

/-- The account of every process holds in every state that is reached. -/
theorem hotAccount_of_reach {disk : Disk} {cfgs : List BlobRuntimeConfig} {world : BlobWorld}
    (h : Reach BlobWorld.step Any (BlobWorld.new disk cfgs) world) :
    ∀ process ∈ world.processes, process.HotAccount := by
  apply h.invariant
  · intro process hprocess
    obtain ⟨cfg, -, rfl⟩ := List.mem_map.mp hprocess
    exact BlobProcess.hotAccount_new cfg
  · intro world event world' hinv _ hstep
    obtain ⟨process, process', hprocess, htakes, hprocesses⟩ := BlobWorld.step_takes hstep
    intro other hother
    rw [hprocesses] at hother
    rcases List.mem_or_eq_of_mem_set hother with hold | rfl
    · exact hinv other hold
    · exact htakes.hotAccount (hinv process (List.mem_of_getElem? hprocess))

/-- **The hot-memory counter is what the inline blobs and the reservations hold**, it stays
within the budget, and a release never takes more than there is. -/
theorem hotBytes_accounted {disk : Disk} {cfgs : List BlobRuntimeConfig} {world : BlobWorld}
    (h : Reach BlobWorld.step Any (BlobWorld.new disk cfgs) world) (process : BlobProcess)
    (hprocess : process ∈ world.processes) :
    process.globalHotBytes = process.storedBytes + process.reservedBytes ∧
      process.globalHotBytes ≤ process.cfg.globalHotBudgetBytes ∧
      ∀ sizeBytes, .releasing sizeBytes ∈ process.calls → sizeBytes ≤ process.globalHotBytes := by
  have hacc := hotAccount_of_reach h process hprocess
  refine ⟨hacc.sum, hacc.le_budget, fun sizeBytes hmem => ?_⟩
  obtain ⟨call, hcall⟩ := List.getElem?_of_mem hmem
  have hle := le_sum_map BlobCall.releasingBytes hcall
  have hsum := hacc.sum
  simp only [BlobCall.releasingBytes, BlobProcess.storedBytes] at hle hsum
  omega

/-- A blob of which the removal has begun, while another is about to be built. -/
theorem hotBytes_example : ∃ world : BlobWorld, ∃ process ∈ world.processes,
    process.globalHotBytes = process.storedBytes + process.reservedBytes ∧
      process.globalHotBytes = 5 ∧ process.storedBytes = 2 := by
  let events : List (ℕ × BlobEvent) := [(0, .storeBytes 0 [1, 2] "image/png"), (0, .load 0),
    (0, .compareExchange 0), (0, .build 0), (0, .remove 0), (0, .storeBytes 0 [3, 4, 5] "image/png"),
    (0, .load 2), (0, .compareExchange 2)]
  let stored : StoredBlob := ⟨⟨1, ⟨"image/png", 2⟩, .inline [1, 2]⟩, [1, 2], 0, true⟩
  let process : BlobProcess := ⟨⟨8, 8, 16, "spill"⟩, 3, 5, 0, 0, [stored],
    [.ended, .releasing 2, .reserved ⟨2, 0, "image/png"⟩ [3, 4, 5]]⟩
  have hrun : Transition.run BlobWorld.step (BlobWorld.new Disk.empty [⟨8, 8, 16, "spill"⟩]) events =
      some ⟨Disk.empty, [process]⟩ := rfl
  refine ⟨⟨Disk.empty, [process]⟩, process, List.mem_cons_self, ?_, rfl, rfl⟩
  exact (hotBytes_accounted (Transition.run_reach hrun) process List.mem_cons_self).1

end GeminiWorker
