import GeminiWorker.Proof.BlobHot

/-!
# What one request holds inline

The reservation looks at one blob at a time, and no blob knows its request.

* `BlobProcess.InlineFits`: each inline blob is within the limits of a single blob.
* `RequestWithinBudget`: at every moment a request holds no more than its budget inline.
* `requestWithinBudget_iff`: exactly if no group of its blobs is over that budget while each of
  them is within the limits and the group is within the global budget.
-/

namespace GeminiWorker

open Transition (Reach Any)

/-- The contents of blobs together, in bytes. -/
def totalBytes (contents : List (List UInt8)) : ℕ := (contents.map List.length).sum

def BlobStorage.isShared : BlobStorage → Bool
  | .shared _ => true
  | _ => false

/-- Whether a single blob may be reserved inline, room for it provided. -/
def BlobRuntimeConfig.Fits (cfg : BlobRuntimeConfig) (sizeBytes : ℕ) : Prop :=
  sizeBytes ≤ cfg.inlineMaxBytes ∧ sizeBytes ≤ cfg.requestHotBudgetBytes

/-- A blob that was stored for the request through `store_bytes`, `store_shared_bytes` or
`store_stream`. -/
def StoredBlob.isFor (request : ℕ) (stored : StoredBlob) : Bool :=
  stored.request = request && !stored.handle.storage.isShared

namespace BlobProcess

/-- What was stored for the request, in the order of the handles. -/
def requestContents (process : BlobProcess) (request : ℕ) : List (List UInt8) :=
  (process.blobs.filter (StoredBlob.isFor request)).map StoredBlob.content

/-- What the blobs of the request hold inline. -/
def requestBytes (process : BlobProcess) (request : ℕ) : ℕ :=
  ((process.blobs.filter (StoredBlob.isFor request)).map StoredBlob.hotBytes).sum

end BlobProcess

/-- What a request has stored at some moment: some of its images, in any order, or all of them
and then its body. -/
def RequestMoment (images : List (List UInt8)) (body : List UInt8) (contents : List (List UInt8)) : Prop :=
  contents.Subperm images ∨ ∃ stored : List (List UInt8), stored.Perm images ∧ contents = stored ++ [body]

/-- At every moment of every run the request holds at most its budget inline. -/
def RequestWithinBudget (cfg : BlobRuntimeConfig) (images : List (List UInt8)) (body : List UInt8) : Prop :=
  ∀ disk request world, Reach BlobWorld.step Any (BlobWorld.new disk [cfg]) world →
    ∀ process ∈ world.processes, RequestMoment images body (process.requestContents request) →
      process.requestBytes request ≤ cfg.requestHotBudgetBytes

/-- No group of the blobs that may be inline together exceeds the budget of the request. -/
def GroupsWithinBudget (cfg : BlobRuntimeConfig) (blobs : List (List UInt8)) : Prop :=
  ∀ group : List (List UInt8), group.Sublist blobs → (∀ bytes ∈ group, cfg.Fits bytes.length) →
    totalBytes group ≤ cfg.globalHotBudgetBytes → totalBytes group ≤ cfg.requestHotBudgetBytes

/-! ## What is inline fits -/

namespace BlobProcess

/-- What is inline, or about to be, is within the limits of a single blob. -/
structure InlineFits (process : BlobProcess) : Prop where
  blob : ∀ stored ∈ process.blobs, ∀ bytes, stored.handle.storage = .inline bytes →
    stored.content = bytes ∧ process.cfg.Fits bytes.length
  exchanging : ∀ args bytes current, .exchanging args bytes current ∈ process.calls →
    process.cfg.Fits bytes.length
  reserved : ∀ args bytes, .reserved args bytes ∈ process.calls → process.cfg.Fits bytes.length

theorem inlineFits_new (cfg : BlobRuntimeConfig) : (new cfg).InlineFits where
  blob stored h := by cases h
  exchanging args bytes current h := by cases h
  reserved args bytes h := by cases h

variable {disk disk' : Disk} {process process' : BlobProcess} {event : BlobEvent}

/-- A call that goes on as neither an exchange nor a reservation. -/
theorem InlineFits.goOn (hfits : process.InlineFits) (call : ℕ) {next : BlobCall}
    (hexchanging : ∀ args bytes current, next = .exchanging args bytes current → process.cfg.Fits bytes.length)
    (hreserved : ∀ args bytes, next = .reserved args bytes → process.cfg.Fits bytes.length) :
    (process.goOn call next).InlineFits where
  blob := hfits.blob
  exchanging args bytes current h := by
    rcases List.mem_or_eq_of_mem_set h with h | h
    · exact hfits.exchanging args bytes current h
    · exact hexchanging args bytes current h.symm
  reserved args bytes h := by
    rcases List.mem_or_eq_of_mem_set h with h | h
    · exact hfits.reserved args bytes h
    · exact hreserved args bytes h.symm

theorem InlineFits.begin (hfits : process.InlineFits) {call : BlobCall}
    (hexchanging : ∀ args bytes current, call ≠ .exchanging args bytes current)
    (hreserved : ∀ args bytes, call ≠ .reserved args bytes) : (process.begin call).InlineFits where
  blob := hfits.blob
  exchanging args bytes current h := by
    rcases List.mem_append.mp h with h | h
    · exact hfits.exchanging args bytes current h
    · exact absurd (List.mem_singleton.mp h).symm (hexchanging args bytes current)
  reserved args bytes h := by
    rcases List.mem_append.mp h with h | h
    · exact hfits.reserved args bytes h
    · exact absurd (List.mem_singleton.mp h).symm (hreserved args bytes)

theorem InlineFits.buildHandle (hfits : process.InlineFits) {args : StoreArgs} {sizeBytes : ℕ}
    {storage : BlobStorage} {content : List UInt8}
    (hstorage : ∀ bytes, storage = .inline bytes → content = bytes ∧ process.cfg.Fits bytes.length) :
    (process.buildHandle args sizeBytes storage content).InlineFits where
  blob stored h bytes hbytes := by
    rcases List.mem_append.mp h with h | h
    · exact hfits.blob stored h bytes hbytes
    · rw [List.mem_singleton.mp h] at hbytes ⊢
      exact hstorage bytes hbytes
  exchanging := hfits.exchanging
  reserved := hfits.reserved

theorem InlineFits.setRemoved (hfits : process.InlineFits) {blob : ℕ} {stored : StoredBlob}
    (hblob : process.blobs[blob]? = some stored) : (process.setRemoved blob stored).InlineFits where
  blob other h bytes hbytes := by
    rcases List.mem_or_eq_of_mem_set h with h | h
    · exact hfits.blob other h bytes hbytes
    · rw [h] at hbytes ⊢
      exact hfits.blob stored (List.mem_of_getElem? hblob) bytes hbytes
  exchanging := hfits.exchanging
  reserved := hfits.reserved

theorem Takes.inlineFits (h : Takes disk process event disk' process') (hfits : process.InlineFits) :
    process'.InlineFits := by
  cases h with
  | begins nextId hbegins =>
    have hfits' : ({ process with nextId } : BlobProcess).InlineFits :=
      ⟨hfits.blob, hfits.exchanging, hfits.reserved⟩
    refine hfits'.begin (fun args bytes current h => ?_) fun args bytes h => ?_
    · subst h
      cases hbegins
    · subst h
      cases hbegins
  | moves hcall hmoves =>
    refine hfits.goOn _ (fun args bytes current h => ?_) fun args bytes h => ?_
    · subst h
      cases hmoves with
      | loads _ _ hinline hrequest => exact ⟨hinline, hrequest⟩
    · subst h
      cases hmoves
  | storesShared args bytes =>
    have hfits' : process.takeId.InlineFits := ⟨hfits.blob, hfits.exchanging, hfits.reserved⟩
    exact hfits'.buildHandle fun bytes h => by cases h
  | @reserves call args bytes hcall =>
    have hfits' : ({ process with globalHotBytes := process.globalHotBytes + bytes.length } :
        BlobProcess).InlineFits := ⟨hfits.blob, hfits.exchanging, hfits.reserved⟩
    refine hfits'.goOn _ (fun args bytes current h => by cases h) fun args' bytes' h => ?_
    obtain ⟨rfl, rfl⟩ := BlobCall.reserved.inj h
    exact hfits.exchanging _ _ _ (List.mem_of_getElem? hcall)
  | @builds call args bytes hcall =>
    have hbuilt : (process.buildHandle args bytes.length (.inline bytes) bytes).InlineFits := by
      refine hfits.buildHandle fun bytes' h => ?_
      obtain rfl := BlobStorage.inline.inj h
      exact ⟨rfl, hfits.reserved _ _ (List.mem_of_getElem? hcall)⟩
    exact hbuilt.goOn _ (fun _ _ _ h => by cases h) fun _ _ h => by cases h
  | creates | writes => exact hfits.goOn _ (fun _ _ _ h => by cases h) fun _ _ h => by cases h
  | @finishes _ call args file written stream sizeBytes hcall =>
    have hfits' : (process.recordSpill sizeBytes).InlineFits :=
      ⟨hfits.blob, hfits.exchanging, hfits.reserved⟩
    have hbuilt : ((process.recordSpill sizeBytes).buildHandle args sizeBytes
        (.spilled (process.cfg.spillPath args.id)) written).InlineFits :=
      hfits'.buildHandle fun bytes h => by cases h
    exact hbuilt.goOn _ (fun _ _ _ h => by cases h) fun _ _ h => by cases h
  | removesAgain => exact hfits
  | removesInline hblob | removesSpilled hblob =>
    exact (hfits.setRemoved hblob).begin (fun _ _ _ h => by cases h) fun _ _ h => by cases h
  | removesShared hblob => exact hfits.setRemoved hblob
  | @releases call sizeBytes hcall =>
    have hfits' : (process.releaseInlineBytes sizeBytes).InlineFits :=
      ⟨hfits.blob, hfits.exchanging, hfits.reserved⟩
    exact hfits'.goOn _ (fun _ _ _ h => by cases h) fun _ _ h => by cases h
  | deletes => exact hfits.goOn _ (fun _ _ _ h => by cases h) fun _ _ h => by cases h

end BlobProcess

/-- One process with its configuration stays the only one. -/
theorem single_process_of_reach {disk : Disk} {cfg : BlobRuntimeConfig} {world : BlobWorld}
    (h : Reach BlobWorld.step Any (BlobWorld.new disk [cfg]) world) :
    ∀ process ∈ world.processes, process.cfg = cfg ∧ process.InlineFits := by
  apply h.invariant
  · intro process hprocess
    obtain rfl := List.mem_singleton.mp hprocess
    exact ⟨rfl, BlobProcess.inlineFits_new cfg⟩
  · intro world event world' hinv _ hstep
    obtain ⟨process, process', hprocess, htakes, hprocesses⟩ := BlobWorld.step_takes hstep
    obtain ⟨hcfg, hfits⟩ := hinv process (List.mem_of_getElem? hprocess)
    intro other hother
    rw [hprocesses] at hother
    rcases List.mem_or_eq_of_mem_set hother with hold | rfl
    · exact hinv other hold
    · exact ⟨htakes.cfg_eq.trans hcfg, htakes.inlineFits hfits⟩

/-! ## The condition is enough -/

/-- What the blobs hold inline is what the contents of some of them add up to. -/
theorem exists_inline_group (blobs : List StoredBlob) :
    ∃ live : List StoredBlob, live.Sublist blobs ∧ (blobs.map StoredBlob.hotBytes).sum =
      (live.map fun stored => stored.handle.storage.inlineBytes).sum ∧
      ∀ stored ∈ live, ∃ bytes, stored.handle.storage = .inline bytes := by
  induction blobs with
  | nil => exact ⟨[], List.Sublist.refl _, rfl, fun _ h => by cases h⟩
  | cons stored blobs ih =>
    obtain ⟨live, hsub, hsum, hinline⟩ := ih
    by_cases hlive : stored.removed = false ∧ ∃ bytes, stored.handle.storage = .inline bytes
    · refine ⟨stored :: live, hsub.cons_cons stored, ?_, ?_⟩
      · simp only [List.map_cons, List.sum_cons, hsum, StoredBlob.hotBytes, hlive.1, Bool.false_eq_true,
          if_false]
      · intro other hother
        rcases List.mem_cons.mp hother with rfl | hother
        · exact hlive.2
        · exact hinline other hother
    · refine ⟨live, hsub.cons stored, ?_, hinline⟩
      have hzero : stored.hotBytes = 0 := by
        unfold StoredBlob.hotBytes
        split
        · rfl
        · rename_i hflag
          rw [Bool.not_eq_true] at hflag
          unfold BlobStorage.inlineBytes
          split
          · rename_i bytes hstorage
            exact absurd ⟨hflag, bytes, hstorage⟩ hlive
          · rfl
      rw [List.map_cons, List.sum_cons, hzero, Nat.zero_add, hsum]

theorem sum_map_le_of_sublist {α : Type} {l l' : List α} (f : α → ℕ) (h : l.Sublist l') :
    (l.map f).sum ≤ (l'.map f).sum := by
  induction h with
  | slnil => exact Nat.le_refl _
  | cons a _ ih =>
    rw [List.map_cons, List.sum_cons]
    omega
  | cons_cons a _ ih =>
    rw [List.map_cons, List.map_cons, List.sum_cons, List.sum_cons]
    omega

theorem totalBytes_perm {l l' : List (List UInt8)} (h : l.Perm l') : totalBytes l = totalBytes l' :=
  (h.map List.length).sum_nat

theorem RequestMoment.subperm {images contents : List (List UInt8)} {body : List UInt8}
    (h : RequestMoment images body contents) : contents.Subperm (images ++ [body]) := by
  rcases h with h | ⟨stored, hperm, rfl⟩
  · exact h.trans (List.sublist_append_left images [body]).subperm
  · exact (hperm.append_right [body]).subperm

theorem requestWithinBudget_of_groups {cfg : BlobRuntimeConfig} {images : List (List UInt8)}
    {body : List UInt8} (hgroups : GroupsWithinBudget cfg (images ++ [body])) :
    RequestWithinBudget cfg images body := by
  intro disk request world hreach process hprocess hmoment
  obtain ⟨hcfg, hfits⟩ := single_process_of_reach hreach process hprocess
  have hacc := hotAccount_of_reach hreach process hprocess
  obtain ⟨live, hsub, hsum, hinline⟩ :=
    exists_inline_group (process.blobs.filter (StoredBlob.isFor request))
  have hmem : ∀ stored ∈ live, stored ∈ process.blobs := fun stored h =>
    (List.mem_filter.mp (hsub.subset h)).1
  -- the inline blobs of the request are a group of its blobs
  have hcontents : (live.map StoredBlob.content).Subperm (images ++ [body]) :=
    (hsub.map StoredBlob.content).subperm.trans hmoment.subperm
  obtain ⟨group, hperm, hgroup⟩ := hcontents
  have hlengths : (live.map fun stored => stored.handle.storage.inlineBytes).sum =
      totalBytes (live.map StoredBlob.content) := by
    unfold totalBytes
    rw [List.map_map]
    congr 1
    apply List.map_congr_left
    intro stored hstored
    obtain ⟨bytes, hbytes⟩ := hinline stored hstored
    rw [hbytes, Function.comp_apply, (hfits.blob stored (hmem stored hstored) bytes hbytes).1]
    rfl
  have hrequest : process.requestBytes request = totalBytes group := by
    rw [totalBytes_perm hperm, ← hlengths]
    exact hsum
  rw [hrequest]
  apply hgroups group hgroup
  · intro content hcontent
    obtain ⟨stored, hstored, rfl⟩ := List.mem_map.mp (hperm.mem_iff.mp hcontent)
    obtain ⟨bytes, hbytes⟩ := hinline stored hstored
    obtain ⟨hcontent, hsize⟩ := hfits.blob stored (hmem stored hstored) bytes hbytes
    rw [hcontent, ← hcfg]
    exact hsize
  · have hhot : process.requestBytes request ≤ process.storedBytes :=
      Nat.le_add_right_of_le
        (sum_map_le_of_sublist StoredBlob.hotBytes (List.filter_sublist (p := StoredBlob.isFor request)))
    have hbudget := hacc.le_budget
    rw [hacc.sum, hcfg] at hbudget
    omega

/-! ## The condition is needed

A runtime alone on its disk stores a group of blobs that is over the budget of the request.
Where an image is not to be inline, another request fills the global budget while it is stored. -/

namespace BlobProcess

/-- The steps of a runtime that has its disk to itself. -/
def stepAlone (state : Disk × BlobProcess) (event : BlobEvent) : Option (Disk × BlobProcess) :=
  state.2.step state.1 event

theorem reach_world {disk disk' : Disk} {process process' : BlobProcess}
    (h : Reach stepAlone Any (disk, process) (disk', process')) :
    Reach BlobWorld.step Any ⟨disk, [process]⟩ ⟨disk', [process']⟩ := by
  have hreach : ∀ state, Reach stepAlone Any (disk, process) state →
      Reach BlobWorld.step Any ⟨disk, [process]⟩ ⟨state.1, [state.2]⟩ := by
    intro state hstate
    induction hstate with
    | refl => exact .refl
    | @tail t u event _ _ hnext ih =>
      refine @Reach.tail _ _ _ _ _ _ _ (0, event) ih trivial ?_
      have hstep : t.2.step t.1 event = some u := hnext
      show (t.2.step t.1 event).map _ = _
      rw [hstep]
      rfl
  exact hreach _ h

theorem begin_calls_getElem (process : BlobProcess) (call : BlobCall) :
    (process.begin call).calls[process.calls.length]? = some call := by
  rw [begin]
  exact List.getElem?_concat_length

theorem goOn_begin (process : BlobProcess) (call next : BlobCall) :
    (process.begin call).goOn process.calls.length next = process.begin next := by
  unfold begin goOn
  congr 1
  rw [List.set_append_right _ _ (Nat.le_refl _), Nat.sub_self]
  rfl

variable (disk : Disk) (process : BlobProcess)

def inlineBlob (id request : ℕ) (mimeType : String) (bytes : List UInt8) : StoredBlob :=
  ⟨⟨id, ⟨mimeType, bytes.length⟩, .inline bytes⟩, bytes, request, false⟩

/-- A store that no other step interrupts holds its blob inline if it fits and there is room. -/
theorem reach_storeInline (request : ℕ) {bytes : List UInt8} (mimeType : String)
    (hfits : process.cfg.Fits bytes.length) (hword : process.globalHotBytes + bytes.length < 2 ^ 64)
    (hroom : process.globalHotBytes + bytes.length ≤ process.cfg.globalHotBudgetBytes) :
    ∃ process', Reach stepAlone Any (disk, process) (disk, process') ∧ process'.cfg = process.cfg ∧
      process'.globalHotBytes = process.globalHotBytes + bytes.length ∧
      process'.blobs = process.blobs ++ [inlineBlob process.nextId request mimeType bytes] := by
  let args : StoreArgs := ⟨process.nextId, request, mimeType⟩
  let call := process.calls.length
  have hstart : stepAlone (disk, process) (.storeBytes request bytes mimeType) =
      some (disk, process.takeId.begin (.reserving args bytes)) := rfl
  have hload : stepAlone (disk, process.takeId.begin (.reserving args bytes)) (.load call) =
      some (disk, process.takeId.begin (.exchanging args bytes process.globalHotBytes)) := by
    simp only [stepAlone, step]
    rw [show (process.takeId.begin (.reserving args bytes)).calls[call]? = some (.reserving args bytes) from
      begin_calls_getElem process.takeId _]
    simp only [loadHotBytes]
    rw [if_neg, if_neg, if_neg]
    · exact congrArg (fun next => some (disk, next)) (goOn_begin process.takeId _ _)
    · exact Nat.not_lt.mpr hroom
    · exact Nat.not_le.mpr hword
    · rw [Bool.or_eq_true, decide_eq_true_eq, decide_eq_true_eq, not_or]
      exact ⟨Nat.not_lt.mpr hfits.1, Nat.not_lt.mpr hfits.2⟩
  let reserved : BlobProcess :=
    { process.takeId with globalHotBytes := process.globalHotBytes + bytes.length }
  have hexchange : stepAlone (disk, process.takeId.begin (.exchanging args bytes process.globalHotBytes))
      (.compareExchange call) = some (disk, reserved.begin (.reserved args bytes)) := by
    simp only [stepAlone, step]
    rw [show (process.takeId.begin (.exchanging args bytes process.globalHotBytes)).calls[call]? =
      some (.exchanging args bytes process.globalHotBytes) from begin_calls_getElem process.takeId _]
    simp only [compareExchange]
    rw [if_pos (show (process.takeId.begin (.exchanging args bytes process.globalHotBytes)).globalHotBytes =
      process.globalHotBytes from rfl)]
    exact congrArg (fun next => some (disk, next)) (goOn_begin reserved _ _)
  have hbuild : stepAlone (disk, reserved.begin (.reserved args bytes)) (.build call) =
      some (disk, (reserved.buildHandle args bytes.length (.inline bytes) bytes).begin .ended) := by
    simp only [stepAlone, step]
    rw [show (reserved.begin (.reserved args bytes)).calls[call]? = some (.reserved args bytes) from
      begin_calls_getElem reserved _]
    exact congrArg (fun next => some (disk, next))
      (goOn_begin (reserved.buildHandle args bytes.length (.inline bytes) bytes) (.reserved args bytes) .ended)
  exact ⟨_, (((Reach.single trivial hstart).tail trivial hload).tail trivial hexchange).tail trivial hbuild,
    rfl, rfl, rfl⟩

/-- A store that no other step interrupts spills its blob if it does not fit or there is no room. -/
theorem reach_storeSpilled (request : ℕ) {bytes : List UInt8} (mimeType : String)
    (hrefused : ¬ (process.cfg.Fits bytes.length ∧
      process.globalHotBytes + bytes.length ≤ process.cfg.globalHotBudgetBytes)) :
    ∃ disk' process' path, Reach stepAlone Any (disk, process) (disk', process') ∧
      process'.cfg = process.cfg ∧ process'.globalHotBytes = process.globalHotBytes ∧
      process'.blobs = process.blobs ++
        [⟨⟨process.nextId, ⟨mimeType, bytes.length⟩, .spilled path⟩, bytes, request, false⟩] := by
  let args : StoreArgs := ⟨process.nextId, request, mimeType⟩
  let call := process.calls.length
  let path := process.cfg.spillPath process.nextId
  let file := disk.createdFile path
  have hstart : stepAlone (disk, process) (.storeBytes request bytes mimeType) =
      some (disk, process.takeId.begin (.reserving args bytes)) := rfl
  have hload : stepAlone (disk, process.takeId.begin (.reserving args bytes)) (.load call) =
      some (disk, process.takeId.begin (.creating args bytes false)) := by
    simp only [stepAlone, step]
    rw [show (process.takeId.begin (.reserving args bytes)).calls[call]? = some (.reserving args bytes) from
      begin_calls_getElem process.takeId _]
    have hgoOn := goOn_begin process.takeId (.reserving args bytes) (.creating args bytes false)
    have hcreating : (process.takeId.begin (.reserving args bytes)).loadHotBytes call args bytes =
        process.takeId.begin (.creating args bytes false) := by
      simp only [loadHotBytes]
      split
      · exact hgoOn
      · rename_i hlimits
        split
        · exact hgoOn
        · split
          · exact hgoOn
          · rename_i hroom
            rw [Bool.or_eq_true, decide_eq_true_eq, decide_eq_true_eq, not_or] at hlimits
            exact absurd ⟨⟨Nat.not_lt.mp hlimits.1, Nat.not_lt.mp hlimits.2⟩, Nat.not_lt.mp hroom⟩ hrefused
    exact congrArg (fun next => some (disk, next)) hcreating
  have hcreate : stepAlone (disk, process.takeId.begin (.creating args bytes false)) (.create call) =
      some (disk.create path, process.takeId.begin (.writing args file [] bytes false)) := by
    simp only [stepAlone, step]
    rw [show (process.takeId.begin (.creating args bytes false)).calls[call]? =
      some (.creating args bytes false) from begin_calls_getElem process.takeId _]
    exact congrArg (fun next => some (disk.create path, next)) (goOn_begin process.takeId _ _)
  have hwrite : stepAlone (disk.create path, process.takeId.begin (.writing args file [] bytes false))
      (.write call bytes.length) = some ((disk.create path).writeAt file 0 bytes,
        process.takeId.begin (.writing args file bytes [] false)) := by
    simp only [stepAlone, step]
    rw [show (process.takeId.begin (.writing args file [] bytes false)).calls[call]? =
      some (.writing args file [] bytes false) from begin_calls_getElem process.takeId _]
    simp only [List.take_length, List.drop_length, List.nil_append, List.length_nil]
    exact congrArg (fun next => some (_, next)) (goOn_begin process.takeId _ _)
  let spilled := (process.takeId.recordSpill bytes.length).buildHandle args bytes.length (.spilled path) bytes
  have hfinish : stepAlone ((disk.create path).writeAt file 0 bytes,
      process.takeId.begin (.writing args file bytes [] false)) (.finishSpill call) =
        some ((disk.create path).writeAt file 0 bytes, spilled.begin .ended) := by
    simp only [stepAlone, step]
    rw [show (process.takeId.begin (.writing args file bytes [] false)).calls[call]? =
      some (.writing args file bytes [] false) from begin_calls_getElem process.takeId _]
    exact congrArg (fun next => some (_, next)) (goOn_begin spilled (.writing args file bytes [] false) .ended)
  exact ⟨_, _, path, ((((Reach.single trivial hstart).tail trivial hload).tail trivial hcreate).tail trivial
    hwrite).tail trivial hfinish, rfl, rfl, rfl⟩

/-- A removal that no other step interrupts gives the bytes of an inline blob back. -/
theorem reach_removeInline {blob : ℕ} {stored : StoredBlob} {bytes : List UInt8}
    (hblob : process.blobs[blob]? = some stored) (hlive : stored.removed = false)
    (hstorage : stored.handle.storage = .inline bytes) (hle : bytes.length ≤ process.globalHotBytes)
    (hlt : process.globalHotBytes < 2 ^ 64) :
    ∃ process', Reach stepAlone Any (disk, process) (disk, process') ∧ process'.cfg = process.cfg ∧
      process'.globalHotBytes = process.globalHotBytes - bytes.length ∧
      process'.blobs = process.blobs.set blob { stored with removed := true } := by
  let flagged := process.setRemoved blob stored
  have hremove : stepAlone (disk, process) (.remove blob) =
      some (disk, flagged.begin (.releasing bytes.length)) := by
    simp only [stepAlone, step, hblob, Option.map_some, remove, hlive, Bool.false_eq_true, if_false, hstorage]
    rfl
  have hrelease : stepAlone (disk, flagged.begin (.releasing bytes.length)) (.release process.calls.length) =
      some (disk, (flagged.releaseInlineBytes bytes.length).begin .ended) := by
    simp only [stepAlone, step]
    rw [show (flagged.begin (.releasing bytes.length)).calls[process.calls.length]? =
      some (.releasing bytes.length) from begin_calls_getElem flagged _]
    exact congrArg (fun next => some (disk, next))
      (goOn_begin (flagged.releaseInlineBytes bytes.length) (.releasing bytes.length) .ended)
  exact ⟨_, (Reach.single trivial hremove).tail trivial hrelease, rfl, sub_wrap hle hlt, rfl⟩

/-- Live inline blobs of one request. -/
def AllInline (request : ℕ) (blobs : List StoredBlob) : Prop :=
  ∀ stored ∈ blobs, stored.request = request ∧ stored.removed = false ∧
    stored.handle.storage = .inline stored.content

/-- A group that fits, each and together, can be stored inline. -/
theorem reach_storeInlineAll (request : ℕ) {group : List (List UInt8)}
    (hfits : ∀ bytes ∈ group, process.cfg.Fits bytes.length)
    (hword : process.cfg.globalHotBudgetBytes < 2 ^ 64)
    (hroom : process.globalHotBytes + totalBytes group ≤ process.cfg.globalHotBudgetBytes) :
    ∃ process' added, Reach stepAlone Any (disk, process) (disk, process') ∧ process'.cfg = process.cfg ∧
      process'.globalHotBytes = process.globalHotBytes + totalBytes group ∧
      process'.blobs = process.blobs ++ added ∧ added.map StoredBlob.content = group ∧
      AllInline request added := by
  induction group generalizing process with
  | nil => exact ⟨process, [], .refl, rfl, rfl, (List.append_nil _).symm, rfl, fun _ h => by cases h⟩
  | cons bytes group ih =>
    have htotal : totalBytes (bytes :: group) = bytes.length + totalBytes group := rfl
    rw [htotal] at hroom
    obtain ⟨first, hfirst, hcfg, hcounter, hblobs⟩ := reach_storeInline disk process request "image/png"
      (hfits bytes List.mem_cons_self) (by omega) (by omega)
    obtain ⟨process', added, hrest, hcfg', hcounter', hblobs', hcontents, hinline⟩ := ih first
      (by
        rw [hcfg]
        exact fun bytes h => hfits bytes (List.mem_cons_of_mem _ h))
      (by rwa [hcfg]) (by rw [hcounter, hcfg]; omega)
    refine ⟨process', inlineBlob process.nextId request "image/png" bytes :: added, hfirst.trans hrest,
      hcfg'.trans hcfg, ?_, ?_, ?_, ?_⟩
    · rw [hcounter', hcounter, htotal]
      omega
    · rw [hblobs', hblobs, List.append_assoc]
      rfl
    · rw [List.map_cons, hcontents]
      rfl
    · intro stored hstored
      rcases List.mem_cons.mp hstored with rfl | hstored
      · exact ⟨rfl, rfl, rfl⟩
      · exact hinline stored hstored

/-- While the global budget is used up, whatever is stored takes nothing of it. -/
theorem reach_storeFull (request : ℕ) (group : List (List UInt8))
    (hword : process.cfg.globalHotBudgetBytes < 2 ^ 64)
    (hfull : process.globalHotBytes = process.cfg.globalHotBudgetBytes) :
    ∃ disk' process' added, Reach stepAlone Any (disk, process) (disk', process') ∧
      process'.cfg = process.cfg ∧ process'.globalHotBytes = process.globalHotBytes ∧
      process'.blobs = process.blobs ++ added ∧ added.map StoredBlob.content = group ∧
      ∀ stored ∈ added, stored.isFor request = true := by
  induction group generalizing disk process with
  | nil => exact ⟨disk, process, [], .refl, rfl, rfl, (List.append_nil _).symm, rfl, fun _ h => by cases h⟩
  | cons bytes group ih =>
    have hone : ∃ disk' first stored, Reach stepAlone Any (disk, process) (disk', first) ∧
        first.cfg = process.cfg ∧ first.globalHotBytes = process.globalHotBytes ∧
        first.blobs = process.blobs ++ [stored] ∧ stored.content = bytes ∧ stored.isFor request = true := by
      by_cases hfits : process.cfg.Fits bytes.length ∧
          process.globalHotBytes + bytes.length ≤ process.cfg.globalHotBudgetBytes
      · -- only an empty blob still fits
        obtain ⟨first, hfirst, hcfg, hcounter, hblobs⟩ :=
          reach_storeInline disk process request "image/png" hfits.1 (by omega) hfits.2
        refine ⟨disk, first, _, hfirst, hcfg, by omega, hblobs, rfl, ?_⟩
        simp [StoredBlob.isFor, BlobStorage.isShared, inlineBlob]
      · obtain ⟨disk', first, path, hfirst, hcfg, hcounter, hblobs⟩ :=
          reach_storeSpilled disk process request "image/png" hfits
        refine ⟨disk', first, _, hfirst, hcfg, hcounter, hblobs, rfl, ?_⟩
        simp [StoredBlob.isFor, BlobStorage.isShared]
    obtain ⟨disk', first, stored, hfirst, hcfg, hcounter, hblobs, hcontent, hfor⟩ := hone
    obtain ⟨disk'', process', added, hrest, hcfg', hcounter', hblobs', hcontents, hadded⟩ :=
      ih disk' first (by rwa [hcfg]) (by rw [hcounter, hcfg, hfull])
    refine ⟨disk'', process', stored :: added, hfirst.trans hrest, hcfg'.trans hcfg,
      hcounter'.trans hcounter, ?_, ?_, ?_⟩
    · rw [hblobs', hblobs, List.append_assoc]
      rfl
    · rw [List.map_cons, hcontents, hcontent]
    · intro other hother
      rcases List.mem_cons.mp hother with rfl | hother
      · exact hfor
      · exact hadded other hother

/-- Inline blobs can all be removed, wherever they stand among the others. -/
theorem reach_removeAll {request : ℕ} {before blobs after : List StoredBlob}
    (hblobs : process.blobs = before ++ blobs ++ after) (hinline : AllInline request blobs)
    (hle : totalBytes (blobs.map StoredBlob.content) ≤ process.globalHotBytes)
    (hlt : process.globalHotBytes < 2 ^ 64) :
    ∃ process' blobs', Reach stepAlone Any (disk, process) (disk, process') ∧
      process'.cfg = process.cfg ∧
      process'.globalHotBytes = process.globalHotBytes - totalBytes (blobs.map StoredBlob.content) ∧
      process'.blobs = before ++ blobs' ++ after ∧ ∀ stored ∈ blobs', stored.request = request := by
  induction blobs generalizing process before with
  | nil => exact ⟨process, [], .refl, rfl, rfl, hblobs, fun _ h => by cases h⟩
  | cons stored blobs ih =>
    obtain ⟨hrequest, hlive, hstorage⟩ := hinline stored List.mem_cons_self
    have htotal : totalBytes ((stored :: blobs).map StoredBlob.content) =
      stored.content.length + totalBytes (blobs.map StoredBlob.content) := rfl
    rw [htotal] at hle
    have hat : process.blobs[before.length]? = some stored := by
      rw [hblobs, List.append_assoc, List.getElem?_append_right (Nat.le_refl _), Nat.sub_self]
      rfl
    obtain ⟨first, hfirst, hcfg, hcounter, hblobs₁⟩ :=
      reach_removeInline disk process hat hlive hstorage (by omega) hlt
    have hset : first.blobs = (before ++ [{ stored with removed := true }]) ++ blobs ++ after := by
      rw [hblobs₁, hblobs, List.append_assoc, List.set_append_right _ _ (Nat.le_refl _), Nat.sub_self]
      simp
    obtain ⟨process', blobs', hrest, hcfg', hcounter', hblobs', hrequests⟩ := ih first hset
      (fun other hother => hinline other (List.mem_cons_of_mem _ hother)) (by omega) (by omega)
    refine ⟨process', { stored with removed := true } :: blobs', hfirst.trans hrest, hcfg'.trans hcfg,
      by omega, ?_, ?_⟩
    · rw [hblobs']
      simp
    · intro other hother
      rcases List.mem_cons.mp hother with rfl | hother
      · exact hrequest
      · exact hrequests other hother

/-! ### What the request has then -/

theorem filter_isFor_of_allInline {request : ℕ} {blobs : List StoredBlob} (h : AllInline request blobs) :
    blobs.filter (StoredBlob.isFor request) = blobs := by
  rw [List.filter_eq_self]
  intro stored hstored
  obtain ⟨hrequest, -, hstorage⟩ := h stored hstored
  simp [StoredBlob.isFor, hrequest, hstorage, BlobStorage.isShared]

theorem filter_isFor_of_other {request other : ℕ} (hne : other ≠ request) {blobs : List StoredBlob}
    (h : ∀ stored ∈ blobs, stored.request = other) : blobs.filter (StoredBlob.isFor request) = [] := by
  rw [List.filter_eq_nil_iff]
  intro stored hstored
  simp [StoredBlob.isFor, h stored hstored, hne]

theorem sum_hotBytes_of_allInline {request : ℕ} {blobs : List StoredBlob} (h : AllInline request blobs) :
    (blobs.map StoredBlob.hotBytes).sum = totalBytes (blobs.map StoredBlob.content) := by
  unfold totalBytes
  rw [List.map_map]
  congr 1
  apply List.map_congr_left
  intro stored hstored
  obtain ⟨-, hlive, hstorage⟩ := h stored hstored
  simp only [StoredBlob.hotBytes, hlive, Bool.false_eq_true, if_false, hstorage, BlobStorage.inlineBytes,
    Function.comp_apply]

/-- After any blobs, a group that may be inline together can be stored inline while the rest is not. -/
theorem exists_reach_group {cfg : BlobRuntimeConfig} (hword : cfg.globalHotBudgetBytes < 2 ^ 64)
    (spilled : List (List UInt8)) {group : List (List UInt8)}
    (hfits : ∀ bytes ∈ group, cfg.Fits bytes.length) (hroom : totalBytes group ≤ cfg.globalHotBudgetBytes)
    (hone : cfg.Fits 1) :
    ∃ disk process, Reach stepAlone Any (Disk.empty, new cfg) (disk, process) ∧
      process.requestContents 0 = spilled ++ group ∧ totalBytes group ≤ process.requestBytes 0 := by
  -- another request takes the global budget, byte by byte
  have hfill : totalBytes (List.replicate cfg.globalHotBudgetBytes [(0 : UInt8)]) =
      cfg.globalHotBudgetBytes := by
    simp [totalBytes]
  obtain ⟨full, filler, hreach₁, hcfg₁, hcounter₁, hblobs₁, hfiller, hinline₁⟩ :=
    @reach_storeInlineAll Disk.empty (new cfg) 1 (List.replicate cfg.globalHotBudgetBytes [(0 : UInt8)])
      (fun bytes h => by
        rw [List.eq_of_mem_replicate h]
        exact hone)
      hword (by rw [hfill]; exact Nat.le_of_eq (Nat.zero_add _))
  have hnew : (new cfg).globalHotBytes = 0 := rfl
  have hcfg₁' : full.cfg = cfg := hcfg₁
  rw [hfill, hnew, Nat.zero_add] at hcounter₁
  -- the rest of the request is stored meanwhile
  obtain ⟨disk, stored, rest, hreach₂, hcfg₂, hcounter₂, hblobs₂, hrest, hfor⟩ :=
    reach_storeFull Disk.empty full 0 spilled (by rwa [hcfg₁']) (by rw [hcounter₁, hcfg₁'])
  have hblobs : stored.blobs = [] ++ filler ++ rest := by
    rw [hblobs₂, hblobs₁]
    rfl
  obtain ⟨free, removed, hreach₃, hcfg₃, hcounter₃, hblobs₃, hremoved⟩ :=
    reach_removeAll disk stored hblobs hinline₁ (by rw [hfiller, hfill]; omega) (by omega)
  rw [hfiller, hfill, hcounter₂, hcounter₁, Nat.sub_self] at hcounter₃
  have hcfg : free.cfg = cfg := hcfg₃.trans (hcfg₂.trans hcfg₁)
  -- then the group
  obtain ⟨process, added, hreach₄, -, -, hblobs₄, hadded, hinline₄⟩ :=
    @reach_storeInlineAll disk free 0 group (by rwa [hcfg])
      (by rwa [hcfg]) (by rw [hcounter₃, hcfg]; omega)
  refine ⟨disk, process, ((hreach₁.trans hreach₂).trans hreach₃).trans hreach₄, ?_, ?_⟩
  all_goals
    have hfilter : process.blobs.filter (StoredBlob.isFor 0) = rest ++ added := by
      rw [hblobs₄, hblobs₃, List.nil_append, List.filter_append, List.filter_append,
        filter_isFor_of_other (by decide) hremoved, filter_isFor_of_allInline hinline₄,
        List.filter_eq_self.mpr hfor, List.nil_append]
  · rw [requestContents, hfilter, List.map_append, hrest, hadded]
  · rw [requestBytes, hfilter, List.map_append, List.sum_append, sum_hotBytes_of_allInline hinline₄, hadded]
    exact Nat.le_add_left _ _

end BlobProcess

theorem groups_of_requestWithinBudget {cfg : BlobRuntimeConfig} (hword : cfg.globalHotBudgetBytes < 2 ^ 64)
    {images : List (List UInt8)} {body : List UInt8} (hbudget : RequestWithinBudget cfg images body) :
    GroupsWithinBudget cfg (images ++ [body]) := by
  intro group hgroup hfits hroom
  by_contra hover
  -- a group over the budget has a blob with a byte in it
  have hone : cfg.Fits 1 := by
    have hbyte : ∃ bytes ∈ group, 0 < bytes.length := by
      by_contra hnone
      have hzero : totalBytes group = 0 := by
        unfold totalBytes
        rw [List.sum_eq_zero_iff_forall_eq_nat]
        intro n hn
        obtain ⟨bytes, hbytes, rfl⟩ := List.mem_map.mp hn
        by_contra hlength
        exact hnone ⟨bytes, hbytes, Nat.pos_of_ne_zero hlength⟩
      omega
    obtain ⟨bytes, hbytes, hpos⟩ := hbyte
    obtain ⟨hinline, hrequest⟩ := hfits bytes hbytes
    exact ⟨by omega, by omega⟩
  have hmoment : ∃ spilled, RequestMoment images body (spilled ++ group) := by
    obtain ⟨stored, last, rfl, hstored, hlast⟩ := List.sublist_append_iff.mp hgroup
    rcases List.sublist_singleton.mp hlast with rfl | rfl
    · exact ⟨[], Or.inl (by simpa using hstored.subperm)⟩
    · obtain ⟨others, hothers⟩ := hstored.exists_perm_append
      refine ⟨others, Or.inr ⟨others ++ stored, ?_, (List.append_assoc ..).symm⟩⟩
      exact List.perm_append_comm.trans hothers.symm
  obtain ⟨spilled, hmoment⟩ := hmoment
  obtain ⟨disk, process, hreach, hcontents, hbytes⟩ :=
    BlobProcess.exists_reach_group hword spilled hfits hroom hone
  have hle := hbudget Disk.empty 0 _ (BlobProcess.reach_world hreach) process List.mem_cons_self
    (by rwa [hcontents])
  omega

/-- **A request stays within its budget exactly if none of its groups exceeds it.** -/
theorem requestWithinBudget_iff {cfg : BlobRuntimeConfig} (hword : cfg.globalHotBudgetBytes < 2 ^ 64)
    (images : List (List UInt8)) (body : List UInt8) :
    RequestWithinBudget cfg images body ↔ GroupsWithinBudget cfg (images ++ [body]) :=
  ⟨groups_of_requestWithinBudget hword, requestWithinBudget_of_groups⟩

/-- A request whose blobs fit its budget together stays within it. -/
theorem requestWithinBudget_example :
    RequestWithinBudget ⟨8, 10, 100, "spill"⟩ [[1, 2, 3], [4, 5, 6]] [7, 8, 9, 10] := by
  refine (@requestWithinBudget_iff ⟨8, 10, 100, "spill"⟩ (by decide) [[1, 2, 3], [4, 5, 6]]
    [7, 8, 9, 10]).mpr ?_
  intro group hgroup _ _
  exact sum_map_le_of_sublist List.length hgroup

/-- Two images of six bytes are both held inline under a budget of ten. -/
theorem images_exceed_requestBudget : ¬ ∀ cfg images body, RequestWithinBudget cfg images body := by
  intro h
  let image : List UInt8 := [137, 80, 78, 71, 13, 10]
  let store (call : ℕ) : List (ℕ × BlobEvent) := [(0, .storeBytes 0 image "image/png"), (0, .load call),
    (0, .compareExchange call), (0, .build call)]
  have hrun : (Transition.run BlobWorld.step (BlobWorld.new Disk.empty [⟨8, 10, 100, "spill"⟩])
      (store 0 ++ store 1)).map (fun world => world.processes.map fun process =>
        (process.requestContents 0, process.requestBytes 0)) = some [([image, image], 12)] := by
    decide +kernel
  obtain ⟨world, hworld, hprocesses⟩ := Option.map_eq_some_iff.mp hrun
  have hmem : ([image, image], 12) ∈ world.processes.map fun process =>
      (process.requestContents 0, process.requestBytes 0) := by
    rw [hprocesses]
    exact List.mem_cons_self
  obtain ⟨process, hprocess, hvalues⟩ := List.mem_map.mp hmem
  obtain ⟨hcontents, hbytes⟩ := Prod.mk.inj hvalues
  have hle := h _ [image, image] [] Disk.empty 0 world (Transition.run_reach hworld) process hprocess
    (Or.inl (by rw [hcontents]))
  rw [hbytes] at hle
  exact absurd hle (by decide)

end GeminiWorker
