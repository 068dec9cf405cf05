import GeminiWorker.Lib.JsonOutline
import GeminiWorker.Proof.RequestImages
import GeminiWorker.Spec.OutputMode

/-!
# The output directive on its way to the upstream

* `stripped_stripOutputFromValue`: what the directive is taken out of.
* `encodeRequestBody_stripped`: no body that the encoder stores has it.
* `parse_filterQueryWithoutOutput`: nor has any query, and its other pairs are kept.
-/

namespace GeminiWorker

open Json (Value Map)

/-! ## Places in a body -/

/-- The objects that keys lead to have no `output`. -/
def Free : List String → Value → Prop
  | [], v => v.get "output" = none
  | key :: path, v => ∀ w, v.get key = some w → Free path w

/-- A body without the directive, whatever its value. -/
structure Stripped (body : Value) : Prop where
  root : body.get "output" = none
  camel : body.pointer "/generationConfig/imageConfig/output" = none
  snake : body.pointer "/generation_config/image_config/output" = none

theorem child_eq_get {key : String} (h : Json.parseIndex key = none) (v : Value) : v.child key = v.get key := by
  rcases v with _ | _ | _ | _ | items | members
  · rfl
  · rfl
  · rfl
  · rfl
  · show (Json.parseIndex key).bind _ = none
    rw [h]
    rfl
  · rfl

/-- A pointer of keys leads nowhere exactly if its last key is missing where the others lead. -/
theorem at?_eq_none_iff {path : List String} (h : ∀ key ∈ path ++ ["output"], Json.parseIndex key = none)
    (v : Value) : v.at? (path ++ ["output"]) = none ↔ Free path v := by
  induction path generalizing v with
  | nil =>
    show (v.child "output").bind _ = none ↔ v.get "output" = none
    rw [child_eq_get (h _ (List.mem_cons_self ..))]
    rcases v.get "output" with _ | w
    · exact ⟨fun _ => rfl, fun _ => rfl⟩
    · exact ⟨fun hsome => (by cases hsome), fun hsome => (by cases hsome)⟩
  | cons key path ih =>
    show (v.child key).bind _ = none ↔ ∀ w, v.get key = some w → Free path w
    rw [child_eq_get (h key (List.mem_cons_self ..))]
    rcases v.get key with _ | w
    · exact ⟨fun _ w hw => (by cases hw), fun _ => rfl⟩
    · have hw := ih (fun k hk => h k (List.mem_cons_of_mem _ hk)) w
      constructor
      · rintro hnone w' hw'
        obtain rfl := Option.some.inj hw'
        exact hw.mp hnone
      · intro hfree
        exact hw.mpr (hfree w rfl)

theorem stripped_iff (body : Value) : Stripped body ↔
    Free [] body ∧ Free ["generationConfig", "imageConfig"] body ∧
      Free ["generation_config", "image_config"] body := by
  have hcamel : Json.pointerTokens "/generationConfig/imageConfig/output" =
      some (["generationConfig", "imageConfig"] ++ ["output"]) := by decide +kernel
  have hsnake : Json.pointerTokens "/generation_config/image_config/output" =
      some (["generation_config", "image_config"] ++ ["output"]) := by decide +kernel
  have hcamelIff := @at?_eq_none_iff ["generationConfig", "imageConfig"] (by decide +kernel) body
  have hsnakeIff := @at?_eq_none_iff ["generation_config", "image_config"] (by decide +kernel) body
  rw [← hcamelIff, ← hsnakeIff]
  constructor
  · rintro ⟨hroot, hc, hs⟩
    rw [Value.pointer, hcamel] at hc
    rw [Value.pointer, hsnake] at hs
    exact ⟨hroot, hc, hs⟩
  · rintro ⟨hroot, hc, hs⟩
    refine ⟨hroot, ?_, ?_⟩
    · rw [Value.pointer, hcamel]
      exact hc
    · rw [Value.pointer, hsnake]
      exact hs

/-- A body without the directive asks for no URLs. -/
theorem getOutputMode_of_stripped {body : Value} (h : Stripped body) {query : Option (List UInt8)}
    (hquery : queryContainsOutputUrl query = false) : getOutputMode query body = .base64 := by
  rw [getOutputMode, hquery, h.root, h.camel, h.snake]
  rfl

/-! ## Taking the directive out -/

/-- The fields that are taken out. -/
def strippedFields : List (List String) :=
  [["output"], ["generationConfig", "imageConfig", "output"], ["generation_config", "image_config", "output"]]

def isStripped (path : List String) : Bool := strippedFields.any fun field => decide (field <+: path)

theorem parseIndex_output : Json.parseIndex "output" = none := by decide +kernel

/-- **What is left of a body.** -/
theorem outlineAt_stripOutputFromValue {body : Value} (hbody : body.Distinct) (path : List String) :
    (stripOutputFromValue body).outlineAt path = if isStripped path then none else body.outlineAt path := by
  have h1 := distinct_modifyAt_removeKey "output" [] hbody
  have h2 := distinct_modifyAt_removeKey "output" ["generationConfig", "imageConfig"] h1
  rw [stripOutputFromValue_eq, Value.outlineAt_removeAt h2 parseIndex_output, Value.outlineAt_removeAt h1 parseIndex_output,
    Value.outlineAt_removeAt hbody parseIndex_output]
  simp only [isStripped, strippedFields, List.any_cons, List.any_nil, Bool.or_false, Bool.or_eq_true, decide_eq_true_eq,
    List.nil_append, List.cons_append]
  split_ifs <;> simp_all

theorem stripped_stripOutputFromValue {body : Value} (h : body.Distinct) : Stripped (stripOutputFromValue body) := by
  have hnone : ∀ path, isStripped path = true → (stripOutputFromValue body).at? path = none := by
    intro path hpath
    have hleft := outlineAt_stripOutputFromValue h path
    rw [if_pos hpath] at hleft
    exact Option.map_eq_none_iff.mp hleft
  rw [stripped_iff]
  refine ⟨?_, ?_, ?_⟩
  · exact (at?_eq_none_iff (by decide +kernel) _).mp (hnone ([] ++ ["output"]) (by decide))
  · exact (at?_eq_none_iff (by decide +kernel) _).mp
      (hnone (["generationConfig", "imageConfig"] ++ ["output"]) (by decide))
  · exact (at?_eq_none_iff (by decide +kernel) _).mp
      (hnone (["generation_config", "image_config"] ++ ["output"]) (by decide))

/-! ## The body that the encoder stores -/

/-- The node of an image has no keys of the configuration. -/
theorem free_inlineDataValue (mimeType : String) (bytes : List UInt8) {path : List String}
    (h : ∀ key ∈ path ++ ["output"], key ≠ "mimeType" ∧ key ≠ "data") : Free path (inlineDataValue mimeType bytes) := by
  have hget : ∀ key, key ≠ "mimeType" ∧ key ≠ "data" → (inlineDataValue mimeType bytes).get key = none := by
    rintro key ⟨hmime, hdata⟩
    show Map.get [("mimeType", _), ("data", _)] key = none
    rw [Map.get_cons, if_neg hmime, Map.get_cons, if_neg hdata]
    rfl
  rcases path with _ | ⟨key, path⟩
  · exact hget "output" (h _ (List.mem_cons_self ..))
  · intro w hw
    rw [hget key (h key (List.mem_cons_self ..))] at hw
    cases hw

theorem get_graft_of_none {f : List String → Option Value} (hf : f [] = none) (v : Value) (key : String) :
    (Json.graft f v).get key = (v.get key).map fun w => Json.graft (fun path => f (key :: path)) w := by
  rcases v with _ | _ | _ | _ | items | members
  · unfold Json.graft; rw [hf]; rfl
  · unfold Json.graft; rw [hf]; rfl
  · unfold Json.graft; rw [hf]; rfl
  · unfold Json.graft; rw [hf]; rfl
  · unfold Json.graft; rw [hf]; rfl
  · have hgraft : Json.graft f (.object members) = .object (Json.graftMembers f members) := by
      unfold Json.graft
      rw [hf]
    rw [hgraft]
    clear hgraft
    show Map.get (Json.graftMembers f members) key = (Map.get members key).map _
    rw [Json.graftMembers_eq]
    induction members with
    | nil => rfl
    | cons m members ih =>
      rw [List.map_cons, Map.get_cons, Map.get_cons]
      by_cases hm : key = m.1
      · rw [if_pos hm, if_pos hm, hm, Option.map_some]
      · rw [if_neg hm, if_neg hm, ih]

/-- Images replace nothing by the directive. -/
theorem Free.graft {path : List String} (hkeys : ∀ key ∈ path ++ ["output"], key ≠ "mimeType" ∧ key ≠ "data")
    {f : List String → Option Value}
    (hf : ∀ p w, f p = some w → ∃ mimeType bytes, w = inlineDataValue mimeType bytes) {v : Value}
    (h : Free path v) : Free path (Json.graft f v) := by
  induction path generalizing f v with
  | nil =>
    rcases hroot : f [] with _ | w
    · show (Json.graft f v).get "output" = none
      rw [get_graft_of_none hroot, show v.get "output" = none from h]
      rfl
    · obtain ⟨mimeType, bytes, rfl⟩ := hf [] w hroot
      rw [Json.graft_of_some hroot]
      exact free_inlineDataValue mimeType bytes hkeys
  | cons key path ih =>
    rcases hroot : f [] with _ | w
    · intro w hw
      rw [get_graft_of_none hroot, Option.map_eq_some_iff] at hw
      obtain ⟨u, hu, rfl⟩ := hw
      exact ih (fun k hk => hkeys k (List.mem_cons_of_mem _ hk)) (fun p w hp => hf (key :: p) w hp) (h u hu)
    · obtain ⟨mimeType, bytes, rfl⟩ := hf [] w hroot
      rw [Json.graft_of_some hroot]
      exact free_inlineDataValue mimeType bytes hkeys

section

variable {readers : String → Reader chunkBytes} {replacements : String → Option RequestReplacement}
  {runtime : BlobRuntime}

/-- A replacement that is written is the node of an image. -/
theorem writeReplacement_ok {reader : Reader chunkBytes} {replacement : RequestReplacement} {out out' : Output}
    (h : writeReplacement reader runtime replacement out = .ok out') :
    out' = out.writeCounted (Json.print (replacement.node runtime)) := by
  have hread : (runtime.readBytes replacement.blob).isSome := by
    unfold writeReplacement at h
    obtain ⟨written, hblob, -⟩ := Except.bind_eq_ok.mp h
    unfold writeBlobAsBase64 at hblob
    have hopen : runtime.openReader replacement.blob = runtime.readBytes replacement.blob := rfl
    rw [hopen] at hblob
    split at hblob
    · rename_i bytes hstorage
      rw [BlobRuntime.readBytes, hstorage]
      rfl
    · split at hblob
      · cases hblob
      · rename_i hsome
        rw [hsome]
        rfl
    · split at hblob
      · cases hblob
      · rename_i hsome
        rw [hsome]
        rfl
  rw [writeReplacement_eq hread] at h
  exact (Except.ok.inj h).symm

/-- What the walk has written where it comes to its end, with the images that it found. -/
def Walked (readers : String → Reader chunkBytes) (replacements : String → Option RequestReplacement)
    (runtime : BlobRuntime) (v : Value) : Prop :=
  ∀ (path : List String) (out out' : Output),
    writeJsonValue readers replacements runtime (Json.Pointer.format path) v out = .ok out' →
    out' = out.writeCounted (Json.print
      (Json.graft (fun rest => nodeAt replacements runtime (path ++ rest)) v))

theorem writeItems_ok {items : List Value} (hitems : ∀ v ∈ items, Walked readers replacements runtime v)
    (path : List String) : ∀ (index : ℕ) (out out' : Output),
      writeItems readers replacements runtime (Json.Pointer.format path) index items out = .ok out' →
      out' = out.writeCounted (Json.printItems (index == 0)
        (Json.graftItems (fun rest => nodeAt replacements runtime (path ++ rest)) index items)) := by
  induction items with
  | nil =>
    intro index out out' h
    have hout : out = out' := Except.ok.inj h
    simp [hout, Json.graftItems, Json.printItems]
  | cons v items ih =>
    intro index out out' h
    unfold writeItems at h
    dsimp only at h
    rw [format_index] at h
    obtain ⟨written, hv, hrest⟩ := Except.bind_eq_ok.mp h
    have hwritten := hitems v (List.mem_cons_self ..) _ _ _ hv
    have hout := ih (fun w hw => hitems w (List.mem_cons_of_mem _ hw)) _ _ _ hrest
    unfold Json.graftItems Json.printItems
    rw [nodeAt_shift, hout, hwritten]
    cases index with
    | zero => simp
    | succ index => simp

theorem writeMembers_ok {members : Map}
    (hmembers : ∀ m ∈ members, Walked readers replacements runtime m.2) (path : List String) :
    ∀ (first : Bool) (out out' : Output),
      writeMembers readers replacements runtime (Json.Pointer.format path) first members out = .ok out' →
      out' = out.writeCounted (Json.printMembers first
        (Json.graftMembers (fun rest => nodeAt replacements runtime (path ++ rest)) members)) := by
  induction members with
  | nil =>
    intro first out out' h
    have hout : out = out' := Except.ok.inj h
    simp [hout, Json.graftMembers, Json.printMembers]
  | cons m members ih =>
    obtain ⟨key, v⟩ := m
    intro first out out' h
    unfold writeMembers at h
    dsimp only at h
    rw [escapeJsonPointerToken_eq, ← Json.Pointer.format_append] at h
    obtain ⟨written, hv, hrest⟩ := Except.bind_eq_ok.mp h
    have hwritten := hmembers (key, v) (List.mem_cons_self ..) _ _ _ hv
    have hout := ih (fun w hw => hmembers w (List.mem_cons_of_mem _ hw)) _ _ _ hrest
    unfold Json.graftMembers Json.printMembers
    rw [nodeAt_shift, hout, hwritten]
    cases first <;> simp

/-- Whatever blobs are missing, a walk that ends has written the value with its images. -/
theorem writeJsonValue_ok (v : Value) : Walked readers replacements runtime v := by
  have hhit : ∀ (v : Value) (path : List String) (out out' : Output) (replacement : RequestReplacement),
      replacements (Json.Pointer.format path) = some replacement →
      writeJsonValue readers replacements runtime (Json.Pointer.format path) v out = .ok out' →
      out' = out.writeCounted (Json.print
        (Json.graft (fun rest => nodeAt replacements runtime (path ++ rest)) v)) := by
    intro v path out out' replacement h hwrite
    have hnode : nodeAt replacements runtime (path ++ []) = some (replacement.node runtime) := by
      rw [List.append_nil, nodeAt, h]
      rfl
    rw [Json.graft_of_some hnode]
    unfold writeJsonValue at hwrite
    rw [h] at hwrite
    exact writeReplacement_ok hwrite
  have hmiss : ∀ path, replacements (Json.Pointer.format path) = none →
      nodeAt replacements runtime (path ++ []) = none := by
    intro path h
    rw [List.append_nil, nodeAt, h]
    rfl
  induction v using Value.induction with
  | null | bool | number | string =>
    intro path out out' hwrite
    rcases h : replacements (Json.Pointer.format path) with _ | replacement
    · unfold writeJsonValue at hwrite
      unfold Json.graft
      rw [h] at hwrite
      rw [hmiss path h]
      exact (Except.ok.inj hwrite).symm
    · exact hhit _ _ _ _ _ h hwrite
  | array items ih =>
    intro path out out' hwrite
    rcases h : replacements (Json.Pointer.format path) with _ | replacement
    · unfold writeJsonValue at hwrite
      unfold Json.graft
      rw [h] at hwrite
      rw [hmiss path h]
      obtain ⟨written, hitems, hclose⟩ := Except.bind_eq_ok.mp hwrite
      rw [← Except.pure_eq_ok.mp hclose, writeItems_ok ih path 0 _ _ hitems]
      simp [Json.print]
    · exact hhit _ _ _ _ _ h hwrite
  | object members ih =>
    intro path out out' hwrite
    rcases h : replacements (Json.Pointer.format path) with _ | replacement
    · unfold writeJsonValue at hwrite
      unfold Json.graft
      rw [h] at hwrite
      rw [hmiss path h]
      obtain ⟨written, hmembers, hclose⟩ := Except.bind_eq_ok.mp hwrite
      rw [← Except.pure_eq_ok.mp hclose, writeMembers_ok ih path true _ _ hmembers]
      simp [Json.print]
    · exact hhit _ _ _ _ _ h hwrite

/-- What a stream is stored as, if it is. -/
theorem storeStream_ok {io : WriteOutcome} {reads : List (List UInt8)} {mimeType : String}
    {runtime' : BlobRuntime} {handle : BlobHandle}
    (h : runtime.storeStream io reads mimeType = (some handle, runtime')) :
    runtime'.readBytes handle = some reads.flatten := by
  have hcompleted : runtime.storeStream .completed reads mimeType = (some handle, runtime') := by
    rw [BlobRuntime.storeStream_eq] at h ⊢
    rw [ite_self]
    split at h
    · unfold BlobRuntime.storeBytes BlobRuntime.storeBuffer at h ⊢
      dsimp only at h ⊢
      split at h
      · exact h
      · rcases io with _ | left
        · exact h
        · cases (Prod.mk.inj h).1
    · exact h
  obtain ⟨stored, runtime'', hstore, hbytes, -⟩ := BlobRuntime.storeStream_completed reads mimeType runtime
  rw [hcompleted] at hstore
  obtain ⟨hhandle, rfl⟩ := Prod.mk.inj hstore
  obtain rfl := Option.some.inj hhandle
  exact hbytes.bytes_eq

/-- **No stored body has the directive**, whatever is replaced in it. -/
theorem encodeRequestBody_stripped {io : WriteOutcome} {pipe : Reader streamChunkBytes} (body : Json.Document)
    {replacements : List RequestReplacement} {encoded : EncodedRequestBody} {runtime' : BlobRuntime}
    (h : encodeRequestBody io readers pipe body.val replacements runtime = .ok (encoded, runtime')) :
    ∃ v, runtime'.readBytes encoded.bodyBlob = some (Json.print v) ∧ Stripped v := by
  unfold encodeRequestBody at h
  obtain ⟨out, hwalk, hstore⟩ := Except.bind_eq_ok.mp h
  have hout := @writeJsonValue_ok readers (replacementMap replacements) runtime
    (stripOutputFromValue body.val) [] ⟨[], 0⟩ out hwalk
  have hstored : ∃ blob, runtime.storeStream io (pipe.split out.bytes) "application/json" = (some blob, runtime') ∧
      encoded.bodyBlob = blob := by
    split at hstore
    · rename_i blob rt heq
      obtain ⟨rfl, rfl⟩ := Prod.mk.inj (Except.pure_eq_ok.mp hstore)
      exact ⟨blob, heq, rfl⟩
    · cases hstore
  obtain ⟨blob, hblob, hsame⟩ := hstored
  refine ⟨Json.graft (fun rest => nodeAt (replacementMap replacements) runtime ([] ++ rest))
    (stripOutputFromValue body.val), ?_, ?_⟩
  · rw [hsame, storeStream_ok hblob, pipe.flatten_split, hout]
    rfl
  · have hstripped := (stripped_iff _).mp (stripped_stripOutputFromValue body.property.1)
    obtain ⟨hroot, hcamel, hsnake⟩ := hstripped
    have hnodes : ∀ p w, nodeAt (replacementMap replacements) runtime ([] ++ p) = some w →
        ∃ mimeType bytes, w = inlineDataValue mimeType bytes := by
      intro p w hnode
      obtain ⟨replacement, -, rfl⟩ := Option.map_eq_some_iff.mp hnode
      exact ⟨_, _, rfl⟩
    rw [stripped_iff]
    exact ⟨hroot.graft (by decide +kernel) hnodes, hcamel.graft (by decide +kernel) hnodes,
      hsnake.graft (by decide +kernel) hnodes⟩

end

/-! ## The query -/

/-- Whether a pair is not the directive. -/
def isKept (pair : String × String) : Bool := pair.1 ≠ "output"

/-- The loop serializes the pairs that are kept, and sees whether there is one. -/
theorem foldl_keepPair (pairs : List (String × String)) (state : List UInt8 × Bool) :
    pairs.foldl keepPair state =
      ((pairs.filter isKept).foldl FormUrlencoded.appendPair state.1, state.2 || pairs.any isKept) := by
  induction pairs generalizing state with
  | nil => simp
  | cons pair pairs ih =>
    rw [List.foldl_cons, ih, List.filter_cons, List.any_cons, keepPair]
    by_cases hkey : pair.1 = "output"
    · have hdropped : isKept pair = false := by simp [isKept, hkey]
      rw [if_pos hkey, hdropped, if_neg Bool.false_ne_true, Bool.false_or]
    · have hkept : isKept pair = true := by simp [isKept, hkey]
      rw [if_neg hkey, hkept, if_pos rfl, List.foldl_cons, Bool.true_or, Bool.or_true]

/-- **The pairs of the query that is forwarded** are the others, in their order. -/
theorem parse_filterQueryWithoutOutput (query : Option (List UInt8)) :
    FormUrlencoded.parse ((filterQueryWithoutOutput query).getD []) =
      (FormUrlencoded.parse (query.getD [])).filter isKept := by
  rcases query with _ | query
  · rfl
  · have hloop := foldl_keepPair (FormUrlencoded.parse query) ([], false)
    unfold filterQueryWithoutOutput
    rw [Option.bind_some, Option.getD_some]
    dsimp only
    rw [hloop, Bool.false_or]
    by_cases hany : (FormUrlencoded.parse query).any isKept = true
    · rw [if_pos hany, Option.getD_some]
      exact FormUrlencoded.parse_serializePairs _
    · have hnone : (FormUrlencoded.parse query).filter isKept = [] := by
        rw [List.filter_eq_nil_iff]
        intro pair hpair hkept
        exact hany (List.any_eq_true.mpr ⟨pair, hpair, hkept⟩)
      rw [if_neg hany, hnone]
      rfl

end GeminiWorker
