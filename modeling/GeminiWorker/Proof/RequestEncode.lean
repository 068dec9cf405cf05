import GeminiWorker.Lib.JsonPointer
import GeminiWorker.Proof.BlobRuntime
import GeminiWorker.Spec.RequestEncode

/-!
# The encoder writes the serialization

* `writeReads_eq`: base64 written from short reads is the base64 of the whole contents.
* `writeJsonValue_eq`: the walk writes the compact form of the value with the
  replaced nodes, and counts it.
* `encodeRequestBody_eq`: the stored body is the serialization of the substituted value,
  and its three lengths agree.
-/

namespace GeminiWorker

open Json (Value Map Grafts)

@[simp] theorem Output.writeCounted_writeCounted (out : Output) (a b : List UInt8) :
    (out.writeCounted a).writeCounted b = out.writeCounted (a ++ b) := by
  simp [Output.writeCounted, Nat.add_assoc]

@[simp] theorem Output.writeCounted_nil (out : Output) : out.writeCounted [] = out := by
  simp [Output.writeCounted]

/-! ## Base64 from short reads -/

theorem encodeSlice_eq {bytes : List UInt8} {capacity : ℕ}
    (h : (bytes.length + 2) / 3 * 4 ≤ capacity) :
    Base64.encodeSlice bytes capacity = some (Base64.encode bytes) := by
  unfold Base64.encodeSlice
  rw [Base64.length_encode, if_pos h]

/-- **The carry loop.** With at most two bytes carried over, no slice is out of bounds, the
output buffer is never too small, and what is written is the base64 of everything read. -/
theorem writeReads_eq {reads : List (List UInt8)} :
    ∀ {carry : List UInt8} {out : Output}, carry.length ≤ 2 →
      (∀ read ∈ reads, read.length ≤ chunkBytes) →
      writeReads reads carry out = .ok (out.writeCounted (Base64.encode (carry ++ reads.flatten))) := by
  have hcap : outputCapacity = 65540 := rfl
  have hchunk : chunkBytes = 49152 := rfl
  induction reads with
  | nil =>
    intro carry out hcarry _
    unfold writeReads
    simp only [List.flatten_nil, List.append_nil]
    split
    · rw [encodeSlice_eq (by omega)]
    · have hnil : carry = [] := List.length_eq_zero_iff.1 (by omega)
      rw [hnil, Base64.encode_nil, Output.writeCounted_nil]
  | cons read reads ih =>
    intro carry out hcarry hreads
    have hread := hreads read (List.mem_cons_self ..)
    have hrest : ∀ r ∈ reads, r.length ≤ chunkBytes := fun r hr => hreads r (List.mem_cons_of_mem _ hr)
    have hlen : (carry ++ read).length ≤ chunkBytes + 2 := by
      rw [List.length_append]
      omega
    unfold writeReads
    rw [if_neg (by omega)]
    simp only [List.flatten_cons, ← List.append_assoc]
    generalize carry ++ read = input at hlen
    split
    · -- fewer than three bytes so far: all of them are carried over
      exact ih (by omega) hrest
    · have htake : (input.take (input.length / 3 * 3)).length = input.length / 3 * 3 := by
        rw [List.length_take]
        omega
      rw [encodeSlice_eq (by omega)]
      dsimp only
      rw [ih (by rw [List.length_drop]; omega) hrest, Output.writeCounted_writeCounted,
        ← Base64.encode_append _ (by omega), ← List.append_assoc, List.take_append_drop]

theorem writeBlobAsBase64_eq {reader : Reader chunkBytes} {runtime : BlobRuntime}
    {blob : BlobHandle} {contents : List UInt8} (h : runtime.readBytes blob = some contents)
    (out : Output) :
    writeBlobAsBase64 reader runtime blob out = .ok (out.writeCounted (Base64.encode contents)) := by
  have hopen : runtime.openReader blob = some contents := h
  have hstream : writeReads (reader.split contents) [] out =
      .ok (out.writeCounted (Base64.encode contents)) := by
    rw [writeReads_eq (by simp) (reader.length_le_of_mem_split contents),
      reader.flatten_split, List.nil_append]
  unfold writeBlobAsBase64
  rw [hopen]
  cases hs : blob.storage with
  | inline bytes =>
    obtain rfl : bytes = contents := by simpa [BlobRuntime.readBytes, hs] using h
    dsimp only
    unfold writeBase64Bytes
    cases bytes with
    | nil => simp
    | cons b bytes =>
      rw [encodeSlice_eq le_rfl]
      rfl
  | shared bytes => exact hstream
  | spilled path => exact hstream

/-! ## The walk -/

/-- The node that stands for an image. -/
def inlineDataValue (mimeType : String) (bytes : List UInt8) : Value :=
  .object [("mimeType", .string mimeType), ("data", .string (Base64.encodeText bytes))]

/-- The node a replacement stands for. -/
def RequestReplacement.node (runtime : BlobRuntime) (replacement : RequestReplacement) : Value :=
  inlineDataValue replacement.mimeType ((runtime.readBytes replacement.blob).getD [])

theorem writeReplacement_eq {reader : Reader chunkBytes} {runtime : BlobRuntime}
    {replacement : RequestReplacement} (h : (runtime.readBytes replacement.blob).isSome)
    (out : Output) :
    writeReplacement reader runtime replacement out =
      .ok (out.writeCounted (Json.print (replacement.node runtime))) := by
  obtain ⟨contents, hcontents⟩ := Option.isSome_iff_exists.1 h
  unfold writeReplacement RequestReplacement.node inlineDataValue
  dsimp only
  rw [writeBlobAsBase64_eq hcontents]
  simp only [Json.print, Json.printMembers, hcontents, Option.getD_some,
    Base64.printString_encodeText]
  have hquote : Text.bytes ":\"" = Text.bytes ":" ++ Text.bytes "\"" := rfl
  have hclose : Text.bytes "\"\x7d" = Text.bytes "\"" ++ Text.bytes "\x7d" := rfl
  simp [bind, Except.bind, pure, Except.pure, hquote, hclose]

theorem escapeJsonPointerToken_eq (token : String) :
    escapeJsonPointerToken token = Json.Pointer.escape token := by
  unfold escapeJsonPointerToken Json.Pointer.escape Json.Pointer.escapeChars
  congr 1
  rw [List.flatMap_assoc]
  apply List.flatMap_congr
  intro c _
  by_cases htilde : c = '~'
  · subst htilde; rfl
  · simp [htilde]

section Walk

variable {readers : String → Reader chunkBytes} {replacements : String → Option RequestReplacement}
  {runtime : BlobRuntime}

/-- The node written at a path, if its pointer is replaced. -/
def nodeAt (replacements : String → Option RequestReplacement) (runtime : BlobRuntime)
    (path : List String) : Option Value :=
  (replacements (Json.Pointer.format path)).map (·.node runtime)

theorem format_index (path : List String) (index : ℕ) :
    Json.Pointer.format path ++ "/" ++ toString index =
      Json.Pointer.format (path ++ [toString index]) := by
  have hdigits : ∀ cs : List Char, (∀ c ∈ cs, c.isDigit = true) → Json.Pointer.escapeChars cs = cs := by
    intro cs h
    induction cs with
    | nil => rfl
    | cons c cs ih =>
      have hc := h c (List.mem_cons_self ..)
      have htilde : c ≠ '~' := by rintro rfl; cases hc
      have hslash : c ≠ '/' := by rintro rfl; cases hc
      have hcs := ih fun d hd => h d (List.mem_cons_of_mem _ hd)
      unfold Json.Pointer.escapeChars at hcs ⊢
      rw [List.flatMap_cons, hcs, if_neg htilde, if_neg hslash]
      rfl
  have hindex : (toString index).toList = Nat.toDigits 10 index := by
    simp [Nat.toString_eq_repr, Nat.repr]
  have hescape : Json.Pointer.escape (toString index) = toString index := by
    unfold Json.Pointer.escape
    rw [hdigits _ fun c hc => ?_, String.ofList_toList]
    rw [hindex] at hc
    exact Nat.isDigit_of_mem_toDigits (by omega) (by omega) hc
  rw [Json.Pointer.format_append, hescape]

theorem nodeAt_shift (path : List String) (token : String) :
    (fun rest => nodeAt replacements runtime (path ++ token :: rest)) =
      fun rest => nodeAt replacements runtime ((path ++ [token]) ++ rest) := by
  funext rest
  rw [List.append_assoc]
  rfl

/-- What the walk does at a value: it writes the compact form of the grafted value. -/
def WalkOK (readers : String → Reader chunkBytes)
    (replacements : String → Option RequestReplacement) (runtime : BlobRuntime) (v : Value) : Prop :=
  ∀ (path : List String) (out : Output),
    writeJsonValue readers replacements runtime (Json.Pointer.format path) v out =
      .ok (out.writeCounted (Json.print
        (Json.graft (fun rest => nodeAt replacements runtime (path ++ rest)) v)))

theorem writeItems_eq {items : List Value}
    (hitems : ∀ v ∈ items, WalkOK readers replacements runtime v) (path : List String) :
    ∀ (index : ℕ) (out : Output),
      writeItems readers replacements runtime (Json.Pointer.format path) index items out =
        .ok (out.writeCounted (Json.printItems (index == 0)
          (Json.graftItems (fun rest => nodeAt replacements runtime (path ++ rest)) index items))) := by
  induction items with
  | nil => intro index out; simp [writeItems, Json.graftItems, Json.printItems]
  | cons v items ih =>
    intro index out
    have hv := hitems v (List.mem_cons_self ..)
    have hrest := ih fun w hw => hitems w (List.mem_cons_of_mem _ hw)
    unfold writeItems Json.graftItems Json.printItems
    dsimp only
    rw [format_index, hv, nodeAt_shift]
    simp only [bind, Except.bind]
    rw [hrest]
    cases index with
    | zero => simp
    | succ index => simp

theorem writeMembers_eq {members : Map}
    (hmembers : ∀ m ∈ members, WalkOK readers replacements runtime m.2) (path : List String) :
    ∀ (first : Bool) (out : Output),
      writeMembers readers replacements runtime (Json.Pointer.format path) first members out =
        .ok (out.writeCounted (Json.printMembers first
          (Json.graftMembers (fun rest => nodeAt replacements runtime (path ++ rest)) members))) := by
  induction members with
  | nil => intro first out; simp [writeMembers, Json.graftMembers, Json.printMembers]
  | cons m members ih =>
    intro first out
    obtain ⟨key, v⟩ := m
    have hv : WalkOK readers replacements runtime v := hmembers (key, v) (List.mem_cons_self ..)
    have hrest := ih fun w hw => hmembers w (List.mem_cons_of_mem _ hw)
    unfold writeMembers Json.graftMembers Json.printMembers
    dsimp only
    rw [escapeJsonPointerToken_eq, ← Json.Pointer.format_append, hv, nodeAt_shift]
    simp only [bind, Except.bind]
    rw [hrest]
    cases first <;> simp

/-- **The walk.** From any node on, it writes and counts the compact form of the value in
which every replaced node stands for its image. -/
theorem writeJsonValue_eq (hheld : ∀ path replacement, replacements path = some replacement →
      (runtime.readBytes replacement.blob).isSome) (v : Value) :
    WalkOK readers replacements runtime v := by
  -- at a replaced node the walk stops, whatever the value is
  have hhit : ∀ (v : Value) (path : List String) (out : Output) (replacement : RequestReplacement),
      replacements (Json.Pointer.format path) = some replacement →
      writeJsonValue readers replacements runtime (Json.Pointer.format path) v out =
        .ok (out.writeCounted (Json.print
          (Json.graft (fun rest => nodeAt replacements runtime (path ++ rest)) v))) := by
    intro v path out replacement h
    have hnode : nodeAt replacements runtime (path ++ []) = some (replacement.node runtime) := by
      rw [List.append_nil]
      unfold nodeAt
      rw [h]
      rfl
    rw [Json.graft_of_some hnode]
    unfold writeJsonValue
    rw [h]
    exact writeReplacement_eq (hheld _ _ h) out
  have hmiss : ∀ path, replacements (Json.Pointer.format path) = none →
      nodeAt replacements runtime (path ++ []) = none := by
    intro path h
    rw [List.append_nil]
    unfold nodeAt
    rw [h]
    rfl
  induction v using Value.induction with
  | null | bool | number | string =>
    intro path out
    cases h : replacements (Json.Pointer.format path) with
    | some replacement => exact hhit _ _ _ _ h
    | none =>
      unfold writeJsonValue Json.graft
      rw [h, hmiss path h]
  | array items ih =>
    intro path out
    cases h : replacements (Json.Pointer.format path) with
    | some replacement => exact hhit _ _ _ _ h
    | none =>
      unfold writeJsonValue Json.graft
      rw [h, hmiss path h]
      dsimp only
      rw [writeItems_eq ih path]
      simp [Json.print, bind, Except.bind, pure, Except.pure]
  | object members ih =>
    intro path out
    cases h : replacements (Json.Pointer.format path) with
    | some replacement => exact hhit _ _ _ _ h
    | none =>
      unfold writeJsonValue Json.graft
      rw [h, hmiss path h]
      dsimp only
      rw [writeMembers_eq ih path]
      simp [Json.print, bind, Except.bind, pure, Except.pure]

end Walk

/-! ## The stored body -/

theorem replacementMap_eq_some {replacements : List RequestReplacement} {path : String}
    {replacement : RequestReplacement} (h : replacementMap replacements path = some replacement) :
    replacement ∈ replacements ∧ replacement.jsonPointer = path := by
  unfold replacementMap at h
  refine ⟨List.mem_reverse.1 (List.mem_of_find?_eq_some h), ?_⟩
  simpa using List.find?_some h

/-- The bytes the encoder stands for. -/
def encodedBytes (request : Value) (replacements : List RequestReplacement)
    (runtime : BlobRuntime) : List UInt8 :=
  Json.print (Json.graft (nodeAt (replacementMap replacements) runtime)
    (stripOutputFromValue request))

/-- **The encoder stores its bytes through the pipe**, and counts them. -/
theorem encodeRequestBody_eq_store (io : WriteOutcome) (readers : String → Reader chunkBytes)
    (pipe : Reader streamChunkBytes) (request : Value) {replacements : List RequestReplacement}
    {runtime : BlobRuntime}
    (hheld : ∀ replacement ∈ replacements, (runtime.readBytes replacement.blob).isSome) :
    encodeRequestBody io readers pipe request replacements runtime =
      match runtime.storeStream io (pipe.split (encodedBytes request replacements runtime))
        "application/json" with
      | (some bodyBlob, runtime') =>
        .ok (⟨bodyBlob, (encodedBytes request replacements runtime).length⟩, runtime')
      | (none, _) => .error .store := by
  have hheld' : ∀ path replacement, replacementMap replacements path = some replacement →
      (runtime.readBytes replacement.blob).isSome :=
    fun path replacement h => hheld _ (replacementMap_eq_some h).1
  have hok : WalkOK readers (replacementMap replacements) runtime (stripOutputFromValue request) :=
    writeJsonValue_eq hheld' _
  have hwalk : writeJsonValue readers (replacementMap replacements) runtime ""
      (stripOutputFromValue request) ⟨[], 0⟩ =
        .ok (Output.writeCounted ⟨[], 0⟩ (encodedBytes request replacements runtime)) := hok [] ⟨[], 0⟩
  have hout : Output.writeCounted ⟨[], 0⟩ (encodedBytes request replacements runtime) =
      ⟨encodedBytes request replacements runtime,
        (encodedBytes request replacements runtime).length⟩ := by
    simp [Output.writeCounted]
  unfold encodeRequestBody
  dsimp only
  rw [hwalk, hout]
  rfl

/-- **The stored body and its lengths**, whatever reads the blobs and the pipe are split into. -/
theorem encodeRequestBody_stored (readers : String → Reader chunkBytes)
    (pipe : Reader streamChunkBytes) (request : Value) {replacements : List RequestReplacement}
    {runtime : BlobRuntime}
    (hheld : ∀ replacement ∈ replacements, (runtime.readBytes replacement.blob).isSome) :
    ∃ encoded runtime',
      encodeRequestBody .completed readers pipe request replacements runtime = .ok (encoded, runtime') ∧
      runtime'.StoredAs encoded.bodyBlob (encodedBytes request replacements runtime) ∧
      encoded.contentLength = (encodedBytes request replacements runtime).length ∧
      runtime.Extends runtime' := by
  rw [encodeRequestBody_eq_store .completed readers pipe request hheld]
  generalize encodedBytes request replacements runtime = bytes
  obtain ⟨bodyBlob, runtime', hstore, hbody, hextends⟩ :=
    BlobRuntime.storeStream_completed (pipe.split bytes) "application/json" runtime
  rw [pipe.flatten_split] at hbody
  rw [hstore]
  exact ⟨⟨bodyBlob, bytes.length⟩, runtime', rfl, hbody, rfl, hextends⟩

/-- The nodes to replace: the images of the replacements whose pointer is one. -/
def grafts (runtime : BlobRuntime) (replacements : List RequestReplacement) : Grafts :=
  replacements.filterMap fun replacement =>
    (Json.Pointer.parse replacement.jsonPointer).map (·, replacement.node runtime)

/-- The value the encoder stands for: the body without its output fields, in which each
pointer that resolves, and lies in no other replaced node, holds its image. -/
def substituted (runtime : BlobRuntime) (request : Value)
    (replacements : List RequestReplacement) : Value :=
  Json.replaceAll (Json.outermost (grafts runtime replacements)) (stripOutputFromValue request)

theorem nodup_grafts {runtime : BlobRuntime} {replacements : List RequestReplacement}
    (h : (replacements.map (·.jsonPointer)).Nodup) :
    ((grafts runtime replacements).map Prod.fst).Nodup := by
  induction replacements with
  | nil => exact List.nodup_nil
  | cons replacement replacements ih =>
    obtain ⟨hnot, hnodup⟩ := List.nodup_cons.1 h
    unfold grafts at ih ⊢
    rw [List.filterMap_cons]
    cases hparse : Json.Pointer.parse replacement.jsonPointer with
    | none => exact ih hnodup
    | some path =>
      refine List.nodup_cons.2 ⟨fun hmem => hnot ?_, ih hnodup⟩
      obtain ⟨graft, hgraft, hpath⟩ := List.mem_map.1 hmem
      obtain ⟨other, hother, hsome⟩ := List.mem_filterMap.1 hgraft
      obtain ⟨path', hparse', rfl⟩ := Option.map_eq_some_iff.1 hsome
      dsimp only at hpath
      -- both pointers spell the same path
      have hsame : other.jsonPointer = replacement.jsonPointer := by
        rw [Json.Pointer.parse_eq_some_iff.1 hparse, ← hpath,
          ← Json.Pointer.parse_eq_some_iff.1 hparse']
      exact List.mem_map.2 ⟨other, hother, hsame⟩

/-- **With distinct pointers**, the node looked up while writing is the graft at that path. -/
theorem nodeAt_eq_lookup {runtime : BlobRuntime} {replacements : List RequestReplacement}
    (h : (replacements.map (·.jsonPointer)).Nodup) (path : List String) :
    nodeAt (replacementMap replacements) runtime path = (grafts runtime replacements).lookup path := by
  apply Option.ext
  intro w
  rw [Assoc.lookup_eq_some_iff_mem (nodup_grafts h)]
  unfold nodeAt grafts
  rw [Option.map_eq_some_iff, List.mem_filterMap]
  constructor
  · rintro ⟨replacement, hfind, rfl⟩
    obtain ⟨hmem, hpointer⟩ := replacementMap_eq_some hfind
    exact ⟨replacement, hmem, by rw [Json.Pointer.parse_eq_some_iff.2 hpointer]; rfl⟩
  · rintro ⟨replacement, hmem, hsome⟩
    obtain ⟨path', hparse, hpair⟩ := Option.map_eq_some_iff.1 hsome
    obtain ⟨rfl, rfl⟩ := Prod.mk.inj hpair
    have hpointer := Json.Pointer.parse_eq_some_iff.1 hparse
    refine ⟨replacement, ?_, rfl⟩
    unfold replacementMap
    cases hfind : replacements.reverse.find? fun r => r.jsonPointer == Json.Pointer.format path' with
    | none =>
      have := List.find?_eq_none.1 hfind replacement (List.mem_reverse.2 hmem)
      simp [hpointer] at this
    | some other =>
      obtain ⟨hother, hsame⟩ := replacementMap_eq_some hfind
      rw [List.inj_on_of_nodup_map h hother hmem (hsame.trans hpointer.symm)]

/-- **The stored body is the serialization of the substituted value**, whatever reads the
blobs and the pipe are split into, and the three lengths agree. -/
theorem encodeRequestBody_eq (readers : String → Reader chunkBytes) (pipe : Reader streamChunkBytes)
    (request : Value) (replacements : List RequestReplacement) (runtime : BlobRuntime)
    (hpointers : (replacements.map (·.jsonPointer)).Nodup)
    (hstored : ∀ replacement ∈ replacements, runtime.Stored replacement.blob) :
    ∃ encoded runtime',
      encodeRequestBody .completed readers pipe request replacements runtime = .ok (encoded, runtime') ∧
      runtime'.readBytes encoded.bodyBlob = some (Json.print (substituted runtime request replacements)) ∧
      encoded.contentLength = (Json.print (substituted runtime request replacements)).length ∧
      encoded.bodyBlob.blobMeta.sizeBytes =
        (Json.print (substituted runtime request replacements)).length ∧
      ∀ replacement ∈ replacements,
        runtime'.readBytes replacement.blob = runtime.readBytes replacement.blob := by
  obtain ⟨encoded, runtime', hencode, hbody, hlength, hextends⟩ := encodeRequestBody_stored readers
    pipe request fun replacement h => (hstored replacement h).readable
  have hvalue : encodedBytes request replacements runtime =
      Json.print (substituted runtime request replacements) := by
    unfold substituted encodedBytes
    rw [Json.replaceAll_outermost _ (nodup_grafts hpointers)]
    congr 2
    funext path
    exact nodeAt_eq_lookup hpointers path
  rw [hvalue] at hbody hlength
  exact ⟨encoded, runtime', hencode, hbody.bytes_eq, hlength, hbody.size_eq,
    fun replacement h => hextends.readBytes_eq (hstored replacement h)⟩

def inlineExample : BlobHandle := ⟨1, ⟨"image/png", 3⟩, .inline [1, 2, 3]⟩

def spilledExample : BlobHandle := ⟨2, ⟨"image/jpeg", 4⟩, .spilled "/tmp/blobs/blob-2.bin"⟩

/-- A runtime that holds both blobs. -/
def runtimeExample : BlobRuntime :=
  { BlobRuntime.new ⟨3, 64, 64, "/tmp/blobs"⟩
      (fun path => if path = "/tmp/blobs/blob-2.bin" then some [4, 5, 6, 7] else none) with
    nextId := 3, globalHotBytes := 3, spillCount := 1, spillBytesTotal := 4 }

/-- Two replacements, and one within the second. -/
def replacementsExample : List RequestReplacement :=
  [⟨"/parts/0/inlineData", "image/png", inlineExample⟩, ⟨"/parts/1/inlineData", "image/jpeg", spilledExample⟩,
    ⟨"/parts/1/inlineData/data", "image/png", inlineExample⟩]

def requestExample : Value :=
  .object [("output", .string "url"),
    ("parts", .array [.object [("inlineData", .object [("data", .string "https://e.com/a.png")])],
      .object [("inlineData", .object [("data", .object [])])]])]

theorem encodeRequestBody_example :
    ∃ encoded runtime',
      encodeRequestBody .completed (fun _ => Reader.bytewise (by decide))
        (Reader.bytewise (by decide)) requestExample replacementsExample runtimeExample =
          .ok (encoded, runtime') ∧
      runtime'.readBytes encoded.bodyBlob = some (Text.bytes
        ("\x7b\"parts\":[\x7b\"inlineData\":\x7b\"mimeType\":\"image/png\",\"data\":\"AQID\"\x7d\x7d," ++
          "\x7b\"inlineData\":\x7b\"mimeType\":\"image/jpeg\",\"data\":\"BAUGBw==\"\x7d\x7d]\x7d")) := by
  have hinline : runtimeExample.Stored inlineExample := by
    refine ⟨by decide, fun path h => ?_, rfl⟩
    cases h
  have hspilled : runtimeExample.Stored spilledExample := by
    refine ⟨by decide, fun path h => ?_, rfl⟩
    rw [← BlobStorage.spilled.inj h]
    decide +kernel
  have hstored : ∀ replacement ∈ replacementsExample, runtimeExample.Stored replacement.blob := by
    intro replacement hmem
    simp only [replacementsExample, List.mem_cons, List.not_mem_nil, or_false] at hmem
    rcases hmem with rfl | rfl | rfl
    · exact hinline
    · exact hspilled
    · exact hinline
  obtain ⟨encoded, runtime', hencode, hbytes, -, -, -⟩ := encodeRequestBody_eq
    (fun _ => Reader.bytewise (by decide)) (Reader.bytewise (by decide)) requestExample
    replacementsExample runtimeExample (by decide) hstored
  refine ⟨encoded, runtime', hencode, ?_⟩
  rw [hbytes]
  decide +kernel

end GeminiWorker
