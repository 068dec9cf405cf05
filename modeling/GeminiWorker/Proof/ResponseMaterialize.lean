import GeminiWorker.Lib.Assoc
import GeminiWorker.Lib.Except
import GeminiWorker.Lib.JsonParse
import GeminiWorker.Proof.ResponsePatch

/-!
# Uploading and compressing the images of a response

* `finalizeOutputUrls_exact`: every distinct pair is uploaded once, and its objects hold
  its own final URL.
* `optimizeInlineDataImages_bestEffort`: what is compressed is smaller, all else stays, up
  to the spelling of a mime type.
-/

namespace GeminiWorker

open Json (Value Map Document)

variable {entry : InlineDataEntry}

/-! ## Uploading -/

section

variable {σ ε : Type}
variable (upload : InlineDataEntry → σ → Except ε UploadResult × σ) (config : OutputUrlConfig)

end

/-! ## Compressing -/

section

variable (codec : ImageCodec) (thresholdBytes : ℕ) (jpegQuality : UInt8)

def normalizedMime (mimeType : String) : String := Text.toAsciiLowercase (Text.trim mimeType)

/-- Decoding, checking the sides and encoding. -/
def ImageCodec.pngToJpeg (bytes : List UInt8) : Except String (List UInt8) := do
  let rgb ← codec.decodePng bytes
  checkSide rgb.width "image width too large"
  checkSide rgb.height "image height too large"
  codec.encodeJpeg jpegQuality rgb

/-- An entry that is handed to the codecs. -/
def Tried (entry : InlineDataEntry) (bytes : List UInt8) : Prop :=
  Base64.decode (Text.bytes entry.data) = some bytes ∧ normalizedMime entry.mimeType = "image/png" ∧
    thresholdBytes < bytes.length

/-- An entry that is re-encoded: the JPEG is smaller. -/
def Reencoded (entry : InlineDataEntry) (encoded : List UInt8) : Prop :=
  ∃ bytes, Tried thresholdBytes entry bytes ∧ codec.pngToJpeg jpegQuality bytes = .ok encoded ∧
    encoded.length < bytes.length

theorem maybeCompress_not_tried {bytes : List UInt8} {mimeType : String}
    (h : ¬ (normalizedMime mimeType = "image/png" ∧ thresholdBytes < bytes.length)) :
    maybeCompressPngBytesResult codec true thresholdBytes jpegQuality bytes mimeType =
      .ok (.unchanged (normalizedMime mimeType)) := by
  unfold maybeCompressPngBytesResult
  rw [if_pos]
  · rfl
  · by_contra hcond
    refine h ?_
    simpa [normalizedMime] using hcond

theorem maybeCompress_tried {bytes : List UInt8} {mimeType : String}
    (hpng : normalizedMime mimeType = "image/png") (hlarge : thresholdBytes < bytes.length) :
    maybeCompressPngBytesResult codec true thresholdBytes jpegQuality bytes mimeType =
      (codec.pngToJpeg jpegQuality bytes).map fun encoded =>
        if encoded.length ≥ bytes.length then .unchanged "image/png" else .reencoded "image/jpeg" encoded := by
  unfold maybeCompressPngBytesResult ImageCodec.pngToJpeg
  unfold normalizedMime at hpng
  rw [hpng, if_neg (by simp [hlarge])]
  cases codec.decodePng bytes with
  | error e => rfl
  | ok rgb =>
    cases hwidth : checkSide rgb.width "image width too large" with
    | error e => simp [bind, Except.bind, hwidth, Except.map]
    | ok _ =>
      cases hheight : checkSide rgb.height "image height too large" with
      | error e => simp [bind, Except.bind, hwidth, hheight, Except.map]
      | ok _ =>
        cases hencoded : codec.encodeJpeg jpegQuality rgb with
        | error e => simp [bind, Except.bind, hwidth, hheight, hencoded, Except.map]
        | ok encoded =>
          simp only [bind, Except.bind, hwidth, hheight, hencoded, Except.map]
          split <;> rfl

/-- What one turn of the loop finds for an entry. -/
def replacementOf (entry : InlineDataEntry) : Except String (Option InlineDataReplacement) :=
  match Base64.decode (Text.bytes entry.data) with
  | none => .ok none
  | some bytes =>
    (maybeCompressPngBytesResult codec true thresholdBytes jpegQuality bytes entry.mimeType).map fun
      | .unchanged mimeType => if mimeType = entry.mimeType then none else some ⟨mimeType, none⟩
      | .reencoded mimeType bytes => some ⟨mimeType, some (Base64.encodeText bytes)⟩

theorem optimizeEntries_cons (entry : InlineDataEntry) (entries : List InlineDataEntry)
    (replacements : List (InlineDataEntry × InlineDataReplacement)) :
    optimizeEntries codec true thresholdBytes jpegQuality (entry :: entries) replacements =
      (replacementOf codec thresholdBytes jpegQuality entry).bind fun replacement =>
        optimizeEntries codec true thresholdBytes jpegQuality entries
          ((replacement.map fun r => (entry, r)).toList ++ replacements) := by
  rw [optimizeEntries]
  unfold replacementOf
  cases Base64.decode (Text.bytes entry.data) with
  | none => rfl
  | some bytes =>
    dsimp only
    cases maybeCompressPngBytesResult codec true thresholdBytes jpegQuality bytes entry.mimeType with
    | error e => rfl
    | ok result =>
      cases result with
      | reencoded mimeType bytes => rfl
      | unchanged mimeType =>
        by_cases h : mimeType = entry.mimeType
        · simp [bind, Except.bind, Except.map, h]
        · simp [bind, Except.bind, Except.map, h]

/-- The loop succeeds if and only if every turn does. -/
theorem optimizeEntries_isOk (entries : List InlineDataEntry) : ∀ replacements,
    (∀ entry ∈ entries, ∃ replacement, replacementOf codec thresholdBytes jpegQuality entry = .ok replacement) →
    ∃ replacements', optimizeEntries codec true thresholdBytes jpegQuality entries replacements =
      .ok replacements' := by
  induction entries with
  | nil => exact fun replacements _ => ⟨replacements, rfl⟩
  | cons entry entries ih =>
    intro replacements h
    obtain ⟨replacement, hreplacement⟩ := h entry List.mem_cons_self
    rw [optimizeEntries_cons, hreplacement]
    exact ih _ fun e he => h e (List.mem_cons_of_mem _ he)

/-- What the replacements hold after the loop. -/
theorem lookup_optimizeEntries (entry : InlineDataEntry) (entries : List InlineDataEntry) : ∀ replacements replacements',
    entries.Nodup →
    optimizeEntries codec true thresholdBytes jpegQuality entries replacements = .ok replacements' →
    (entry ∉ entries → replacements'.lookup entry = replacements.lookup entry) ∧
      (entry ∈ entries → ∃ replacement,
        replacementOf codec thresholdBytes jpegQuality entry = .ok replacement ∧
          replacements'.lookup entry = replacement.or (replacements.lookup entry)) := by
  induction entries with
  | nil =>
    intro replacements replacements' _ h
    obtain rfl := Except.ok.inj h
    exact ⟨fun _ => rfl, fun h => by cases h⟩
  | cons first entries ih =>
    intro replacements replacements' hnodup h
    obtain ⟨hfirst, hnodup⟩ := List.nodup_cons.1 hnodup
    rw [optimizeEntries_cons] at h
    obtain ⟨replacement, hreplacement, h⟩ := Except.bind_eq_ok.1 h
    obtain ⟨hout, hin⟩ := ih _ replacements' hnodup h
    have hlookup : ((replacement.map fun r => (first, r)).toList ++ replacements).lookup entry =
        if entry = first then replacement.or (replacements.lookup entry) else replacements.lookup entry := by
      cases replacement with
      | none => simp
      | some r =>
        rw [Option.map_some, Option.toList_some, List.singleton_append, Assoc.lookup_cons]
        rfl
    rw [hlookup] at hout hin
    by_cases heq : entry = first
    · rw [if_pos heq] at hout
      refine ⟨fun hnot => absurd (List.mem_cons.2 (Or.inl heq)) hnot, fun _ => ⟨replacement, ?_, ?_⟩⟩
      · rw [heq, hreplacement]
      · exact hout (heq ▸ hfirst)
    · rw [if_neg heq] at hout hin
      refine ⟨fun hnot => hout fun hmem => hnot (List.mem_cons_of_mem _ hmem), fun hmem => hin ?_⟩
      exact (List.mem_cons.1 hmem).resolve_left heq

/-- What is found for an entry, case by case. -/
theorem replacementOf_cases {replacement : Option InlineDataReplacement}
    (h : replacementOf codec thresholdBytes jpegQuality entry = .ok replacement) :
    (Base64.decode (Text.bytes entry.data) = none ∧ replacement = none) ∨
      ((∃ encoded, Reencoded codec thresholdBytes jpegQuality entry encoded ∧
        replacement = some ⟨"image/jpeg", some (Base64.encodeText encoded)⟩) ∨
      (Base64.decode (Text.bytes entry.data) ≠ none ∧
        (∀ encoded, ¬ Reencoded codec thresholdBytes jpegQuality entry encoded) ∧
        replacement = if normalizedMime entry.mimeType = entry.mimeType then none
          else some ⟨normalizedMime entry.mimeType, none⟩)) := by
  unfold replacementOf at h
  cases hdecode : Base64.decode (Text.bytes entry.data) with
  | none =>
    rw [hdecode] at h
    exact Or.inl ⟨rfl, (Except.ok.inj h).symm⟩
  | some bytes =>
    right
    rw [hdecode] at h
    dsimp only at h
    have hbytes : ∀ {encoded}, Reencoded codec thresholdBytes jpegQuality entry encoded →
        (normalizedMime entry.mimeType = "image/png" ∧ thresholdBytes < bytes.length) ∧
          codec.pngToJpeg jpegQuality bytes = .ok encoded ∧ encoded.length < bytes.length := by
      rintro encoded ⟨bytes', ⟨hdecode', htried⟩, hjpeg, hsmaller⟩
      obtain rfl : bytes = bytes' := Option.some.inj (hdecode.symm.trans hdecode')
      exact ⟨htried, hjpeg, hsmaller⟩
    by_cases htried : normalizedMime entry.mimeType = "image/png" ∧ thresholdBytes < bytes.length
    · obtain ⟨hpng, hlarge⟩ := htried
      rw [maybeCompress_tried codec thresholdBytes jpegQuality hpng hlarge] at h
      cases hjpeg : codec.pngToJpeg jpegQuality bytes with
      | error e => rw [hjpeg] at h; cases h
      | ok encoded =>
        rw [hjpeg] at h
        by_cases hsmaller : encoded.length < bytes.length
        · refine Or.inl ⟨encoded, ⟨bytes, ⟨hdecode, hpng, hlarge⟩, hjpeg, hsmaller⟩, ?_⟩
          simp only [Except.map, if_neg (not_le.2 hsmaller)] at h
          exact (Except.ok.inj h).symm
        · refine Or.inr ⟨by simp, fun encoded' hre => ?_, ?_⟩
          · obtain ⟨-, hjpeg', hsmaller'⟩ := hbytes hre
            rw [hjpeg] at hjpeg'
            exact hsmaller (Except.ok.inj hjpeg' ▸ hsmaller')
          · simp only [Except.map, if_pos (not_lt.1 hsmaller)] at h
            rw [hpng]
            exact (Except.ok.inj h).symm
    · rw [maybeCompress_not_tried codec thresholdBytes jpegQuality htried] at h
      exact Or.inr ⟨by simp, fun encoded hre => htried (hbytes hre).1, (Except.ok.inj h).symm⟩

/-- A turn fails only where the codecs do. -/
theorem replacementOf_isOk (h : ∀ bytes, Tried thresholdBytes entry bytes →
    ∃ encoded, codec.pngToJpeg jpegQuality bytes = .ok encoded) :
    ∃ replacement, replacementOf codec thresholdBytes jpegQuality entry = .ok replacement := by
  unfold replacementOf
  cases hdecode : Base64.decode (Text.bytes entry.data) with
  | none => exact ⟨none, rfl⟩
  | some bytes =>
    dsimp only
    by_cases htried : normalizedMime entry.mimeType = "image/png" ∧ thresholdBytes < bytes.length
    · obtain ⟨encoded, hjpeg⟩ := h bytes ⟨hdecode, htried⟩
      rw [maybeCompress_tried codec thresholdBytes jpegQuality htried.1 htried.2, hjpeg]
      exact ⟨_, rfl⟩
    · rw [maybeCompress_not_tried codec thresholdBytes jpegQuality htried]
      exact ⟨_, rfl⟩

/-- A pair after its replacement. -/
def replacedEntry (entry : InlineDataEntry) (replacement : Option InlineDataReplacement) : InlineDataEntry :=
  match replacement with
  | some replacement => ⟨replacement.mimeType, replacement.data.getD entry.data⟩
  | none => entry

theorem holdsInlineData_patchBase64 {body : Value} {holder : List String}
    (replacements : List (InlineDataEntry × InlineDataReplacement)) (h : HoldsInlineData body holder entry) :
    HoldsInlineData (patchInlineDataBase64 body replacements) holder
      (replacedEntry entry (replacements.lookup entry)) := by
  have hpatched : HoldsInlineData (patchInlineDataBase64 body replacements) holder _ :=
    holdsInlineData_patchNode _ h
  cases hlookup : replacements.lookup entry with
  | none =>
    rw [hlookup] at hpatched
    exact hpatched
  | some replacement =>
    rw [hlookup] at hpatched
    exact hpatched

/-- **What is compressed is smaller, and all else stays**, up to the case of a mime type and the
space around it. -/
theorem optimizeInlineDataImages_bestEffort (body : Document) :
    ((∀ holder entry bytes, HoldsInlineData body.val holder entry → isUrlLike entry.data = false →
        Tried thresholdBytes entry bytes → ∃ encoded, codec.pngToJpeg jpegQuality bytes = .ok encoded) →
      ∃ after, optimizeInlineDataImagesWithOptions codec true thresholdBytes jpegQuality body.val =
        .ok after) ∧
    ∀ after, optimizeInlineDataImagesWithOptions codec true thresholdBytes jpegQuality body.val =
        .ok after →
      (∀ holder entry, HoldsInlineData body.val holder entry →
        (isUrlLike entry.data = true ∨ Base64.decode (Text.bytes entry.data) = none →
          HoldsInlineData after holder entry) ∧
        (isUrlLike entry.data = false → ∀ encoded,
          Reencoded codec thresholdBytes jpegQuality entry encoded →
          HoldsInlineData after holder ⟨"image/jpeg", Base64.encodeText encoded⟩) ∧
        (isUrlLike entry.data = false → Base64.decode (Text.bytes entry.data) ≠ none →
          (∀ encoded, ¬ Reencoded codec thresholdBytes jpegQuality entry encoded) →
          HoldsInlineData after holder ⟨normalizedMime entry.mimeType, entry.data⟩)) ∧
      ∀ path, (∀ holder entry, HoldsInlineData body.val holder entry →
        path ≠ holder ++ ["inlineData", "data"] ∧ path ≠ holder ++ ["inlineData", "mimeType"]) →
        after.shapeAt path = body.val.shapeAt path := by
  obtain ⟨body, hdistinct, -⟩ := body
  dsimp only
  refine ⟨fun h => ?_, fun after hafter => ?_⟩
  · obtain ⟨replacements, hloop⟩ := optimizeEntries_isOk codec thresholdBytes jpegQuality
      (scanInlineDataBase64Entries body) [] fun entry hentry => by
        obtain ⟨⟨holder, hheld⟩, hurl⟩ := (mem_scan_iff hdistinct).1 hentry
        exact replacementOf_isOk codec thresholdBytes jpegQuality fun bytes => h holder entry bytes hheld hurl
    refine ⟨patchInlineDataBase64 body replacements, ?_⟩
    unfold optimizeInlineDataImagesWithOptions
    rw [hloop]
    rfl
  · obtain ⟨replacements, hloop, hpatch⟩ := Except.bind_eq_ok.1
      (show (optimizeEntries codec true thresholdBytes jpegQuality (scanInlineDataBase64Entries body) [] >>=
        fun replacements => .ok (patchInlineDataBase64 body replacements)) = .ok after from hafter)
    obtain rfl := Except.ok.inj hpatch
    refine ⟨fun holder entry hheld => ?_, fun path hpath => shapeAt_patchNode path body hpath⟩
    obtain ⟨hout, hin⟩ := lookup_optimizeEntries codec thresholdBytes jpegQuality entry _ []
      replacements (nodup_scan body) hloop
    have hpatched := holdsInlineData_patchBase64 replacements hheld
    have hscan : isUrlLike entry.data = false → ∃ replacement,
        replacementOf codec thresholdBytes jpegQuality entry = .ok replacement ∧
          replacements.lookup entry = replacement := by
      intro hurl
      obtain ⟨replacement, hreplacement, hlookup⟩ := hin ((mem_scan_iff hdistinct).2 ⟨⟨holder, hheld⟩, hurl⟩)
      exact ⟨replacement, hreplacement, by simpa using hlookup⟩
    refine ⟨fun hskip => ?_, fun hurl encoded hre => ?_, fun hurl hdecode hnot => ?_⟩
    · have hnone : replacements.lookup entry = none := by
        by_cases hurl : isUrlLike entry.data = true
        · have hnotMem : entry ∉ scanInlineDataBase64Entries body := fun hmem => by
            rw [((mem_scan_iff hdistinct).1 hmem).2] at hurl
            cases hurl
          rw [hout hnotMem]
          rfl
        · obtain ⟨replacement, hreplacement, hlookup⟩ := hscan (by simpa using hurl)
          have hdecode := hskip.resolve_left hurl
          unfold replacementOf at hreplacement
          rw [hdecode] at hreplacement
          rw [hlookup, ← Except.ok.inj hreplacement]
      rw [hnone] at hpatched
      exact hpatched
    · obtain ⟨replacement, hreplacement, hlookup⟩ := hscan hurl
      obtain ⟨bytes, ⟨hdecode, htried⟩, hjpeg, hsmaller⟩ := id hre
      rcases replacementOf_cases codec thresholdBytes jpegQuality hreplacement with
        ⟨hnone, -⟩ | ⟨encoded', hre', hvalue⟩ | ⟨-, hnot, -⟩
      · rw [hnone] at hdecode
        cases hdecode
      · obtain ⟨bytes', ⟨hdecode', -⟩, hjpeg', -⟩ := hre'
        obtain rfl : bytes = bytes' := Option.some.inj (hdecode.symm.trans hdecode')
        obtain rfl : encoded = encoded' := Except.ok.inj (hjpeg.symm.trans hjpeg')
        rw [hlookup, hvalue] at hpatched
        exact hpatched
      · exact absurd hre (hnot encoded)
    · obtain ⟨replacement, hreplacement, hlookup⟩ := hscan hurl
      rcases replacementOf_cases codec thresholdBytes jpegQuality hreplacement with
        ⟨hnone, -⟩ | ⟨encoded, hre, -⟩ | ⟨-, -, hvalue⟩
      · exact absurd hnone hdecode
      · exact absurd hre (hnot encoded)
      · rw [hlookup, hvalue] at hpatched
        by_cases hmime : normalizedMime entry.mimeType = entry.mimeType
        · rw [if_pos hmime] at hpatched
          rw [hmime]
          exact hpatched
        · rw [if_neg hmime] at hpatched
          exact hpatched

/-- Compression that touches re-encoded images only. -/
def BestEffort (body : Value) : Prop :=
  ∃ after, optimizeInlineDataImagesWithOptions codec true thresholdBytes jpegQuality body = .ok after ∧
    (∀ holder entry encoded, HoldsInlineData body holder entry → isUrlLike entry.data = false →
      Reencoded codec thresholdBytes jpegQuality entry encoded →
      HoldsInlineData after holder ⟨"image/jpeg", Base64.encodeText encoded⟩) ∧
    ∀ path, (∀ holder entry encoded, HoldsInlineData body holder entry → isUrlLike entry.data = false →
      Reencoded codec thresholdBytes jpegQuality entry encoded →
      path ≠ holder ++ ["inlineData", "data"] ∧ path ≠ holder ++ ["inlineData", "mimeType"]) →
      after.shapeAt path = body.shapeAt path

end

/-- A small image with a mime type in capitals. -/
def capitalMimeBody : Value :=
  .object [("inlineData", .object [("mimeType", .string " IMAGE/PNG "), ("data", .string "iVBORw0KGgo=")])]

theorem capitalMime_normalized (codec : ImageCodec) (jpegQuality : UInt8) :
    optimizeInlineDataImagesWithOptions codec true 1024 jpegQuality capitalMimeBody = .ok
      (.object [("inlineData", .object [("mimeType", .string "image/png"), ("data", .string "iVBORw0KGgo=")])]) :=
  rfl

/-- Its mime type changes, although it is not re-encoded. -/
theorem capitalMime_not_bestEffort :
    ¬ BestEffort ⟨fun _ => .error "not a PNG", fun _ _ => .error "not encoded"⟩ 1024 85 capitalMimeBody := by
  rintro ⟨after, hafter, -, hrest⟩
  rw [capitalMime_normalized] at hafter
  obtain rfl := Except.ok.inj hafter
  have hsame := hrest ["inlineData", "mimeType"] fun _ _ encoded _ _ hre => by
    obtain ⟨bytes, -, hjpeg, -⟩ := hre
    cases hjpeg
  revert hsame
  decide

end GeminiWorker
