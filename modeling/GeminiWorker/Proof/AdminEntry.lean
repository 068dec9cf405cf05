import GeminiWorker.Proof.AdminRedaction
import GeminiWorker.Proof.BlockReplay
import GeminiWorker.Spec.AdminState

/-!
# What is logged of an answer

* `truncateForAdminLog_cut`: a text that is too long is cut where a character ends.
* `sanitizedJson_reads`: a document that fits into the log is read back from it as it was redacted.
* `upstreamError_logged`: the entry of an upstream error says what the client was told.
* `replay_logged`: a replay is logged as the answer that it replays, but for the error fields.
-/

namespace GeminiWorker

open Json (Value Map Layout)

/-! ## Cutting a text -/

/-- The bytes of a list of characters. -/
def charBytes (cs : List Char) : ℕ := (String.ofList cs).utf8ByteSize

theorem charBytes_append (cs ds : List Char) : charBytes (cs ++ ds) = charBytes cs + charBytes ds := by
  rw [charBytes, String.ofList_append, String.utf8ByteSize_append, charBytes, charBytes]

theorem charBytes_singleton (c : Char) : charBytes [c] = c.utf8Size := by
  have hone : String.ofList [c] = String.singleton c := by
    rw [← String.toList_inj, String.toList_ofList, String.toList_singleton]
  rw [charBytes, hone, String.utf8ByteSize_singleton]

theorem charBytes_cons (c : Char) (cs : List Char) : charBytes (c :: cs) = c.utf8Size + charBytes cs := by
  rw [← charBytes_singleton, ← charBytes_append]
  rfl

theorem charBytes_toList (s : String) : charBytes s.toList = s.utf8ByteSize := by
  rw [charBytes, String.ofList_toList]

/-- The loop stops before the last character that starts within the limit. -/
theorem lastBoundary_eq (maxBytes : ℕ) (c : Char) (cs : List Char) :
    ∀ index boundary, index ≤ maxBytes → ∃ kept next rest, c :: cs = kept ++ next :: rest ∧
      lastBoundary maxBytes index boundary (c :: cs) = index + charBytes kept ∧ index + charBytes kept ≤ maxBytes ∧
      (rest = [] ∨ maxBytes < index + charBytes (kept ++ [next])) := by
  induction cs generalizing c with
  | nil =>
    intro index boundary hindex
    have hinside : ¬ maxBytes < index := Nat.not_lt.mpr hindex
    refine ⟨[], c, [], rfl, ?_, hindex, .inl rfl⟩
    rw [lastBoundary, if_neg hinside, lastBoundary]
    rfl
  | cons d cs ih =>
    intro index boundary hindex
    have hinside : ¬ maxBytes < index := Nat.not_lt.mpr hindex
    rw [lastBoundary, if_neg hinside]
    rcases Nat.lt_or_ge maxBytes (index + c.utf8Size) with hbeyond | hwithin
    · -- the next character starts beyond the limit
      refine ⟨[], c, d :: cs, rfl, ?_, hindex, .inr ?_⟩
      · rw [lastBoundary, if_pos hbeyond]
        rfl
      · rw [List.nil_append, charBytes_singleton]
        exact hbeyond
    · obtain ⟨kept, next, rest, hsplit, hboundary, hkept, hnext⟩ := ih d (index + c.utf8Size) index hwithin
      refine ⟨c :: kept, next, rest, by rw [hsplit, List.cons_append], ?_, ?_, ?_⟩
      · rw [hboundary, charBytes_cons, Nat.add_assoc]
      · rw [charBytes_cons, ← Nat.add_assoc]
        exact hkept
      · rw [List.cons_append, charBytes_cons, ← Nat.add_assoc]
        exact hnext

theorem slicedTo_append (kept : List Char) (next : Char) (rest : List Char) :
    slicedTo (charBytes kept) (kept ++ next :: rest) = kept := by
  induction kept with
  | nil =>
    have hpos := next.utf8Size_pos
    have hnone : ¬ next.utf8Size ≤ charBytes [] := by
      have hzero : charBytes [] = 0 := rfl
      omega
    rw [List.nil_append, slicedTo, if_neg hnone]
  | cons c kept ih =>
    have hfits : c.utf8Size ≤ c.utf8Size + charBytes kept := Nat.le_add_right ..
    rw [charBytes_cons, List.cons_append, slicedTo, if_pos hfits, Nat.add_sub_cancel_left, ih]

/-- **A text that is too long is cut after the last character that fits.** -/
theorem truncateForAdminLog_cut {input : String} {maxBytes : ℕ} (hlong : maxBytes < input.utf8ByteSize) :
    ∃ kept next rest, input.toList = kept ++ next :: rest ∧
      truncateForAdminLog input maxBytes = String.ofList kept ++ truncatedSuffix ∧
      charBytes kept ≤ maxBytes ∧ maxBytes < charBytes (kept ++ [next]) := by
  rw [← charBytes_toList] at hlong
  obtain ⟨c, cs, hcs⟩ : ∃ c cs, input.toList = c :: cs := by
    apply List.exists_cons_of_ne_nil
    intro hnil
    rw [hnil] at hlong
    exact absurd hlong (Nat.not_lt_zero _)
  obtain ⟨kept, next, rest, hsplit, hboundary, hkept, hnext⟩ := lastBoundary_eq maxBytes c cs 0 0 (Nat.zero_le _)
  rw [Nat.zero_add] at hboundary hkept hnext
  refine ⟨kept, next, rest, hcs.trans hsplit, ?_, hkept, ?_⟩
  · have htoo : ¬ input.utf8ByteSize ≤ maxBytes := by
      rw [← charBytes_toList]
      exact Nat.not_le.mpr hlong
    rw [truncateForAdminLog, if_neg htoo, hcs, hboundary, hsplit, slicedTo_append]
  · rcases hnext with rfl | hnext
    · rw [← hsplit, ← hcs]
      exact hlong
    · exact hnext

/-! ## A document in the log -/

/-- What becomes of numbers under a rewriting of the members. -/
theorem Numeric.mapMembers {f : String → Value → Value} (hf : ∀ key v, v.Numeric → (f key v).Numeric) {v : Value} :
    v.Numeric → (Value.mapMembers f v).Numeric := by
  induction v using Value.induction with
  | array items ih =>
    intro hnumeric
    rw [Value.mapMembers_array, Value.numeric_array]
    intro w hw
    obtain ⟨item, hitem, rfl⟩ := List.mem_map.mp hw
    exact ih item hitem (Value.numeric_array.mp hnumeric item hitem)
  | object members ih =>
    intro hnumeric
    rw [Value.mapMembers_object, Value.numeric_object]
    intro m hm
    obtain ⟨member, hmember, rfl⟩ := List.mem_map.mp hm
    exact hf member.1 _ (ih member hmember (Value.numeric_object.mp hnumeric member hmember))
  | _ => exact id

theorem Distinct.mapMembers {f : String → Value → Value} (hf : ∀ key v, v.Distinct → (f key v).Distinct) {v : Value} :
    v.Distinct → (Value.mapMembers f v).Distinct := by
  induction v using Value.induction with
  | array items ih =>
    intro hdistinct
    rw [Value.mapMembers_array, Value.distinct_array]
    intro w hw
    obtain ⟨item, hitem, rfl⟩ := List.mem_map.mp hw
    exact ih item hitem (Value.distinct_array.mp hdistinct item hitem)
  | object members ih =>
    intro hdistinct
    obtain ⟨hkeys, hmembers⟩ := Value.distinct_object.mp hdistinct
    rw [Value.mapMembers_object, Value.distinct_object]
    constructor
    · -- the keys stay as they are
      have hsame : Map.keys (members.map fun m => (m.1, f m.1 (Value.mapMembers f m.2))) = Map.keys members := by
        rw [Map.keys, Map.keys, List.map_map]
        rfl
      rw [hsame]
      exact hkeys
    · intro m hm
      obtain ⟨member, hmember, rfl⟩ := List.mem_map.mp hm
      exact hf member.1 _ (ih member hmember (hmembers member hmember))
  | _ => exact id

open AdminRedaction in
/-- The redacted document is a document. -/
theorem redacted_wellFormed {root : Value} (hroot : root.WellFormed) :
    (redactInlineDataAndCollectImageUrls root).1.WellFormed := by
  rw [(redact_passes hroot.1).1]
  refine ⟨Distinct.mapMembers (fun key v hv => AdminRedaction.Distinct.redactMember hv key) hroot.1,
    Numeric.mapMembers (fun key v hv => ?_) hroot.2⟩
  unfold redactMember omitData
  split
  · split
    · rename_i inline
      split
      · split
        · exact hv
        · split
          · -- only the text of the data is another
            rw [Value.numeric_object] at hv ⊢
            intro m hm
            rcases Map.mem_insert hm with rfl | hm
            · exact trivial
            · exact hv m hm
          · exact hv
      · exact hv
    · exact hv
  · exact hv

variable {fromSlice : List UInt8 → Option Value} {IsValue : Value → Prop}

/-- What is logged of a body that is a document. -/
theorem sanitizeJsonForLog_eq {raw : List UInt8} {root : Value} (hraw : raw ≠ []) (hroot : fromSlice raw = some root) :
    (sanitizeJsonForLog fromSlice raw).pretty = truncateForAdminLog
      (toStringPretty (AdminRedaction.redactInlineDataAndCollectImageUrls root).1) ADMIN_MAX_BODY_BYTES_PER_ENTRY := by
  rw [sanitizeJsonForLog, if_neg hraw, hroot]

/-- **What is logged of a document is the redacted document as a text**: one that fits is read back from the log, and of
a longer one the log has what fits, cut where a character ends. -/
theorem sanitizedJson_reads {raw : List UInt8} {root : Value} (hraw : raw ≠ []) (hroot : fromSlice raw = some root)
    (hdocument : root.WellFormed) :
    let redacted := (AdminRedaction.redactInlineDataAndCollectImageUrls root).1
    let whole := toStringPretty redacted
    let logged := (sanitizeJsonForLog fromSlice raw).pretty
    (whole.utf8ByteSize ≤ ADMIN_MAX_BODY_BYTES_PER_ENTRY → Json.parse (Text.bytes logged) = some redacted) ∧
      (ADMIN_MAX_BODY_BYTES_PER_ENTRY < whole.utf8ByteSize → ∃ kept next rest, whole.toList = kept ++ next :: rest ∧
        logged = String.ofList kept ++ truncatedSuffix ∧ charBytes kept ≤ ADMIN_MAX_BODY_BYTES_PER_ENTRY ∧
        ADMIN_MAX_BODY_BYTES_PER_ENTRY < charBytes (kept ++ [next])) := by
  intro redacted whole logged
  have hlogged : logged = truncateForAdminLog whole ADMIN_MAX_BODY_BYTES_PER_ENTRY := sanitizeJsonForLog_eq hraw hroot
  rw [hlogged]
  constructor
  · intro hfits
    obtain ⟨hdistinct, hnumeric⟩ := redacted_wellFormed hdocument
    have hbytes : Text.bytes whole = (Layout.pretty.text 0 redacted).flatMap String.utf8EncodeChar := by
      rw [Text.bytes, show whole = String.ofList (Layout.pretty.text 0 redacted) from rfl, String.toList_ofList]
    rw [truncateForAdminLog, if_pos hfits, hbytes]
    exact Layout.pretty.parse_text hdistinct hnumeric
  · exact truncateForAdminLog_cut

/-- A body with the payload of an image. -/
def inlineImage : Value := .object [("inlineData", .object [("data", .string "aGVsbG8=")])]

theorem sanitizedJson_reads_example :
    Json.parse (Text.bytes (sanitizeJsonForLog Json.parse (Json.print inlineImage)).pretty) =
      some (AdminRedaction.redactInlineDataAndCollectImageUrls inlineImage).1 := by
  have hdocument : inlineImage.WellFormed := by
    refine ⟨?_, ?_⟩
    · simp [inlineImage, Value.distinct_object, Map.keys]
    · simp [inlineImage, Value.numeric_object]
  have hread : Json.parse (Json.print inlineImage) = some inlineImage := Json.parse_print hdocument.1 hdocument.2
  have hbody : Json.print inlineImage ≠ [] := by decide +kernel
  have hsmall : (toStringPretty (AdminRedaction.redactInlineDataAndCollectImageUrls inlineImage).1).utf8ByteSize ≤
      ADMIN_MAX_BODY_BYTES_PER_ENTRY := by
    rw [(AdminRedaction.redact_passes hdocument.1).1]
    decide +kernel
  exact (sanitizedJson_reads hbody hread hdocument).1 hsmall

/-! ## The entry -/

/-- The text of a field, or what it is where the field is absent. -/
def givenOr (given : Map) (key default : String) : String :=
  if Map.containsKey given key then textOrDefault given key else default

/-- The error object of an upstream answer, with the fields that were absent. -/
def annotatedError (status : StatusCode) (given : Map) : Map :=
  orInsert "kind" (.string "upstream_error") (orInsert "stage" (.string "upstream_response")
    (orInsert "source" (.string "upstream") (orInsert "code" (statusNumber status) given)))

/-- The upstream answer with that error object. -/
def annotatedBody (status : StatusCode) (map given : Map) : List UInt8 :=
  Json.print (.object (Map.insert map "error" (.object (annotatedError status given))))

theorem get_orInsert (key : String) (value : Value) (map : Map) (other : String) :
    Map.get (orInsert key value map) other =
      if key = other ∧ Map.containsKey map key = false then some value else Map.get map other := by
  unfold orInsert
  by_cases hkey : Map.containsKey map key = true
  · rw [if_pos hkey, if_neg (by simp [hkey])]
  · rw [Bool.not_eq_true] at hkey
    rw [hkey, if_neg Bool.false_ne_true, Map.get_insert]
    by_cases hsame : other = key
    · rw [if_pos hsame, if_pos ⟨hsame.symm, rfl⟩]
    · rw [if_neg hsame, if_neg fun h => hsame h.1.symm]

theorem containsKey_orInsert (key : String) (value : Value) (map : Map) {other : String} (hne : key ≠ other) :
    Map.containsKey (orInsert key value map) other = Map.containsKey map other := by
  have hget : (Map.get (orInsert key value map) other).isSome = (Map.get map other).isSome := by
    rw [get_orInsert, if_neg fun h => hne h.1]
  rw [Bool.eq_iff_iff, Map.containsKey_iff, Map.containsKey_iff, ← Map.get_isSome_iff, ← Map.get_isSome_iff, hget]

/-- A field that is put in where it is absent. -/
theorem textOrDefault_orInsert (key text : String) (map : Map) :
    textOrDefault (orInsert key (.string text) map) key = givenOr map key text := by
  unfold textOrDefault givenOr
  rw [get_orInsert]
  by_cases hkey : Map.containsKey map key = true
  · rw [if_neg (by simp [hkey]), if_pos hkey, textOrDefault]
  · rw [Bool.not_eq_true] at hkey
    rw [if_pos ⟨rfl, hkey⟩, hkey]
    rfl

theorem textOrDefault_orInsert_of_ne (key : String) (value : Value) (map : Map) {other : String} (hne : key ≠ other) :
    textOrDefault (orInsert key value map) other = textOrDefault map other := by
  unfold textOrDefault
  rw [get_orInsert, if_neg fun h => hne h.1]

theorem givenOr_orInsert_of_ne (key : String) (value : Value) (map : Map) {other : String} (default : String)
    (hne : key ≠ other) : givenOr (orInsert key value map) other default = givenOr map other default := by
  rw [givenOr, givenOr, containsKey_orInsert _ _ _ hne, textOrDefault_orInsert_of_ne _ _ _ hne]

/-- The texts of the annotated error. -/
theorem annotatedError_texts (status : StatusCode) (given : Map) :
    textOrDefault (annotatedError status given) "source" = givenOr given "source" "upstream" ∧
      textOrDefault (annotatedError status given) "stage" = givenOr given "stage" "upstream_response" ∧
      textOrDefault (annotatedError status given) "kind" = givenOr given "kind" "upstream_error" ∧
      textOrDefault (annotatedError status given) "message" = textOrDefault given "message" := by
  unfold annotatedError
  refine ⟨?_, ?_, ?_, ?_⟩
  · rw [textOrDefault_orInsert_of_ne _ _ _ (by decide), textOrDefault_orInsert_of_ne _ _ _ (by decide),
      textOrDefault_orInsert, givenOr_orInsert_of_ne _ _ _ _ (by decide)]
  · rw [textOrDefault_orInsert_of_ne _ _ _ (by decide), textOrDefault_orInsert,
      givenOr_orInsert_of_ne _ _ _ _ (by decide), givenOr_orInsert_of_ne _ _ _ _ (by decide)]
  · rw [textOrDefault_orInsert, givenOr_orInsert_of_ne _ _ _ _ (by decide),
      givenOr_orInsert_of_ne _ _ _ _ (by decide), givenOr_orInsert_of_ne _ _ _ _ (by decide)]
  · rw [textOrDefault_orInsert_of_ne _ _ _ (by decide), textOrDefault_orInsert_of_ne _ _ _ (by decide),
      textOrDefault_orInsert_of_ne _ _ _ (by decide), textOrDefault_orInsert_of_ne _ _ _ (by decide)]

theorem isValue_orInsert (hserde : SerdeJson fromSlice IsValue) {key : String} {value : Value} {map : Map}
    (hmap : IsValue (.object map)) (hvalue : IsValue value) : IsValue (.object (orInsert key value map)) := by
  unfold orInsert
  split
  · exact hmap
  · exact hserde.isValue_insert _ _ _ hmap hvalue

/-- The annotated answer is a document. -/
theorem isValue_annotated (hserde : SerdeJson fromSlice IsValue) {status : StatusCode} (hnumber : IsValue (statusNumber status))
    {map given : Map} (hmap : IsValue (.object map)) (herror : Map.get map "error" = some (.object given)) :
    IsValue (.object (Map.insert map "error" (.object (annotatedError status given)))) := by
  have hgiven := hserde.isValue_member _ _ _ hmap herror
  have hcode : IsValue (.object (orInsert "code" (statusNumber status) given)) := isValue_orInsert hserde hgiven hnumber
  have hsource := @isValue_orInsert _ _ hserde "source" (.string "upstream") _ hcode (hserde.isValue_string _)
  have hstage := @isValue_orInsert _ _ hserde "stage" (.string "upstream_response") _ hsource (hserde.isValue_string _)
  have hkind := @isValue_orInsert _ _ hserde "kind" (.string "upstream_error") _ hstage (hserde.isValue_string _)
  exact hserde.isValue_insert _ _ _ hmap hkind

theorem annotateUpstreamErrorJson_eq {status : StatusCode} {body : List UInt8} {map given : Map}
    (hbody : fromSlice body = some (.object map)) (herror : Map.get map "error" = some (.object given)) :
    annotateUpstreamErrorJson fromSlice status body = some (annotatedBody status map given) := by
  unfold annotateUpstreamErrorJson
  rw [hbody]
  simp only [Option.bind_eq_bind, Option.bind_some, Value.asObject, herror]
  rfl

theorem print_object_ne_nil (map : Map) : Json.print (.object map) ≠ [] := by
  have hbrace : Text.bytes "\x7b" = [123] := by decide +kernel
  rw [Json.print, hbrace]
  exact List.cons_ne_nil _ _

/-- What the entry of an answer has of an error object in it. -/
structure LogsError (response : Response) (sent : Map) (logged : AdminLogRecord) : Prop where
  statusCode : logged.statusCode = response.status
  source : logged.errorSource = textOrDefault sent "source"
  stage : logged.errorStage = textOrDefault sent "stage"
  kind : logged.errorKind = textOrDefault sent "kind"
  message : logged.errorMessage = textOrDefault sent "message"
  upstreamStatus : ∀ status, response.originalUpstreamStatus = some status → logged.upstreamStatusCode = status
  upstreamBody : logged.errorSource = "upstream" → logged.upstreamErrorBody = logged.responseDownstream

theorem readUpstreamStatus_preserves (entry : AdminLogRecord) (response : Response) :
    preservesAdminErrorFields (entry.readUpstreamStatus response) = preservesAdminErrorFields entry ∧
      (entry.readUpstreamStatus response).errorDetail = entry.errorDetail ∧
      (entry.readUpstreamStatus response).errorMessage = entry.errorMessage ∧
      ∀ status, response.originalUpstreamStatus = some status →
        (entry.readUpstreamStatus response).upstreamStatusCode = status := by
  unfold AdminLogRecord.readUpstreamStatus
  rcases response.originalUpstreamStatus with _ | status
  · refine ⟨rfl, rfl, rfl, fun status hstatus => ?_⟩
    cases hstatus
  · exact ⟨rfl, rfl, rfl, fun other hother => Option.some.inj hother⟩

theorem finalizeEntry_error {response : Response} {entry : AdminLogRecord} {value : Value} {sent : Map}
    (hbody : response.body ≠ []) (hread : fromSlice response.body = some value)
    (hsent : (value.get "error").bind Value.asObject = some sent) (hentry : preservesAdminErrorFields entry = false) :
    LogsError response sent (finalizeEntry fromSlice response entry) := by
  obtain ⟨hpreserves, -, -, hstatus⟩ := readUpstreamStatus_preserves entry response
  rw [hentry] at hpreserves
  unfold preservesAdminErrorFields at hpreserves
  have horiginal : ∀ status, response.originalUpstreamStatus = some status →
      response.originalUpstreamStatus.getD response.status = status := by
    intro status horiginal
    rw [horiginal, Option.getD_some]
  by_cases hupstream : textOrDefault sent "source" = "upstream"
  · constructor <;> simp [finalizeEntry, AdminLogRecord.readBody, applyAdminErrorFields, preservesAdminErrorFields, hbody,
      hread, hsent, hpreserves, hupstream]
    exact horiginal
  · constructor <;> simp [finalizeEntry, AdminLogRecord.readBody, applyAdminErrorFields, preservesAdminErrorFields, hbody,
      hread, hsent, hpreserves, hupstream]
    exact hstatus

/-- What an entry has from the answer alone. -/
structure LogsAnswer (response : Response) (fromSlice : List UInt8 → Option Value) (logged : AdminLogRecord) : Prop where
  statusCode : logged.statusCode = response.status
  upstreamStatus : ∀ status, response.originalUpstreamStatus = some status → logged.upstreamStatusCode = status
  downstream : logged.responseDownstream = (sanitizeJsonForLog fromSlice response.body).pretty
  images : logged.responseImages = (sanitizeJsonForLog fromSlice response.body).imageUrls

/-- Setting the error fields leaves what is logged of the body. -/
theorem applyAdminErrorFields_keeps (entry : AdminLogRecord) (status : StatusCode) (value : Value) (text : String) :
    (applyAdminErrorFields entry status value text).responseDownstream = entry.responseDownstream ∧
      (applyAdminErrorFields entry status value text).responseImages = entry.responseImages ∧
      (applyAdminErrorFields entry status value text).errorDetail = entry.errorDetail ∧
      (entry.upstreamStatusCode = status → (applyAdminErrorFields entry status value text).upstreamStatusCode = status) := by
  unfold applyAdminErrorFields
  split
  · exact ⟨rfl, rfl, rfl, id⟩
  · dsimp only
    split
    · exact ⟨rfl, rfl, rfl, fun _ => rfl⟩
    · exact ⟨rfl, rfl, rfl, id⟩

theorem readBody_keeps (entry : AdminLogRecord) (response : Response) :
    (entry.readBody fromSlice response).responseDownstream = (sanitizeJsonForLog fromSlice response.body).pretty ∧
      (entry.readBody fromSlice response).responseImages = (sanitizeJsonForLog fromSlice response.body).imageUrls ∧
      (entry.readBody fromSlice response).errorDetail = entry.errorDetail ∧
      (∀ status, response.originalUpstreamStatus = some status → entry.upstreamStatusCode = status →
        (entry.readBody fromSlice response).upstreamStatusCode = status) ∧
      (preservesAdminErrorFields entry = true → preservesAdminErrorFields (entry.readBody fromSlice response) = true ∧
        (entry.readBody fromSlice response).errorMessage = entry.errorMessage) := by
  unfold AdminLogRecord.readBody
  dsimp only
  split
  · exact ⟨rfl, rfl, rfl, fun _ _ h => h, fun hentry => ⟨hentry, rfl⟩⟩
  · split
    · exact ⟨rfl, rfl, rfl, fun _ _ h => h, fun hentry => ⟨hentry, rfl⟩⟩
    · rename_i happlies
      obtain ⟨hdownstream, himages, hdetail, hstatus⟩ := applyAdminErrorFields_keeps _ _ _ _
      refine ⟨hdownstream, himages, hdetail, fun status horiginal hentry => ?_, fun hentry => absurd hentry happlies⟩
      rw [horiginal, Option.getD_some] at hstatus ⊢
      exact hstatus hentry

theorem finalizeEntry_answer {response : Response} (hbody : response.body ≠ []) (entry : AdminLogRecord) :
    LogsAnswer response fromSlice (finalizeEntry fromSlice response entry) := by
  obtain ⟨hdownstream, himages, -, hstatus, -⟩ := @readBody_keeps fromSlice (entry.readUpstreamStatus response) response
  obtain ⟨-, -, -, hread⟩ := readUpstreamStatus_preserves entry response
  have hfinal : finalizeEntry fromSlice response entry =
      { (entry.readUpstreamStatus response).readBody fromSlice response with statusCode := response.status } := by
    rw [finalizeEntry, if_neg hbody]
  rw [hfinal]
  exact ⟨rfl, fun status horiginal => hstatus status horiginal (hread status horiginal), hdownstream, himages⟩

/-- The error object that the client is sent. -/
def sentError (status : StatusCode) (map given : Map) : Map :=
  if (classifyBlockableUpstreamError status (annotatedBody status map given)).isSome then
    Map.insert (annotatedError status given) "message" (.string MSG_UPSTREAM_BLOCKED_INPUT)
  else annotatedError status given

/-- The body of the answer to an upstream error that is a document. -/
theorem blockErrorResponseBody_annotated (hserde : SerdeJson fromSlice IsValue) {status : StatusCode}
    (hnumber : IsValue (statusNumber status)) {map given : Map} (hmap : IsValue (.object map))
    (herror : Map.get map "error" = some (.object given)) :
    blockErrorResponseBody fromSlice status (annotatedBody status map given) =
        Json.print (.object (Map.insert map "error" (.object (sentError status map given)))) ∧
      fromSlice (blockErrorResponseBody fromSlice status (annotatedBody status map given)) =
        some (.object (Map.insert map "error" (.object (sentError status map given)))) := by
  have hvalue := isValue_annotated hserde hnumber hmap herror
  have hreads := hserde.fromSlice_print _ hvalue
  unfold blockErrorResponseBody sentError
  rcases hclass : classifyBlockableUpstreamError status (annotatedBody status map given) with _ | reason
  · exact ⟨rfl, hreads⟩
  · -- the message is put into the error object
    have hblocked : withBlockedMessage (.object (Map.insert map "error" (.object (annotatedError status given)))) =
        some (.object (Map.insert map "error" (.object (Map.insert (annotatedError status given) "message"
          (.string MSG_UPSTREAM_BLOCKED_INPUT))))) := by
      refine withBlockedMessage_eq_some.2 ⟨_, rfl, .inl ⟨annotatedError status given, ?_, ?_⟩⟩
      · rw [Map.get_insert, if_pos rfl]
      · rw [Map.insert_insert]
        rfl
    have hdocument := isValue_withBlockedMessage hserde hvalue hblocked
    rw [annotatedBody, hreads]
    simp only [Option.isNone_some, Bool.false_eq_true, if_false, Option.isSome_some, if_true, Option.bind_some, hblocked]
    exact ⟨trivial, hserde.fromSlice_print _ hdocument⟩

/-- The status is another one exactly where the input is blocked. -/
theorem blockErrorResponseStatus_eq_iff (status : StatusCode) (body : List UInt8) :
    blockErrorResponseStatus status body = status ↔ classifyBlockableUpstreamError status body = none := by
  unfold blockErrorResponseStatus
  rcases hclass : classifyBlockableUpstreamError status body with _ | reason
  · exact ⟨fun _ => rfl, fun _ => rfl⟩
  · have hblockable : status = badRequest ∨ status = badGateway := by
      by_contra hother
      rw [not_or] at hother
      rw [classifyBlockableUpstreamError, if_pos hother] at hclass
      cases hclass
    have hother : unavailableForLegalReasons ≠ status := by
      rcases hblockable with rfl | rfl <;> decide
    rw [Option.isSome_some, if_pos rfl]
    exact ⟨fun hsame => absurd hsame hother, fun hnone => absurd hnone (Option.some_ne_none reason)⟩

/-- **The entry of an upstream error says what the client was told**: the texts of the upstream's error object, those
of the proxy where it has none, and the message of a blocked input where the status is that of a blocked input. -/
theorem upstreamError_logged (hserde : SerdeJson fromSlice IsValue) {status : StatusCode}
    (hnumber : IsValue (statusNumber status)) (hfailed : isSuccess status = false) {body : List UInt8} {map given : Map}
    (hbody : fromSlice body = some (.object map)) (herror : Map.get map "error" = some (.object given))
    {entry : AdminLogRecord} (hentry : preservesAdminErrorFields entry = false) (finish : List UInt8 → Response)
    (scope : BlockScope) (contentType : Option HeaderValue) :
    let response := (handleNonStreamResponse fromSlice finish scope status contentType body).1
    let logged := finalizeEntry fromSlice response entry
    logged.statusCode = response.status ∧ logged.upstreamStatusCode = status ∧
      logged.errorSource = givenOr given "source" "upstream" ∧
      logged.errorStage = givenOr given "stage" "upstream_response" ∧
      logged.errorKind = givenOr given "kind" "upstream_error" ∧
      logged.errorMessage = (if response.status = status then textOrDefault given "message"
        else MSG_UPSTREAM_BLOCKED_INPUT) ∧
      logged.responseDownstream = (sanitizeJsonForLog fromSlice response.body).pretty ∧
      (logged.errorSource = "upstream" → logged.upstreamErrorBody = (sanitizeJsonForLog fromSlice response.body).pretty) := by
  intro response logged
  have hresponse : response = rawResponseWithUpstreamStatus fromSlice
      (blockErrorResponseStatus status (annotatedBody status map given)) status (contentType.getD applicationJson)
      (annotatedBody status map given) := by
    have hstatus : (!isSuccess status) = true := by rw [hfailed, Bool.not_false]
    simp only [response, handleNonStreamResponse, hstatus, if_true, annotateUpstreamErrorJson_eq hbody herror,
      Option.getD_some]
  obtain ⟨hprint, hread⟩ := blockErrorResponseBody_annotated hserde hnumber (hserde.isValue_fromSlice _ _ hbody) herror
  have hsent : response.body = blockErrorResponseBody fromSlice status (annotatedBody status map given) := by
    rw [hresponse]
    rfl
  have hsome : response.body ≠ [] := by
    rw [hsent, hprint]
    exact print_object_ne_nil _
  have hlogged : LogsError response (sentError status map given) logged := by
    refine @finalizeEntry_error _ response entry _ (sentError status map given) hsome (hsent ▸ hread) ?_ hentry
    rw [Value.get, Value.asObject, Option.bind_some, Map.get_insert, if_pos rfl]
    rfl
  have hdownstream := (@finalizeEntry_answer fromSlice response hsome entry).downstream
  have hstatus : response.status = status ↔ classifyBlockableUpstreamError status (annotatedBody status map given) = none := by
    rw [hresponse]
    exact blockErrorResponseStatus_eq_iff status _
  obtain ⟨hsource, hstage, hkind, hmessage⟩ := annotatedError_texts status given
  -- the message is the only text that a blocked input changes
  have htexts : ∀ key, key ≠ "message" →
      textOrDefault (sentError status map given) key = textOrDefault (annotatedError status given) key := by
    intro key hkey
    unfold sentError
    split
    · rw [textOrDefault, Map.get_insert, if_neg hkey, textOrDefault]
    · rfl
  -- the texts of the entry are those of the error object that is sent
  refine ⟨hlogged.statusCode, hlogged.upstreamStatus status (hresponse ▸ rfl), ?_, ?_, ?_, ?_, hdownstream,
    fun hupstream => (hlogged.upstreamBody hupstream).trans hdownstream⟩
  · rw [hlogged.source, htexts _ (by decide), hsource]
  · rw [hlogged.stage, htexts _ (by decide), hstage]
  · rw [hlogged.kind, htexts _ (by decide), hkind]
  · rw [hlogged.message]
    rcases hclass : classifyBlockableUpstreamError status (annotatedBody status map given) with _ | reason
    · rw [if_pos (hstatus.mpr hclass), sentError, hclass]
      exact hmessage
    · have hother : response.status ≠ status := by
        rw [Ne, hstatus, hclass]
        exact Option.some_ne_none reason
      rw [if_neg hother, sentError, hclass, Option.isSome_some, if_pos rfl, textOrDefault, Map.get_insert, if_pos rfl]
      rfl

/-- An upstream error with a message alone. -/
def overloaded : Map := [("error", .object [("message", .string "overloaded")])]

theorem upstreamError_logged_example :
    let response := (handleNonStreamResponse Json.parse (fun bytes => ⟨200, applicationJson, bytes, none⟩)
      ⟨none, none, 0⟩ 500 none (Json.print (.object overloaded))).1
    let logged := finalizeEntry Json.parse response .default
    logged.errorSource = "upstream" ∧ logged.errorStage = "upstream_response" ∧ logged.upstreamStatusCode = 500 ∧
      logged.upstreamErrorBody = (sanitizeJsonForLog Json.parse response.body).pretty := by
  have hdocument : (Value.object overloaded).WellFormed := by
    refine ⟨?_, ?_⟩
    · simp [overloaded, Value.distinct_object, Map.keys]
    · simp [overloaded, Value.numeric_object]
  have hread : Json.parse (Json.print (.object overloaded)) = some (.object overloaded) :=
    Json.parse_print hdocument.1 hdocument.2
  have hnumber : (statusNumber 500).WellFormed := by
    refine ⟨trivial, ?_⟩
    show Json.isNumber (toString 500).toList = true
    decide +kernel
  intro response logged
  have herror : Map.get overloaded "error" = some (.object [("message", .string "overloaded")]) := rfl
  obtain ⟨-, hstatus, hsource, hstage, -, -, -, herrorBody⟩ := @upstreamError_logged Json.parse Value.WellFormed serdeJson_parse 500 hnumber
    (by decide) _ overloaded _ hread herror .default (by decide) (fun bytes => ⟨200, applicationJson, bytes, none⟩)
    ⟨none, none, 0⟩ none
  exact ⟨hsource, hstage, hstatus, herrorBody hsource⟩

/-! ## Replays -/

/-- The hit that a stored answer is found as. -/
def CachedBlockResponse.hit (stored : CachedBlockResponse) : BlockCacheHit :=
  ⟨stored.status, stored.upstreamStatus, stored.contentType, stored.body, stored.reason⟩

/-- The hit is answered as the upstream error was. -/
theorem responseFromBlockCacheHit_stored (hserde : SerdeJson fromSlice IsValue) {status : StatusCode}
    {contentType : HeaderValue} {body : List UInt8} {stored : CachedBlockResponse}
    (h : blockResponseToStore fromSlice status contentType body = some stored) :
    responseFromBlockCacheHit fromSlice stored.hit = blockAnswer fromSlice status contentType body := by
  unfold blockResponseToStore at h
  split at h
  · cases h
  · obtain ⟨reason, -, rfl⟩ := Option.map_eq_some_iff.1 h
    unfold responseFromBlockCacheHit blockAnswer rawResponseWithUpstreamStatus CachedBlockResponse.hit
    dsimp only
    rw [blockErrorResponseBody_idem hserde status body]

/-- An answer to a blocked input has a body. -/
theorem blockErrorResponseBody_ne_nil {status : StatusCode} {body : List UInt8} {reason : String}
    (h : classifyBlockableUpstreamError status body = some reason) : blockErrorResponseBody fromSlice status body ≠ [] := by
  unfold blockErrorResponseBody
  rw [h, Option.isNone_some, if_neg Bool.false_ne_true]
  split
  · rename_i value hblocked
    obtain ⟨read, -, hvalue⟩ := Option.bind_eq_some_iff.mp hblocked
    obtain ⟨map, -, ⟨error, -, rfl⟩ | ⟨-, rfl⟩⟩ := withBlockedMessage_eq_some.1 hvalue
    · exact print_object_ne_nil _
    · exact print_object_ne_nil _
  · decide +kernel

/-- The error fields of a hit stay as they are. -/
theorem finalizeEntry_preserves {response : Response} {entry : AdminLogRecord}
    (hentry : preservesAdminErrorFields entry = true) :
    preservesAdminErrorFields (finalizeEntry fromSlice response entry) = true ∧
      (finalizeEntry fromSlice response entry).errorMessage = entry.errorMessage ∧
      (finalizeEntry fromSlice response entry).errorDetail = entry.errorDetail := by
  obtain ⟨-, -, hdetail, -, hpreserves⟩ := @readBody_keeps fromSlice (entry.readUpstreamStatus response) response
  obtain ⟨hsame, hdetail', hmessage', -⟩ := readUpstreamStatus_preserves entry response
  rw [← hsame] at hentry
  obtain ⟨hpreserved, hmessage⟩ := hpreserves hentry
  unfold finalizeEntry
  dsimp only
  split
  · exact ⟨hentry, hmessage', hdetail'⟩
  · exact ⟨hpreserved, hmessage.trans hmessage', hdetail.trans hdetail'⟩

/-- **A replay is logged as the answer that it replays**, whichever flow has stored it: with the same statuses and the
same text and images, but as a hit of the cache. -/
theorem replay_logged (hserde : SerdeJson fromSlice IsValue) {forwarding : Forwarding} {stored : CachedBlockResponse}
    (hstores : forwarding.Stores fromSlice stored) (entry : AdminLogRecord) (requestLog : RequestLogSnapshot)
    (scope : BlockScope) :
    ∃ response cache, forward fromSlice scope forwarding = some (response, cache) ∧
      let first := finalizeEntry fromSlice response entry
      let replay := finalizeEntry fromSlice (responseFromBlockCacheHit fromSlice stored.hit)
        (blockCacheHitEntry requestLog stored.hit)
      replay.statusCode = first.statusCode ∧ replay.upstreamStatusCode = first.upstreamStatusCode ∧
        replay.responseDownstream = first.responseDownstream ∧ replay.responseImages = first.responseImages ∧
        preservesAdminErrorFields replay = true ∧ replay.errorMessage = "upstream block cache hit" ∧
        replay.errorDetail = "upstream_block_cache_hit:" ++ stored.reason := by
  obtain ⟨status, contentType, body, hanswers, hstored⟩ := hstores.answersError
  refine ⟨_, _, hanswers scope, ?_⟩
  intro first replay
  have hhit := responseFromBlockCacheHit_stored hserde hstored
  have hbody : (blockAnswer fromSlice status contentType body).body ≠ [] := by
    unfold blockResponseToStore at hstored
    split at hstored
    · cases hstored
    · obtain ⟨reason, hclass, -⟩ := Option.map_eq_some_iff.1 hstored
      exact blockErrorResponseBody_ne_nil hclass
  -- both entries are of the same answer
  have hfirst : LogsAnswer (blockAnswer fromSlice status contentType body) fromSlice first := finalizeEntry_answer hbody entry
  have hreplay : LogsAnswer (blockAnswer fromSlice status contentType body) fromSlice replay := by
    have hentry : LogsAnswer (responseFromBlockCacheHit fromSlice stored.hit) fromSlice replay :=
      finalizeEntry_answer (hhit ▸ hbody) (blockCacheHitEntry requestLog stored.hit)
    rw [hhit] at hentry
    exact hentry
  obtain ⟨hpreserved, hmessage, hdetail⟩ := @finalizeEntry_preserves fromSlice (responseFromBlockCacheHit fromSlice stored.hit)
    (blockCacheHitEntry requestLog stored.hit) rfl
  refine ⟨hreplay.statusCode.trans hfirst.statusCode.symm, ?_, hreplay.downstream.trans hfirst.downstream.symm,
    hreplay.images.trans hfirst.images.symm, hpreserved, hmessage, hdetail⟩
  rw [hreplay.upstreamStatus status rfl, hfirst.upstreamStatus status rfl]

/-- The replay of the blocked input is logged as the answer to it, and as a hit. -/
def LogsReplay (forwarding : Forwarding) : Prop :=
  ∃ (stored : CachedBlockResponse) (response : Response) (cache : Option UpstreamBlockCache),
    forward Json.parse emptyScope forwarding = some (response, cache) ∧
      let first := finalizeEntry Json.parse response .default
      let replay := finalizeEntry Json.parse (responseFromBlockCacheHit Json.parse stored.hit)
        (blockCacheHitEntry ⟨none⟩ stored.hit)
      replay.statusCode = first.statusCode ∧ replay.upstreamStatusCode = first.upstreamStatusCode ∧
        replay.responseDownstream = first.responseDownstream ∧ replay.errorMessage = "upstream block cache hit" ∧
        replay.errorDetail = "upstream_block_cache_hit:" ++ stored.reason

theorem replay_logged_example : LogsReplay blockedForwarding ∧ LogsReplay blockedTask := by
  have hlogs : ∀ forwarding : Forwarding, forwarding.AnswersError Json.parse 400 applicationJson blockedBody →
      LogsReplay forwarding := by
    intro forwarding hanswers
    obtain ⟨stored, hstores⟩ := stores_blockedBody hanswers
    obtain ⟨response, cache, hforward, hstatus, hupstream, hdownstream, -, -, hmessage, hdetail⟩ :=
      replay_logged serdeJson_parse hstores .default ⟨none⟩ emptyScope
    exact ⟨stored, response, cache, hforward, hstatus, hupstream, hdownstream, hmessage, hdetail⟩
  exact ⟨hlogs _ blockedForwarding_answersError, hlogs _ blockedTask_answersError⟩

end GeminiWorker
