import GeminiWorker.Lib.TextSearch
import GeminiWorker.Spec.GrsaiResponse

/-!
# Statuses and streams of grsai

* `parseGrsaiResponse_of_payload`: a body is as good as the payload found in it.
* `statusReported_iff`: an HTTP error keeps its status exactly if its body can be read.
* `stream_eq_json`: the last event of a stream is answered like the same text alone.
-/

namespace GeminiWorker

open Json (Value Map)

section

variable {reader : JsonReader} {canonicalReason : ℕ → Option String} {status : ℕ} {body : List UInt8}

/-! ## Payloads -/

/-- What `parse_grsai_response` reads of a body. -/
def Payload (reader : JsonReader) (body : List UInt8) (rawJson : Value) : Prop :=
  ∃ text, extractPayloadText body (Text.fromUtf8Lossy body) = .ok text ∧ reader.fromStr text = .ok rawJson

theorem extractPayloadText_error {bodyText : String} {err : GrsaiError}
    (h : extractPayloadText body bodyText = .error err) : ∃ message, err = parseError message bodyText none := by
  unfold extractPayloadText at h
  split at h
  · exact ⟨_, (Except.error.inj h).symm⟩
  · dsimp only at h
    split at h
    · cases h
    · split at h
      · cases h
      · exact ⟨_, (Except.error.inj h).symm⟩

/-- **A body is as good as the payload in it.** -/
theorem parseGrsaiResponse_of_payload {rawJson : Value} (h : Payload reader body rawJson) :
    parseGrsaiResponse reader canonicalReason status body =
      readJson canonicalReason status (Text.fromUtf8Lossy body) rawJson := by
  obtain ⟨text, htext, hread⟩ := h
  unfold parseGrsaiResponse
  dsimp only
  rw [htext, Except.ok_bind, hread]

/-- Without one there is an error of parsing. -/
theorem parseGrsaiResponse_of_no_payload (h : ∀ rawJson, ¬ Payload reader body rawJson) :
    ∃ message, parseGrsaiResponse reader canonicalReason status body =
      .error (parseError message (Text.fromUtf8Lossy body) none) := by
  unfold parseGrsaiResponse
  dsimp only
  rcases hextract : extractPayloadText body (Text.fromUtf8Lossy body) with err | text
  · obtain ⟨message, rfl⟩ := extractPayloadText_error hextract
    exact ⟨message, rfl⟩
  · rcases hread : reader.fromStr text with err | rawJson
    · refine ⟨err, ?_⟩
      rw [Except.ok_bind, hread]
    · exact absurd ⟨text, hextract, hread⟩ (h rawJson)

/-! ## HTTP errors -/

/-- The router takes an error with this message for one of parsing. -/
def SaysParseFailed (message : String) : Prop := Text.contains "解析上游服务响应失败" message = true

/-- The error has the HTTP status, and the router names 401 and 429 for what they are. -/
def StatusReported (reader : JsonReader) (canonicalReason : ℕ → Option String) (status : ℕ) (body : List UInt8) : Prop :=
  ∃ err, parseGrsaiResponse reader canonicalReason status body = .error err ∧ err.httpStatus = status ∧
    (status = 401 → grsaiErrorResponse err = ⟨401, "上游服务鉴权失败，请检查密钥后再试", "upstream_auth_failed"⟩) ∧
    (status = 429 → grsaiErrorResponse err = ⟨429, "上游服务限流，请稍后再试", "upstream_rate_limited"⟩)

/-- The body has a payload, or its status is the one that errors of parsing get; and the message in a 401
or 429 does not read like such an error. -/
structure ReadableError (reader : JsonReader) (status : ℕ) (body : List UInt8) : Prop where
  payload : status = 502 ∨ ∃ rawJson, Payload reader body rawJson
  message : status = 401 ∨ status = 429 → ∀ rawJson, Payload reader body rawJson →
    ∀ text, rawJson.asObject.bind upstreamMessage = some text → ¬ SaysParseFailed (Text.trim text)

theorem saysParseFailed_httpErrorMessage
    (hreason : ∀ code reason, canonicalReason code = some reason → ¬ SaysParseFailed reason) {rawJson : Value} :
    SaysParseFailed (httpErrorMessage canonicalReason status rawJson) ↔
      ∃ text, rawJson.asObject.bind upstreamMessage = some text ∧ SaysParseFailed (Text.trim text) := by
  have hdefault : ¬ SaysParseFailed ((canonicalReason status).getD "upstream error") := by
    rcases hcode : canonicalReason status with _ | reason
    · unfold SaysParseFailed
      decide +kernel
    · exact hreason status reason hcode
  have hblank : ¬ SaysParseFailed "" := by
    unfold SaysParseFailed
    decide +kernel
  unfold httpErrorMessage
  rcases rawJson.asObject.bind upstreamMessage with _ | text
  · constructor
    · exact fun h => absurd h hdefault
    · rintro ⟨text, htext, -⟩
      cases htext
  · by_cases htrim : Text.trim text = ""
    · have hfilter : (Option.map Text.trim (some text)).filter (· != "") = none := by simp [htrim]
      rw [hfilter]
      constructor
      · exact fun h => absurd h hdefault
      · rintro ⟨text', htext, hsays⟩
        obtain rfl := Option.some.inj htext
        rw [htrim] at hsays
        exact absurd hsays hblank
    · have hfilter : (Option.map Text.trim (some text)).filter (· != "") = some (Text.trim text) := by simp [htrim]
      rw [hfilter]
      constructor
      · exact fun h => ⟨text, rfl, h⟩
      · rintro ⟨text', htext, hsays⟩
        obtain rfl := Option.some.inj htext
        exact hsays

theorem payload_unique {rawJson rawJson' : Value} (h : Payload reader body rawJson) (h' : Payload reader body rawJson') :
    rawJson = rawJson' := by
  obtain ⟨text, htext, hread⟩ := h
  obtain ⟨text', htext', hread'⟩ := h'
  obtain rfl := Except.ok.inj (htext.symm.trans htext')
  exact Except.ok.inj (hread.symm.trans hread')

/-- **An HTTP error keeps its status exactly if its body can be read**, or would have been a 502 anyway. -/
theorem statusReported_iff (hreason : ∀ code reason, canonicalReason code = some reason → ¬ SaysParseFailed reason)
    (hstatus : isSuccess status = false) :
    StatusReported reader canonicalReason status body ↔ ReadableError reader status body := by
  by_cases hpayload : ∃ rawJson, Payload reader body rawJson
  · obtain ⟨rawJson, hraw⟩ := hpayload
    have herror : parseGrsaiResponse reader canonicalReason status body =
        .error (buildHttpError canonicalReason status (Text.fromUtf8Lossy body) rawJson) := by
      rw [parseGrsaiResponse_of_payload hraw, readJson, hstatus]
      rfl
    constructor
    · rintro ⟨err, herr, -, hauth, hlimit⟩
      obtain rfl := Except.error.inj (herror.symm.trans herr)
      refine ⟨.inr ⟨rawJson, hraw⟩, fun hcode rawJson' hraw' text htext hsays => ?_⟩
      obtain rfl := payload_unique hraw hraw'
      have hmessage := (@saysParseFailed_httpErrorMessage canonicalReason status hreason rawJson).mpr ⟨text, htext, hsays⟩
      have hkind : grsaiErrorKind (buildHttpError canonicalReason status (Text.fromUtf8Lossy body) rawJson) =
          "invalid_json" := if_pos hmessage
      rcases hcode with rfl | rfl
      · have hresponse := congrArg GrsaiErrorResponse.kind (hauth rfl)
        exact absurd (hkind.symm.trans hresponse) (by decide)
      · have hresponse := congrArg GrsaiErrorResponse.kind (hlimit rfl)
        exact absurd (hkind.symm.trans hresponse) (by decide)
    · rintro ⟨-, hmessage⟩
      have hnot (hcode : status = 401 ∨ status = 429) :
          ¬ SaysParseFailed (httpErrorMessage canonicalReason status rawJson) := fun hsays => by
        obtain ⟨text, htext, hsays⟩ := (saysParseFailed_httpErrorMessage hreason).mp hsays
        exact hmessage hcode rawJson hraw text htext hsays
      refine ⟨_, herror, rfl, ?_, ?_⟩
      · rintro rfl
        have hkind : grsaiErrorKind (buildHttpError canonicalReason 401 (Text.fromUtf8Lossy body) rawJson) =
            "upstream_auth_failed" := if_neg (hnot (.inl rfl))
        rw [grsaiErrorResponse, hkind]
        rfl
      · rintro rfl
        have hkind : grsaiErrorKind (buildHttpError canonicalReason 429 (Text.fromUtf8Lossy body) rawJson) =
            "upstream_rate_limited" := if_neg (hnot (.inr rfl))
        rw [grsaiErrorResponse, hkind]
        rfl
  · have hnone : ∀ rawJson, ¬ Payload reader body rawJson := fun rawJson h => hpayload ⟨rawJson, h⟩
    obtain ⟨message, herror⟩ := @parseGrsaiResponse_of_no_payload reader canonicalReason status body hnone
    constructor
    · rintro ⟨err, herr, hkept, -, -⟩
      obtain rfl := Except.error.inj (herror.symm.trans herr)
      exact ⟨.inl hkept.symm, fun _ rawJson h => absurd h (hnone rawJson)⟩
    · rintro ⟨hcode | hsome, -⟩
      · refine ⟨_, herror, hcode.symm, fun h => ?_, fun h => ?_⟩
        · rw [hcode] at h
          cases h
        · rw [hcode] at h
          cases h
      · exact absurd hsome hpayload

/-! ## Streams -/

/-- A result without the text of the body. -/
def ignoringBodyText {α : Type} (result : Except GrsaiError α) : Except GrsaiError α :=
  result.mapError fun err => { err with bodyText := "" }

theorem ignoringBodyText_bind {α β : Type} {x y : Except GrsaiError α} {f g : α → Except GrsaiError β}
    (hxy : ignoringBodyText x = ignoringBodyText y) (hfg : ∀ a, ignoringBodyText (f a) = ignoringBodyText (g a)) :
    ignoringBodyText (x >>= f) = ignoringBodyText (y >>= g) := by
  rcases x with err | a <;> rcases y with err' | a'
  · exact congrArg Except.error (Except.error.inj hxy)
  · cases hxy
  · cases hxy
  · obtain rfl := Except.ok.inj hxy
    exact hfg a

theorem unwrapPayload_ignoring (rawJson : Value) (bodyText bodyText' : String) :
    ignoringBodyText (unwrapPayload rawJson bodyText) = ignoringBodyText (unwrapPayload rawJson bodyText') := by
  unfold unwrapPayload
  rcases rawJson.asObject with _ | object
  · rfl
  · dsimp only
    rcases (object.get "code").bind asI64 with _ | code
    · rfl
    · dsimp only
      by_cases hcode : code ≠ 0
      · rw [if_pos hcode, if_pos hcode]
        rfl
      · rw [if_neg hcode, if_neg hcode]
        rcases object.get "data" with _ | data <;> rfl

theorem readPayload_ignoring (payload : Value) (code : Option Int) (bodyText bodyText' : String) :
    ignoringBodyText (readPayload bodyText payload code) = ignoringBodyText (readPayload bodyText' payload code) := by
  unfold readPayload
  rcases payload.asObject with _ | object
  · rfl
  · dsimp only
    rcases (((object.get "status").bind Value.asStr).map Text.trim).filter (· != "") with _ | statusText <;> rfl

/-- The text of the body has no other effect. -/
theorem readJson_ignoring (rawJson : Value) (bodyText bodyText' : String) :
    ignoringBodyText (readJson canonicalReason status bodyText rawJson) =
      ignoringBodyText (readJson canonicalReason status bodyText' rawJson) := by
  unfold readJson
  by_cases hstatus : (!isSuccess status) = true
  · rw [if_pos hstatus, if_pos hstatus]
    rfl
  · rw [if_neg hstatus, if_neg hstatus]
    refine ignoringBodyText_bind (unwrapPayload_ignoring rawJson bodyText bodyText') fun unwrapped => ?_
    exact readPayload_ignoring unwrapped.1 unwrapped.2 bodyText bodyText'

/-- The payload of a `data:` line. -/
def dataOf (line : String) : Option String := (Text.stripPrefix "data:" line).map Text.trim

/-- The last event of a stream: a `data:` line after which no other carries a payload. -/
structure LastEvent (stream event : String) : Prop where
  framed : (Text.startsWith "\x7b" (Text.trimStart stream) || Text.startsWith "[" (Text.trimStart stream)) = false
  last : ∃ before line after, Text.lines stream = before ++ line :: after ∧ dataOf line = some (Text.trim event) ∧
    ∀ later ∈ after, ∀ data, dataOf later = some data → data = "" ∨ data = "[DONE]"

variable {event : String}

theorem LastEvent.not_blank (h : LastEvent (Text.fromUtf8Lossy body) event) :
    ¬ (body = [] ∨ Text.trim (Text.fromUtf8Lossy body) = "") := by
  obtain ⟨before, line, after, hlines, hline, -⟩ := h.last
  obtain ⟨rest, hrest, -⟩ := Option.map_eq_some_iff.mp hline
  rw [Text.stripPrefix_eq_some_iff] at hrest
  have hmem : 'd' ∈ (Text.fromUtf8Lossy body).toList := by
    have hmem : line ∈ Text.lines (Text.fromUtf8Lossy body) := by
      rw [hlines]
      exact List.mem_append_right _ (List.mem_cons_self ..)
    refine Text.mem_of_mem_lines hmem ?_
    rw [hrest, String.toList_append]
    exact List.mem_append_left _ (by decide)
  rintro (rfl | hblank)
  · exact absurd hmem (by decide)
  · exact Text.trim_ne_empty hmem (by decide) hblank

/-- The last event is found, whatever stands before it. -/
theorem LastEvent.extractPayloadText_eq (h : LastEvent (Text.fromUtf8Lossy body) event)
    (hblank : Text.trim event ≠ "") (hdone : Text.trim event ≠ "[DONE]") :
    extractPayloadText body (Text.fromUtf8Lossy body) = .ok (Text.trim event) := by
  obtain ⟨before, line, after, hlines, hline, hafter⟩ := h.last
  have hevents : ((Text.lines (Text.fromUtf8Lossy body)).filterMap (Text.stripPrefix "data:")).map Text.trim =
      before.filterMap dataOf ++ Text.trim event :: after.filterMap dataOf := by
    rw [List.map_filterMap]
    show (Text.lines (Text.fromUtf8Lossy body)).filterMap dataOf = _
    rw [hlines, List.filterMap_append, List.filterMap_cons_some hline]
  -- from the end, the lines after it are passed over
  have hlater : (after.filterMap dataOf).reverse.find? (fun line => line != "" && line != "[DONE]") = none := by
    rw [List.find?_eq_none]
    intro data hdata
    obtain ⟨later, hmem, hlater⟩ := List.mem_filterMap.mp (List.mem_reverse.mp hdata)
    rcases hafter later hmem data hlater with rfl | rfl <;> decide
  have hfind : (before.filterMap dataOf ++ Text.trim event :: after.filterMap dataOf).reverse.find?
      (fun line => line != "" && line != "[DONE]") = some (Text.trim event) := by
    rw [List.reverse_append, List.reverse_cons, List.append_assoc, List.find?_append, hlater, Option.none_or,
      List.singleton_append, List.find?_cons_of_pos]
    simp [hblank, hdone]
  unfold extractPayloadText
  rw [if_neg h.not_blank]
  dsimp only
  rw [h.framed, if_neg Bool.false_ne_true, hevents, hfind]

/-- The text of an object or array is read from its bracket on. -/
theorem extractPayloadText_container {text : String}
    (hstart : (Text.startsWith "\x7b" (Text.trimStart text) || Text.startsWith "[" (Text.trimStart text)) = true)
    (hblank : Text.trim text ≠ "") :
    extractPayloadText (Text.bytes text) text = .ok (Text.trimStart text) := by
  have hbody : Text.bytes text ≠ [] := by
    intro hempty
    have htext : text = "" := by rw [← Text.fromUtf8Lossy_bytes text, hempty]; rfl
    rw [htext] at hblank
    exact hblank (by decide)
  unfold extractPayloadText
  rw [if_neg (not_or.mpr ⟨hbody, hblank⟩)]
  dsimp only
  rw [if_pos hstart]

/-- **A stream is answered like its last event.** -/
theorem stream_eq_json {rawJson : Value} (hread : reader.fromStr event = .ok rawJson)
    (hcontainer : rawJson.asObject.isSome ∨ rawJson.asArray.isSome) (hblank : Text.trim event ≠ "")
    (hdone : Text.trim event ≠ "[DONE]") (hlast : LastEvent (Text.fromUtf8Lossy body) event) :
    ignoringBodyText (parseGrsaiResponse reader canonicalReason status body) =
      ignoringBodyText (parseGrsaiResponse reader canonicalReason status (Text.bytes event)) := by
  obtain ⟨hreadStart, hreadTrim⟩ := reader.fromStr_trimmed event rawJson hread
  have hstream : Payload reader body rawJson :=
    ⟨Text.trim event, hlast.extractPayloadText_eq hblank hdone, hreadTrim⟩
  have hstart := reader.fromStr_container event rawJson hread hcontainer
  have hjson : Payload reader (Text.bytes event) rawJson := by
    refine ⟨Text.trimStart event, ?_, hreadStart⟩
    rw [Text.fromUtf8Lossy_bytes]
    exact extractPayloadText_container hstart hblank
  rw [parseGrsaiResponse_of_payload hstream, parseGrsaiResponse_of_payload hjson]
  exact readJson_ignoring rawJson _ _

end

/-- A reader of one object only, with the text it is written as. -/
def oneObjectReader (document : String) (members : Map) (htrim : Text.trim document = document)
    (htrimStart : Text.trimStart document = document) (hbrace : Text.startsWith "\x7b" document = true) : JsonReader where
  fromStr text := if text = document then .ok (.object members) else .error "expected value at line 1 column 1"
  fromStr_trimmed text value h := by
    split at h
    · rename_i htext
      rw [htext, htrimStart, htrim, if_pos rfl]
      exact ⟨h, h⟩
    · cases h
  fromStr_container text value h _ := by
    split at h
    · rename_i htext
      rw [htext, htrimStart, hbrace, Bool.true_or]
    · cases h

def emptyObjectReader : JsonReader :=
  oneObjectReader "\x7b\x7d" [] (by decide +kernel) (by decide +kernel) (by decide +kernel)

theorem stream_eq_json_example :
    ignoringBodyText (parseGrsaiResponse emptyObjectReader (fun _ => none) 200
      (Text.bytes "event: done\r\ndata: \x7b\x7d\r\n\r\ndata: [DONE]\n")) =
    ignoringBodyText (parseGrsaiResponse emptyObjectReader (fun _ => none) 200 (Text.bytes "\x7b\x7d")) := by
  have hread : emptyObjectReader.fromStr "\x7b\x7d" = .ok (.object []) := by
    simp only [emptyObjectReader, oneObjectReader, ↓reduceIte]
  refine stream_eq_json hread (.inl rfl) (by decide +kernel) (by decide +kernel) ?_
  rw [Text.fromUtf8Lossy_bytes]
  refine ⟨by decide +kernel, ["event: done"], "data: \x7b\x7d", ["", "data: [DONE]"], by decide +kernel,
    by decide +kernel, ?_⟩
  intro later hlater data hdata
  rcases List.mem_cons.mp hlater with rfl | hlater
  · have hblank : dataOf "" = none := by decide +kernel
    exact absurd (hblank.symm.trans hdata) (by simp)
  · obtain rfl := List.mem_singleton.mp hlater
    have hdone : dataOf "data: [DONE]" = some "[DONE]" := by decide +kernel
    exact .inr (Option.some.inj (hdata.symm.trans hdone))

theorem statusReported_example : StatusReported emptyObjectReader (fun _ => some "Too Many Requests") 429
    (Text.bytes "\x7b\x7d") := by
  have hpayload : Payload emptyObjectReader (Text.bytes "\x7b\x7d") (.object []) :=
    ⟨"\x7b\x7d", by rfl, by rfl⟩
  refine (statusReported_iff ?_ (by decide)).mpr ⟨.inr ⟨_, hpayload⟩, fun _ rawJson h text htext => ?_⟩
  · intro code reason h
    obtain rfl := Option.some.inj h
    unfold SaysParseFailed
    decide +kernel
  · rw [← payload_unique hpayload h] at htext
    cases htext

/-- A page that is no JSON. -/
def unauthorizedPage : List UInt8 := Text.bytes "<h1>401</h1>"

/-- A page with status 401 is reported as a 502. -/
theorem unauthorizedPage_lost : ¬ ∀ reader canonicalReason status body, isSuccess status = false →
    StatusReported reader canonicalReason status body := by
  intro h
  obtain ⟨err, herr, hkept, -⟩ := h emptyObjectReader (fun _ => some "Unauthorized") 401 unauthorizedPage (by decide)
  have hextract : (extractPayloadText unauthorizedPage (Text.fromUtf8Lossy unauthorizedPage)).toOption = none := by
    decide +kernel
  have hnone : ∀ rawJson, ¬ Payload emptyObjectReader unauthorizedPage rawJson := by
    rintro rawJson ⟨text, htext, -⟩
    rw [htext] at hextract
    cases hextract
  obtain ⟨message, hparse⟩ := @parseGrsaiResponse_of_no_payload emptyObjectReader (fun _ => some "Unauthorized") 401
    unauthorizedPage hnone
  obtain rfl := Except.error.inj (hparse.symm.trans herr)
  have hcode : 502 = 401 := hkept
  exact absurd hcode (by decide)

end GeminiWorker
