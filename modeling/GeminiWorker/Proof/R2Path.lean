import GeminiWorker.Spec.R2Upload

/-!
# Where an R2 object is sent and what is signed of it

The signed path is form-encoded segment by segment, the sent path is that of a URL, below the path of
the endpoint.

* `good_of_flatMap_eq`: no byte is signed shorter than it is sent, so that two equal texts agree in
  each byte.
* `segments_ne_signed`: a path of the endpoint is not signed.
* `resolved_eq_signed_iff`: when the sent segments are the signed ones.
-/

namespace GeminiWorker

open UrlPath FormUrlencoded

/-! ## Bytes -/

/-- Both encoders write the byte alike. -/
def isPlain (b : UInt8) : Bool := unchanged b || (isEncoded b && b != 32 && !isSkipped b)

/-- What each byte counts: as much as the form encoding of it. -/
def weight (b : UInt8) : ℕ := if b = 43 then 3 else 1

/-- What the signature has for a byte of the key. -/
def signByte (b : UInt8) : List UInt8 := if b = 47 then [47] else serializeByte b

theorem writeByte_of_isPlain {b : UInt8} (h : isPlain b = true) : writeByte b = serializeByte b := by
  have hall : ∀ b : UInt8, isPlain b = true → writeByte b = serializeByte b := by
    intro b
    apply forall_byte _ b
    decide +kernel
  exact hall b h

/-- A byte counts no more as it is sent than as it is signed, and only as much if both encoders write
it alike or start it differently. -/
theorem measure_writeByte (b : UInt8) :
    measure weight (writeByte b) < measure weight (serializeByte b) ∨
      measure weight (writeByte b) = measure weight (serializeByte b) ∧
        (isPlain b = true ∨ ∃ c d s t, writeByte b = c :: s ∧ serializeByte b = d :: t ∧ c ≠ d) := by
  have hall : ∀ b : UInt8, measure weight (writeByte b) < measure weight (serializeByte b) ∨
      measure weight (writeByte b) = measure weight (serializeByte b) ∧
        (isPlain b = true ∨ (writeByte b ≠ [] ∧ serializeByte b ≠ [] ∧
          (writeByte b).head? ≠ (serializeByte b).head?)) := by
    intro b
    apply forall_byte _ b
    decide +kernel
  rcases hall b with h | ⟨h, h' | ⟨hw, hs, hne⟩⟩
  · exact Or.inl h
  · exact Or.inr ⟨h, Or.inl h'⟩
  · obtain ⟨c, s, hc⟩ := List.exists_cons_of_ne_nil hw
    obtain ⟨d, t, hd⟩ := List.exists_cons_of_ne_nil hs
    refine Or.inr ⟨h, Or.inr ⟨c, d, s, t, hc, hd, fun hcd => hne ?_⟩⟩
    rw [hc, hd, hcd]
    rfl

theorem measure_writeByte_le (b : UInt8) : measure weight (writeByte b) ≤ measure weight (signByte b) := by
  unfold signByte
  split
  · rename_i hb
    subst hb
    decide
  · rcases measure_writeByte b with h | ⟨h, -⟩ <;> omega

theorem measure_flatMap_le {f g : UInt8 → List UInt8} (h : ∀ b, measure weight (f b) ≤ measure weight (g b))
    (text : List UInt8) : measure weight (text.flatMap f) ≤ measure weight (text.flatMap g) := by
  induction text with
  | nil => exact Nat.le_refl _
  | cons b text ih =>
    have hb := h b
    rw [List.flatMap_cons, List.flatMap_cons, measure_append, measure_append]
    omega

/-- How a byte is signed that is sent no longer than this: alike, shorter or with another start. -/
def Differs (g : UInt8 → List UInt8) (good : UInt8 → Prop) (b : UInt8) : Prop :=
  measure weight (writeByte b) < measure weight (g b) ∨
    measure weight (writeByte b) = measure weight (g b) ∧
      (writeByte b = g b ∧ good b ∨ ∃ c d s t, writeByte b = c :: s ∧ g b = d :: t ∧ c ≠ d)

/-- If the signed text is the sent one, so is what each byte is written as. -/
theorem good_of_flatMap_eq {g : UInt8 → List UInt8} {good : UInt8 → Prop} (hg : ∀ b, Differs g good b)
    {text sent signed : List UInt8} (hle : measure weight sent ≤ measure weight signed)
    (h : text.flatMap writeByte ++ sent = text.flatMap g ++ signed) : (∀ b ∈ text, good b) ∧ sent = signed := by
  have hgle : ∀ b, measure weight (writeByte b) ≤ measure weight (g b) := by
    intro b
    rcases hg b with hlt | ⟨heq, -⟩ <;> omega
  induction text with
  | nil => exact ⟨fun b hb => (by cases hb), h⟩
  | cons b text ih =>
    rw [List.flatMap_cons, List.flatMap_cons, List.append_assoc, List.append_assoc] at h
    have hmeasure := congrArg (measure weight) h
    have hrest := measure_flatMap_le hgle text
    rw [measure_append, measure_append, measure_append, measure_append] at hmeasure
    rcases hg b with hlt | ⟨heq, ⟨halike, hgood⟩ | ⟨c, d, s, t, hc, hd, hne⟩⟩
    · omega
    · rw [halike] at h
      obtain ⟨hall, hsent⟩ := ih (List.append_cancel_left h)
      refine ⟨fun b' hb' => ?_, hsent⟩
      rcases List.mem_cons.mp hb' with rfl | hb'
      · exact hgood
      · exact hall b' hb'
    · rw [hc, hd, List.cons_append, List.cons_append] at h
      exact absurd (List.head_eq_of_cons_eq h) hne

theorem serializeByte_differs (b : UInt8) : Differs serializeByte (fun b => isPlain b = true) b := by
  rcases measure_writeByte b with h | ⟨h, hplain | hstart⟩
  · exact Or.inl h
  · exact Or.inr ⟨h, Or.inl ⟨writeByte_of_isPlain hplain, hplain⟩⟩
  · exact Or.inr ⟨h, Or.inr hstart⟩

theorem signByte_differs (b : UInt8) : Differs signByte (fun b => isPlain b = true ∨ b = 47) b := by
  by_cases hb : b = 47
  · subst hb
    refine Or.inr ⟨by decide, Or.inl ⟨by decide, Or.inr rfl⟩⟩
  · have hsign : signByte b = serializeByte b := if_neg hb
    unfold Differs
    rw [hsign]
    rcases serializeByte_differs b with h | ⟨h, ⟨halike, hplain⟩ | hstart⟩
    · exact Or.inl h
    · exact Or.inr ⟨h, Or.inl ⟨halike, Or.inl hplain⟩⟩
    · exact Or.inr ⟨h, Or.inr hstart⟩

/-! ## The target of an upload -/

/-- The bytes of the bucket and of what the key starts with, as they are appended to the endpoint. -/
def sentText (endpointPath bucket : List UInt8) (lead : Option (List UInt8)) : List UInt8 :=
  endpointPath ++ 47 :: (bucket ++ (lead.map fun lead => 47 :: lead).getD [])

/-- The segments that are signed for them. -/
def signedSegments (bucket : List UInt8) (lead : Option (List UInt8)) : List (List UInt8) :=
  serialize bucket :: (lead.map fun lead => (lead.splitOn 47).map serialize).getD []

/-- Bucket and key contain only what both encoders write alike, and no dot segments. -/
structure PlainTarget (bucket : List UInt8) (lead : Option (List UInt8)) : Prop where
  bucketPlain : ∀ b ∈ bucket, isPlain b = true
  leadPlain : ∀ text ∈ lead, ∀ b ∈ text, isPlain b = true ∨ b = 47
  bucketNoDot : isDot bucket = false
  leadNoDot : ∀ text ∈ lead, ∀ part ∈ text.splitOn 47, isDot part = false

theorem serialize_slash_free (bytes : List UInt8) : 47 ∉ serialize bytes := by
  intro hmem
  obtain ⟨b, -, hb⟩ := List.mem_flatMap.mp hmem
  have hall : ∀ b : UInt8, 47 ∉ serializeByte b := by
    intro b
    apply forall_byte _ b
    decide +kernel
  exact hall b hb

theorem signedSegments_ne_nil (bucket : List UInt8) (lead : Option (List UInt8)) : signedSegments bucket lead ≠ [] :=
  List.cons_ne_nil _ _

theorem slash_notMem_signedSegments {bucket : List UInt8} {lead : Option (List UInt8)} :
    ∀ s ∈ signedSegments bucket lead, 47 ∉ s := by
  intro s hs
  rcases List.mem_cons.mp hs with rfl | hs
  · exact serialize_slash_free bucket
  · rcases lead with _ | lead
    · cases hs
    · obtain ⟨part, -, rfl⟩ := List.mem_map.mp hs
      exact serialize_slash_free part

theorem join_signedSegments (bucket : List UInt8) (lead : Option (List UInt8)) :
    join (signedSegments bucket lead) =
      47 :: (serialize bucket ++ ((lead.map fun lead => 47 :: lead).getD []).flatMap signByte) := by
  rcases lead with _ | lead
  · simp [join, signedSegments]
  · have hparts : [47].intercalate ((lead.splitOn 47).map serialize) = lead.flatMap signByte := by
      have hwritten := intercalate_splitOnP (· == 47) serializeByte lead
      have hsame : (fun b : UInt8 => if (b == 47) = true then [47] else serializeByte b) = signByte := by
        funext b
        unfold signByte
        simp only [beq_iff_eq]
      rw [hsame] at hwritten
      exact hwritten
    have hne : (lead.splitOn 47).map serialize ≠ [] := by
      rw [ne_eq, List.map_eq_nil_iff]
      exact List.splitOn_ne_nil _ _
    have hslash : signByte 47 = [47] := rfl
    show 47 :: [47].intercalate (serialize bucket :: (lead.splitOn 47).map serialize) =
      47 :: (serialize bucket ++ (47 :: lead).flatMap signByte)
    rw [List.intercalate_cons_of_ne_nil hne, hparts, List.flatMap_cons, hslash, List.append_assoc]

theorem isSkipped_of_isPlain {b : UInt8} (h : isPlain b = true) : isSkipped b = false ∧ isSlash b = false := by
  have hall : ∀ b : UInt8, isPlain b = true → isSkipped b = false ∧ isSlash b = false := by
    intro b
    apply forall_byte _ b
    decide +kernel
  exact hall b h

theorem encodeByte_of_isPlain {b : UInt8} (h : isPlain b = true) : encodeByte b = serializeByte b := by
  obtain ⟨hskipped, hslash⟩ := isSkipped_of_isPlain h
  rw [← writeByte_of_isPlain h, writeByte, hskipped, hslash]
  rfl

theorem flatMap_encodeByte_of_isPlain {text : List UInt8} (h : ∀ b ∈ text, isPlain b = true) :
    text.flatMap encodeByte = serialize text :=
  List.flatMap_congr fun b hb => encodeByte_of_isPlain (h b hb)

/-- Text of plain bytes and slashes is split at the slashes. -/
theorem splitOnP_isSlash {text : List UInt8} (h : ∀ b ∈ text, isPlain b = true ∨ b = 47) :
    (text.filter fun b => !isSkipped b).splitOnP isSlash = text.splitOn 47 := by
  have hfilter : (text.filter fun b => !isSkipped b) = text := by
    apply List.filter_eq_self.mpr
    intro b hb
    rcases h b hb with hplain | rfl
    · rw [(isSkipped_of_isPlain hplain).1]
      rfl
    · decide
  rw [hfilter]
  apply splitOnP_congr
  intro b hb
  rcases h b hb with hplain | rfl
  · have hne : b ≠ 47 := by
      rintro rfl
      exact absurd hplain (by decide)
    rw [(isSkipped_of_isPlain hplain).2, beq_false_of_ne hne]
  · decide

theorem segments_slash (text : List UInt8) :
    segments (47 :: text) =
      ((text.filter fun b => !isSkipped b).splitOnP isSlash).map fun segment => segment.flatMap encodeByte := by
  rw [segments, List.filter_cons_of_pos (by decide), belowRoot, if_pos (by decide)]

/-- The segments of a plain target are the signed ones. -/
theorem segments_of_plain {bucket : List UInt8} {lead : Option (List UInt8)}
    (hbucket : ∀ b ∈ bucket, isPlain b = true) (hlead : ∀ text ∈ lead, ∀ b ∈ text, isPlain b = true ∨ b = 47) :
    segments (sentText [] bucket lead) = signedSegments bucket lead := by
  have hfirst : segments (47 :: bucket) = [serialize bucket] := by
    have h47 : 47 ∉ bucket := fun h => absurd (hbucket 47 h) (by decide)
    rw [segments_slash, splitOnP_isSlash fun b hb => Or.inl (hbucket b hb), List.splitOn_eq_singleton h47,
      List.map_singleton, flatMap_encodeByte_of_isPlain hbucket]
  rcases lead with _ | text
  · rw [sentText, List.nil_append, Option.map_none, Option.getD_none, List.append_nil, hfirst]
    rfl
  · have htext := hlead text rfl
    have hne : (47 :: bucket).filter (fun b => !isSkipped b) ≠ [] := by
      rw [List.filter_cons_of_pos (by decide)]
      exact List.cons_ne_nil _ _
    have hparts : (text.splitOn 47).map (fun segment => segment.flatMap encodeByte) =
        (text.splitOn 47).map serialize := by
      apply List.map_congr_left
      intro part hpart
      apply flatMap_encodeByte_of_isPlain
      intro b hb
      obtain ⟨hmem, hsep⟩ := Text.mem_of_mem_splitOnP hpart b hb
      rcases htext b hmem with hplain | rfl
      · exact hplain
      · revert hsep
        decide
    show segments ((47 :: bucket) ++ 47 :: text) = _
    rw [segments_append hne, hfirst, splitOnP_isSlash htext, hparts]
    rfl

theorem isDot_serialize {part : List UInt8} (h : ∀ b ∈ part, isPlain b = true) : isDot (serialize part) = isDot part := by
  rw [← flatMap_encodeByte_of_isPlain h, isDot_flatMap_encodeByte]

theorem isPlain_of_mem_splitOn {text part : List UInt8} (htext : ∀ b ∈ text, isPlain b = true ∨ b = 47)
    (hpart : part ∈ text.splitOn 47) : ∀ b ∈ part, isPlain b = true := by
  intro b hb
  obtain ⟨hmem, hsep⟩ := Text.mem_of_mem_splitOnP hpart b hb
  rcases htext b hmem with hplain | rfl
  · exact hplain
  · revert hsep
    decide

/-- The signed segments of a plain target have a dot segment exactly if the target has. -/
theorem isDot_signedSegments {bucket : List UInt8} {lead : Option (List UInt8)}
    (hbucket : ∀ b ∈ bucket, isPlain b = true) (hlead : ∀ text ∈ lead, ∀ b ∈ text, isPlain b = true ∨ b = 47) :
    (∀ s ∈ signedSegments bucket lead, isDot s = false) ↔
      isDot bucket = false ∧ ∀ text ∈ lead, ∀ part ∈ text.splitOn 47, isDot part = false := by
  have hpart : ∀ text ∈ lead, ∀ part ∈ text.splitOn 47, isDot (serialize part) = isDot part :=
    fun text htext part hpart => isDot_serialize (isPlain_of_mem_splitOn (hlead text htext) hpart)
  constructor
  · intro h
    refine ⟨?_, fun text htext part hmem => ?_⟩
    · rw [← isDot_serialize hbucket]
      exact h _ (List.mem_cons_self ..)
    · rw [← hpart text htext part hmem]
      obtain rfl := Option.mem_def.mp htext
      exact h _ (List.mem_cons_of_mem _ (List.mem_map_of_mem hmem))
  · rintro ⟨hbucketDot, hleadDot⟩ s hs
    rcases List.mem_cons.mp hs with rfl | hs
    · rw [isDot_serialize hbucket, hbucketDot]
    · rcases lead with _ | text
      · cases hs
      · obtain ⟨part, hmem, rfl⟩ := List.mem_map.mp hs
        rw [hpart text rfl part hmem, hleadDot text rfl part hmem]

/-- **At the root, the sent segments are the signed ones exactly for a plain target.** -/
theorem resolved_eq_iff (bucket : List UInt8) (lead : Option (List UInt8)) :
    (segments (sentText [] bucket lead)).foldl push [] = signedSegments bucket lead ↔ PlainTarget bucket lead := by
  constructor
  · intro h
    let suffix := (lead.map fun lead => 47 :: lead).getD []
    have hsent : join (segments (sentText [] bucket lead)) =
        47 :: (bucket.flatMap writeByte ++ suffix.flatMap writeByte) := by
      rw [join_segments, sentText, List.nil_append, List.filter_cons_of_pos (by decide), belowRoot, if_pos (by decide),
        flatMap_writeByte_filter, List.flatMap_append]
    have hsigned : join (signedSegments bucket lead) = 47 :: (serialize bucket ++ suffix.flatMap signByte) :=
      join_signedSegments bucket lead
    have hle : measure weight (suffix.flatMap writeByte) ≤ measure weight (suffix.flatMap signByte) :=
      measure_flatMap_le measure_writeByte_le suffix
    have hbucketLe : measure weight (bucket.flatMap writeByte) ≤ measure weight (serialize bucket) := by
      apply measure_flatMap_le
      intro b
      rcases measure_writeByte b with hb | ⟨hb, -⟩ <;> omega
    -- what is sent is no longer than what is signed, so that nothing is removed from it
    have hnoDots : ∀ s ∈ segments (sentText [] bucket lead), isDot s = false := by
      intro s hs
      by_contra hdot
      have hlt := @measurePath_foldl_push_lt weight (fun b => by unfold weight; split <;> omega) []
        (segments (sentText [] bucket lead)) ⟨s, hs, Bool.not_eq_false _ ▸ hdot⟩
      rw [h, ← measure_join (segments_ne_nil _), ← measure_join (signedSegments_ne_nil _ _), hsent, hsigned,
        measure_cons, measure_cons, measure_append, measure_append] at hlt
      have hnil : measurePath weight [] = 0 := rfl
      omega
    rw [foldl_push_of_plain [] hnoDots, List.nil_append] at h
    rw [h, hsigned] at hsent
    obtain ⟨hbucket, hsuffix⟩ := good_of_flatMap_eq serializeByte_differs hle (List.tail_eq_of_cons_eq hsent).symm
    have hsuffix' : suffix.flatMap writeByte ++ [] = suffix.flatMap signByte ++ [] := by rw [hsuffix]
    obtain ⟨hgood, -⟩ := good_of_flatMap_eq signByte_differs (Nat.le_refl _) hsuffix'
    have hlead : ∀ text ∈ lead, ∀ b ∈ text, isPlain b = true ∨ b = 47 := by
      intro text htext b hb
      obtain rfl := Option.mem_def.mp htext
      exact hgood b (List.mem_cons_of_mem _ hb)
    rw [h] at hnoDots
    obtain ⟨hbucketDot, hleadDot⟩ := (isDot_signedSegments hbucket hlead).mp hnoDots
    exact ⟨hbucket, hlead, hbucketDot, hleadDot⟩
  · intro h
    have hnoDots := (isDot_signedSegments h.bucketPlain h.leadPlain).mpr ⟨h.bucketNoDot, h.leadNoDot⟩
    rw [segments_of_plain h.bucketPlain h.leadPlain, foldl_push_of_plain [] hnoDots, List.nil_append]

/-- Below a path of the endpoint there are more segments than are signed. -/
theorem segments_ne_signed {endpointPath : List UInt8} (hskipped : ∀ b ∈ endpointPath, isSkipped b = false)
    (bucket : List UInt8) (lead : Option (List UInt8)) :
    segments (sentText (47 :: endpointPath) bucket lead) ≠ signedSegments bucket lead := by
  intro h
  let suffix := (lead.map fun lead => 47 :: lead).getD []
  have hslash : isSlash 47 = true := by decide
  have hsent : (segments (sentText (47 :: endpointPath) bucket lead)).length =
      (endpointPath.countP isSlash + 1 + (bucket.filter fun b => !isSkipped b).countP isSlash +
        (suffix.filter fun b => !isSkipped b).countP isSlash) + 1 := by
    have hkept : (endpointPath.filter fun b => !isSkipped b) = endpointPath := by
      apply List.filter_eq_self.mpr
      intro b hb
      rw [hskipped b hb]
      rfl
    have htext : sentText (47 :: endpointPath) bucket lead = 47 :: (endpointPath ++ 47 :: (bucket ++ suffix)) := rfl
    rw [htext, segments_slash, List.length_map, length_splitOnP, List.filter_append, hkept,
      List.filter_cons_of_pos (by decide), List.filter_append, List.countP_append, List.countP_cons_of_pos hslash,
      List.countP_append]
    omega
  have hsigned : (signedSegments bucket lead).length ≤ (suffix.filter fun b => !isSkipped b).countP isSlash + 1 := by
    rcases lead with _ | text
    · exact Nat.le_add_left _ _
    · have hcount : text.countP (· == 47) ≤ (text.filter fun b => !isSkipped b).countP isSlash := by
        rw [List.countP_filter]
        apply List.countP_mono_left
        intro b _ hb
        rw [eq_of_beq hb]
        decide
      show ((text.splitOn 47).map serialize).length + 1 ≤ _
      rw [List.length_map, List.splitOn, length_splitOnP]
      show _ ≤ ((47 :: text).filter fun b => !isSkipped b).countP isSlash + 1
      rw [List.filter_cons_of_pos (by decide), List.countP_cons_of_pos hslash]
      omega
  rw [h] at hsent
  omega

/-- The path of the endpoint is made up for by dot segments, which leave just the signed segments. -/
def DotsCancel (endpointPath bucket : List UInt8) (lead : Option (List UInt8)) : Prop :=
  endpointPath ≠ [] ∧ (∃ s ∈ segments (sentText endpointPath bucket lead), isDot s = true) ∧
    (segments (sentText endpointPath bucket lead)).foldl push [] = signedSegments bucket lead

example : DotsCancel (Text.bytes "/%25252e") (Text.bytes "%252e") (some (Text.bytes "%2e")) :=
  ⟨by decide, by decide +kernel, by decide +kernel⟩

/-- What is signed is sent exactly for a plain target at the root, or one that dot segments lead to. -/
theorem resolved_eq_signed_iff {endpointPath : List UInt8}
    (hrooted : endpointPath = [] ∨ endpointPath.head? = some 47)
    (hskipped : ∀ b ∈ endpointPath, isSkipped b = false) (bucket : List UInt8) (lead : Option (List UInt8)) :
    (segments (sentText endpointPath bucket lead)).foldl push [] = signedSegments bucket lead ↔
      endpointPath = [] ∧ PlainTarget bucket lead ∨ DotsCancel endpointPath bucket lead := by
  rcases hrooted with rfl | hhead
  · rw [resolved_eq_iff]
    constructor
    · exact fun h => Or.inl ⟨rfl, h⟩
    · rintro (⟨-, h⟩ | ⟨h, -⟩)
      · exact h
      · exact absurd rfl h
  · obtain ⟨rest, rfl⟩ := List.head?_eq_some_iff.mp hhead
    constructor
    · intro h
      refine Or.inr ⟨List.cons_ne_nil _ _, ?_, h⟩
      by_contra hnone
      have hnoDots : ∀ s ∈ segments (sentText (47 :: rest) bucket lead), isDot s = false := fun s hs =>
        Bool.eq_false_iff.mpr fun hdot => hnone ⟨s, hs, hdot⟩
      rw [foldl_push_of_plain [] hnoDots, List.nil_append] at h
      exact segments_ne_signed (fun b hb => hskipped b (List.mem_cons_of_mem _ hb)) bucket lead h
    · rintro (⟨h, -⟩ | ⟨-, -, h⟩)
      · cases h
      · exact h

end GeminiWorker
