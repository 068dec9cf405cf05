import GeminiWorker.Proof.R2Path

/-!
# What an R2 signature covers

* `trimmedKey_eq`: the object key is what is left of the prefix, and parts that both encoders keep.
* `path_eq_iff`: when the signed path is the sent one.
* `signedAsSent_iff`: when the signature describes the request.
-/

namespace GeminiWorker

open UrlPath FormUrlencoded

/-! ## Text and its bytes -/

theorem dropWhile_append_cons {p : Char → Bool} {c : Char} (hc : p c = false) (xs ys : List Char) :
    (xs ++ c :: ys).dropWhile p = xs.dropWhile p ++ c :: ys := by
  induction xs with
  | nil => rw [List.nil_append, List.dropWhile_cons_of_neg (by simp [hc])]; rfl
  | cons x xs ih =>
    by_cases hx : p x = true
    · rw [List.cons_append, List.dropWhile_cons_of_pos hx, List.dropWhile_cons_of_pos hx, ih]
    · rw [List.cons_append, List.dropWhile_cons_of_neg hx, List.dropWhile_cons_of_neg hx]
      rfl

theorem dropWhile_rdropWhile_dropWhile (p : Char → Bool) (cs : List Char) :
    ((cs.dropWhile p).rdropWhile p).dropWhile p = (cs.dropWhile p).rdropWhile p := by
  induction cs with
  | nil => rfl
  | cons c cs ih =>
    by_cases hc : p c = true
    · rwa [List.dropWhile_cons_of_pos hc]
    · rw [List.dropWhile_cons_of_neg hc]
      obtain ⟨t, ht⟩ := List.rdropWhile_prefix p (c :: cs)
      rcases h : (c :: cs).rdropWhile p with _ | ⟨d, ds⟩
      · rfl
      · rw [h, List.cons_append] at ht
        rw [List.head_eq_of_cons_eq ht, List.dropWhile_cons_of_neg hc]

theorem trim_trim (s : String) : Text.trim (Text.trim s) = Text.trim s := by
  unfold Text.trim
  rw [String.toList_ofList, dropWhile_rdropWhile_dropWhile, List.rdropWhile_idempotent]

theorem le_toNat_ofNat {n m : ℕ} (hm : 128 ≤ m) (h : n + m < 256) : 128 ≤ (UInt8.ofNat (n + m)).toNat := by
  rw [Text.toNat_ofNat h]
  omega

/-- An ASCII character is one byte, the bytes of any other are no ASCII. -/
theorem utf8EncodeChar_cases (c : Char) :
    c.toNat < 128 ∧ String.utf8EncodeChar c = [UInt8.ofNat c.toNat] ∨
      ∀ b ∈ String.utf8EncodeChar c, 128 ≤ b.toNat := by
  unfold String.utf8EncodeChar
  dsimp only
  by_cases h1 : c.val.toNat ≤ 0x7f
  · rw [if_pos h1]
    exact Or.inl ⟨Nat.lt_succ_of_le h1, rfl⟩
  · rw [if_neg h1]
    refine Or.inr fun b hb => ?_
    split at hb
    · rcases List.mem_pair.mp hb with rfl | rfl
      · exact le_toNat_ofNat (by omega) (by omega)
      · exact le_toNat_ofNat (by omega) (by omega)
    · split at hb
      · simp only [List.mem_cons, List.not_mem_nil, or_false] at hb
        rcases hb with rfl | rfl | rfl
        · exact le_toNat_ofNat (by omega) (by omega)
        · exact le_toNat_ofNat (by omega) (by omega)
        · exact le_toNat_ofNat (by omega) (by omega)
      · simp only [List.mem_cons, List.not_mem_nil, or_false] at hb
        rcases hb with rfl | rfl | rfl | rfl
        · exact le_toNat_ofNat (by omega) (by omega)
        · exact le_toNat_ofNat (by omega) (by omega)
        · exact le_toNat_ofNat (by omega) (by omega)
        · exact le_toNat_ofNat (by omega) (by omega)

theorem slash_notMem_utf8EncodeChar {c : Char} (hc : c ≠ '/') : 47 ∉ String.utf8EncodeChar c := by
  intro hmem
  rcases utf8EncodeChar_cases c with ⟨hlt, hbyte⟩ | hhigh
  · rw [hbyte, List.mem_singleton] at hmem
    have hnat := congrArg UInt8.toNat hmem
    rw [Text.toNat_ofNat (by omega)] at hnat
    exact hc (Char.toNat_inj.mp hnat.symm)
  · exact absurd (hhigh 47 hmem) (by decide)

theorem splitOn_append_of_notMem {front : List UInt8} (h : 47 ∉ front) (text : List UInt8) :
    (front ++ text).splitOn 47 = (text.splitOn 47).modifyHead fun head => front ++ head := by
  induction front with
  | nil =>
    obtain ⟨head, tail, hsplit⟩ := List.exists_cons_of_ne_nil (List.splitOn_ne_nil 47 text)
    rw [List.nil_append, hsplit]
    rfl
  | cons b front ih =>
    rw [List.mem_cons, not_or] at h
    obtain ⟨head, tail, hsplit⟩ := List.exists_cons_of_ne_nil (List.splitOn_ne_nil 47 text)
    rw [List.cons_append, List.splitOn_cons_eq_if_modifyHead, beq_false_of_ne (Ne.symm h.1), ih h.2, hsplit]
    rfl

/-- The parts of a text between slashes are those of its bytes. -/
theorem splitOn_utf8 (cs : List Char) :
    (cs.flatMap String.utf8EncodeChar).splitOn 47 =
      (cs.splitOn '/').map fun part => part.flatMap String.utf8EncodeChar := by
  induction cs with
  | nil => rfl
  | cons c cs ih =>
    obtain ⟨head, tail, hsplit⟩ := List.exists_cons_of_ne_nil (List.splitOn_ne_nil '/' cs)
    rw [List.flatMap_cons, List.splitOn_cons_eq_if_modifyHead]
    by_cases hc : c = '/'
    · subst hc
      have hslash : String.utf8EncodeChar '/' = [47] := by decide
      rw [hslash, List.singleton_append, List.splitOn_cons_eq_if_modifyHead, ih]
      rfl
    · rw [splitOn_append_of_notMem (slash_notMem_utf8EncodeChar hc), ih, beq_false_of_ne hc, hsplit]
      rfl

theorem split_bytes (s : String) : (Text.split '/' s).map Text.bytes = (Text.bytes s).splitOn 47 := by
  rw [Text.split, Text.bytes, splitOn_utf8, List.map_map]
  apply List.map_congr_left
  intro part _
  show Text.bytes (String.ofList part) = _
  rw [Text.bytes, String.toList_ofList]

/-! ## Characters of names -/

/-- A character of the dates, numbers and names in a key. -/
def isNameChar (c : Char) : Bool := c.isAlphanum || c == '-' || c == '.'

theorem toNat_lt_of_isNameChar {c : Char} (h : isNameChar c = true) : c.toNat < 128 := by
  have hval : c.toNat = c.val.toNat := rfl
  have hZ : 'Z'.val.toNat = 90 := rfl
  have hz : 'z'.val.toNat = 122 := rfl
  have h9 : '9'.val.toNat = 57 := rfl
  delta isNameChar Char.isAlphanum Char.isAlpha Char.isUpper Char.isLower Char.isDigit at h
  simp only [Bool.or_eq_true, Bool.and_eq_true, decide_eq_true_eq, beq_iff_eq, ge_iff_le, UInt32.le_iff_toNat_le] at h
  rcases h with (((h | h) | h) | rfl) | rfl
  · omega
  · omega
  · omega
  · decide
  · decide

/-- A name character is no separator, and one plain byte. -/
theorem nameChar_spec {c : Char} (h : isNameChar c = true) :
    c ≠ '/' ∧ Text.isWhitespace c = false ∧ ∀ b ∈ String.utf8EncodeChar c, isPlain b = true ∧ b ≠ 37 := by
  have hall : ∀ n < 128, isNameChar (Char.ofNat n) = true → Char.ofNat n ≠ '/' ∧
      Text.isWhitespace (Char.ofNat n) = false ∧
      ∀ b ∈ String.utf8EncodeChar (Char.ofNat n), isPlain b = true ∧ b ≠ 37 := by
    decide +kernel
  have hc := hall c.toNat (toNat_lt_of_isNameChar h)
  rw [Char.ofNat_toNat] at hc
  exact hc h

/-- A part of the key after its prefix. -/
structure NamePart (part : String) : Prop where
  chars : ∀ c ∈ part.toList, isNameChar c = true
  nonempty : part.toList ≠ []
  noDot : isDot (Text.bytes part) = false

theorem mem_bytes {s : String} {b : UInt8} (hb : b ∈ Text.bytes s) : ∃ c ∈ s.toList, b ∈ String.utf8EncodeChar c :=
  List.mem_flatMap.mp hb

theorem isDigit_of_mem_toString {n : ℕ} {c : Char} (hc : c ∈ (toString n).toList) : c.isDigit = true := by
  rw [show toString n = String.ofList (Nat.toDigits 10 n) from rfl, String.toList_ofList] at hc
  exact Nat.isDigit_of_mem_toDigits (by decide) (by decide) hc

theorem isDigit_of_mem_padded {width n : ℕ} {c : Char} (hc : c ∈ (padded width n).toList) : c.isDigit = true := by
  rw [padded, String.toList_ofList, List.leftpad, List.mem_append] at hc
  rcases hc with hc | hc
  · rw [List.eq_of_mem_replicate hc]
    decide
  · exact isDigit_of_mem_toString hc

theorem isNameChar_of_isDigit {c : Char} (h : c.isDigit = true) : isNameChar c = true := by
  rw [isNameChar, Char.isAlphanum, h, Bool.or_true]
  rfl

/-- A digit is no part of a dot segment. -/
theorem digit_bytes {c : Char} (h : c.isDigit = true) : ∀ b ∈ String.utf8EncodeChar c, b ≠ 46 ∧ b ≠ 37 := by
  have hall : ∀ n < 128, (Char.ofNat n).isDigit = true →
      ∀ b ∈ String.utf8EncodeChar (Char.ofNat n), b ≠ 46 ∧ b ≠ 37 := by
    decide +kernel
  have hc := hall c.toNat (toNat_lt_of_isNameChar (isNameChar_of_isDigit h))
  rw [Char.ofNat_toNat] at hc
  exact hc h

theorem namePart_padded {width : ℕ} (hwidth : 0 < width) (n : ℕ) : NamePart (padded width n) where
  chars := fun _ hc => isNameChar_of_isDigit (isDigit_of_mem_padded hc)
  nonempty := by
    rw [padded, String.toList_ofList]
    intro hnil
    have hlength := congrArg List.length hnil
    rw [List.length_leftpad, List.length_nil] at hlength
    omega
  noDot := by
    rw [Bool.eq_false_iff]
    intro hdot
    have hdots : ∀ dot ∈ dotSegments, 46 ∈ dot ∨ 37 ∈ dot := by decide
    have hfree : ∀ b ∈ Text.bytes (padded width n), b ≠ 46 ∧ b ≠ 37 := by
      intro b hb
      obtain ⟨c, hc, hb⟩ := mem_bytes hb
      exact digit_bytes (isDigit_of_mem_padded hc) b hb
    rcases hdots _ ((isDot_iff _).mp hdot) with h | h
    · exact (hfree 46 h).1 rfl
    · exact (hfree 37 h).2 rfl

/-- The name of the object below its date. -/
def fileName (mimeType : String) (now : UtcTime) (random : List UInt8) : String :=
  toString (now.unixTimestampNanos / 1000000) ++ "-" ++ Hex.encode random ++ "." ++
    Text.trimStartMatches '.' (extensionFromMime mimeType)

theorem isNameChar_extension (mimeType : String) :
    ∀ c ∈ (Text.trimStartMatches '.' (extensionFromMime mimeType)).toList, isNameChar c = true := by
  rw [← List.all_eq_true]
  unfold extensionFromMime
  split
  · decide
  · split
    · decide
    · split
      · decide
      · decide

theorem namePart_fileName (mimeType : String) (now : UtcTime) (random : List UInt8) :
    NamePart (fileName mimeType now random) where
  chars := by
    intro c hc
    simp only [fileName, String.toList_append, List.mem_append] at hc
    rcases hc with (((hc | hc) | hc) | hc) | hc
    · exact isNameChar_of_isDigit (isDigit_of_mem_toString hc)
    · rw [List.mem_singleton.mp hc]
      decide
    · rw [isNameChar, Hex.isAlphanum_of_mem_encode hc]
      rfl
    · rw [List.mem_singleton.mp hc]
      decide
    · exact isNameChar_extension mimeType c hc
  nonempty := by
    rw [fileName]
    simp [String.toList_append]
  noDot := by
    rw [Bool.eq_false_iff]
    intro hdot
    have hdots : ∀ dot ∈ dotSegments, 45 ∉ dot := by decide
    apply hdots _ ((isDot_iff _).mp hdot)
    rw [fileName, Text.bytes_append, Text.bytes_append, Text.bytes_append, Text.bytes_append]
    simp only [List.mem_append]
    exact Or.inl (Or.inl (Or.inl (Or.inr (by decide))))

/-- The parts of the key after its prefix. -/
def keyParts (mimeType : String) (now : UtcTime) (random : List UInt8) : List String :=
  [padded 4 now.year, padded 2 now.month, padded 2 now.day, fileName mimeType now random]

theorem namePart_of_mem_keyParts {mimeType : String} {now : UtcTime} {random : List UInt8} :
    ∀ part ∈ keyParts mimeType now random, NamePart part := by
  intro part hpart
  simp only [keyParts, List.mem_cons, List.not_mem_nil, or_false] at hpart
  rcases hpart with rfl | rfl | rfl | rfl
  · exact namePart_padded (by decide) _
  · exact namePart_padded (by decide) _
  · exact namePart_padded (by decide) _
  · exact namePart_fileName _ _ _

/-! ## The key -/

/-- The prefix of the key as `build_r2_object_key` makes it. -/
def keyStem (objectPrefix : String) : String :=
  let objectPrefix := Text.trimMatches '/' (Text.trim objectPrefix)
  if objectPrefix = "" then "images" else objectPrefix

/-- What is left of it in the URL, where blanks and slashes are trimmed once more. -/
def keyLead (objectPrefix : String) : List Char :=
  ((keyStem objectPrefix).toList.dropWhile Text.isWhitespace).dropWhile (· == '/')

def joinedParts (parts : List String) : List Char := ['/'].intercalate (parts.map String.toList)

theorem objectKey_toList (objectPrefix mimeType : String) (now : UtcTime) (random : List UInt8) :
    (buildR2ObjectKey objectPrefix mimeType now (Hex.encode random)).toList =
      (keyStem objectPrefix).toList ++ '/' :: joinedParts (keyParts mimeType now random) := by
  have hkey : buildR2ObjectKey objectPrefix mimeType now (Hex.encode random) =
      keyStem objectPrefix ++ "/" ++ padded 4 now.year ++ "/" ++ padded 2 now.month ++ "/" ++ padded 2 now.day ++
        "/" ++ toString (now.unixTimestampNanos / 1000000) ++ "-" ++ Hex.encode random ++ "." ++
        Text.trimStartMatches '.' (extensionFromMime mimeType) := rfl
  have hslash : "/".toList = ['/'] := by decide
  rw [hkey, joinedParts, keyParts, fileName]
  simp only [List.map_cons, List.map_nil, List.intercalate_cons_cons, List.intercalate_singleton,
    String.toList_append, List.append_assoc, hslash, List.cons_append, List.nil_append]

theorem mem_joinedParts {parts : List String} (hparts : ∀ part ∈ parts, NamePart part) :
    ∀ c ∈ joinedParts parts, isNameChar c = true ∨ c = '/' := by
  unfold joinedParts
  induction parts with
  | nil =>
    intro c hc
    cases hc
  | cons part parts ih =>
    have hpart := (hparts part (List.mem_cons_self ..)).chars
    have hrest := ih fun p hp => hparts p (List.mem_cons_of_mem _ hp)
    intro c hc
    rcases parts with _ | ⟨next, parts⟩
    · rw [List.map_cons, List.map_nil, List.intercalate_singleton] at hc
      exact Or.inl (hpart c hc)
    · rw [List.map_cons, List.map_cons, List.intercalate_cons_cons] at hc
      rcases List.mem_append.mp hc with hc | hc
      · rcases List.mem_append.mp hc with hc | hc
        · exact Or.inl (hpart c hc)
        · exact Or.inr (List.mem_singleton.mp hc)
      · exact hrest c hc

/-- **Trimming reaches no further than the prefix.** -/
theorem trimmedKey_toList {stem : List Char} {parts : List String} (hparts : ∀ part ∈ parts, NamePart part)
    (hne : parts ≠ []) :
    (Text.trimStartMatches '/' (Text.trim (String.ofList (stem ++ '/' :: joinedParts parts)))).toList =
      let lead := (stem.dropWhile Text.isWhitespace).dropWhile (· == '/')
      if lead.isEmpty then joinedParts parts else lead ++ '/' :: joinedParts parts := by
  have hslash : Text.isWhitespace '/' = false := by decide
  have hend : ∀ front : List Char, (front ++ '/' :: joinedParts parts).rdropWhile Text.isWhitespace =
      front ++ '/' :: joinedParts parts := by
    intro front
    rw [List.rdropWhile_eq_self_iff]
    intro hne hlast
    have hmem : (front ++ '/' :: joinedParts parts).getLast hne ∈ '/' :: joinedParts parts := by
      rw [List.getLast_append_of_ne_nil _ (List.cons_ne_nil _ _)]
      exact List.getLast_mem _
    generalize (front ++ '/' :: joinedParts parts).getLast hne = c at hlast hmem
    rcases List.mem_cons.mp hmem with rfl | hmem
    · rw [hslash] at hlast
      cases hlast
    · rcases mem_joinedParts hparts c hmem with hc | rfl
      · rw [(nameChar_spec hc).2.1] at hlast
        cases hlast
      · rw [hslash] at hlast
        cases hlast
  have hstart : (joinedParts parts).dropWhile (· == '/') = joinedParts parts := by
    obtain ⟨part, parts, rfl⟩ := List.exists_cons_of_ne_nil hne
    have hpart := hparts part (List.mem_cons_self ..)
    obtain ⟨c, cs, hcs⟩ := List.exists_cons_of_ne_nil hpart.nonempty
    have hc : c ≠ '/' := (nameChar_spec (hpart.chars c (by rw [hcs]; exact List.mem_cons_self ..))).1
    have hjoined : ∃ more, joinedParts (part :: parts) = c :: more := by
      rcases parts with _ | ⟨next, parts⟩
      · exact ⟨cs, by rw [joinedParts, List.map_cons, List.map_nil, List.intercalate_singleton, hcs]⟩
      · refine ⟨cs ++ (['/'] ++ ['/'].intercalate ((next :: parts).map String.toList)), ?_⟩
        rw [joinedParts, List.map_cons, List.map_cons, List.intercalate_cons_cons, hcs, List.cons_append,
          List.cons_append, List.append_assoc]
    obtain ⟨more, hmore⟩ := hjoined
    rw [hmore, List.dropWhile_cons_of_neg (by simpa using hc)]
  rw [Text.trimStartMatches, String.toList_ofList, Text.trim, String.toList_ofList, String.toList_ofList,
    dropWhile_append_cons hslash, hend, List.dropWhile_append]
  dsimp only
  split
  · rw [List.dropWhile_cons_of_pos (by decide), hstart]
  · rfl

/-! ## The two paths -/

/-- The bytes of what is left of the prefix, if anything is. -/
def leadBytes (objectPrefix : String) : Option (List UInt8) :=
  if (keyLead objectPrefix).isEmpty then none else some ((keyLead objectPrefix).flatMap String.utf8EncodeChar)

/-- The bytes after the prefix. -/
def tailBytes (parts : List String) : List UInt8 := (joinedParts parts).flatMap String.utf8EncodeChar

theorem splitOn_tailBytes {parts : List String} (hparts : ∀ part ∈ parts, NamePart part) (hne : parts ≠ []) :
    (tailBytes parts).splitOn 47 = parts.map Text.bytes := by
  have hfree : ∀ cs ∈ parts.map String.toList, '/' ∉ cs := by
    intro cs hcs hmem
    obtain ⟨part, hpart, rfl⟩ := List.mem_map.mp hcs
    exact (nameChar_spec ((hparts part hpart).chars _ hmem)).1 rfl
  rw [tailBytes, splitOn_utf8, joinedParts, List.splitOn_intercalate '/' hfree (by simpa using hne), List.map_map]
  rfl

theorem isPlain_tailBytes {parts : List String} (hparts : ∀ part ∈ parts, NamePart part) :
    ∀ b ∈ tailBytes parts, isPlain b = true ∨ b = 47 := by
  intro b hb
  obtain ⟨c, hc, hb⟩ := List.mem_flatMap.mp hb
  rcases mem_joinedParts hparts c hc with hname | rfl
  · exact Or.inl ((nameChar_spec hname).2.2 b hb).1
  · exact Or.inr (List.mem_singleton.mp hb)

/-- The segments after the prefix, which are signed as they are sent. -/
def tailSegments (parts : List String) : List (List UInt8) := parts.map fun part => serialize (Text.bytes part)

theorem sent_tail {parts : List String} (hparts : ∀ part ∈ parts, NamePart part) (hne : parts ≠ []) :
    (((tailBytes parts).filter fun b => !isSkipped b).splitOnP isSlash).map
      (fun segment => segment.flatMap encodeByte) = tailSegments parts := by
  rw [splitOnP_isSlash (isPlain_tailBytes hparts), splitOn_tailBytes hparts hne, List.map_map]
  apply List.map_congr_left
  intro part hpart
  apply flatMap_encodeByte_of_isPlain
  intro b hb
  obtain ⟨c, hc, hb⟩ := mem_bytes hb
  exact ((nameChar_spec ((hparts part hpart).chars c hc)).2.2 b hb).1

theorem isDot_tailSegments {parts : List String} (hparts : ∀ part ∈ parts, NamePart part) :
    ∀ s ∈ tailSegments parts, isDot s = false := by
  intro s hs
  obtain ⟨part, hpart, rfl⟩ := List.mem_map.mp hs
  rw [isDot_serialize, (hparts part hpart).noDot]
  intro b hb
  obtain ⟨c, hc, hb⟩ := mem_bytes hb
  exact ((nameChar_spec ((hparts part hpart).chars c hc)).2.2 b hb).1

section

variable {endpoint : Url} {bucket objectPrefix mimeType : String} {now : UtcTime} {random : List UInt8}

/-- The key as it is in the URL. -/
def trimmedKey (objectPrefix mimeType : String) (now : UtcTime) (random : List UInt8) : String :=
  Text.trimStartMatches '/' (Text.trim (buildR2ObjectKey objectPrefix mimeType now (Hex.encode random)))

theorem bytes_trimmedKey :
    Text.bytes (trimmedKey objectPrefix mimeType now random) =
      (match leadBytes objectPrefix with
        | none => tailBytes (keyParts mimeType now random)
        | some lead => lead ++ 47 :: tailBytes (keyParts mimeType now random)) := by
  have hkey := String.ofList_toList (s := buildR2ObjectKey objectPrefix mimeType now (Hex.encode random))
  rw [objectKey_toList] at hkey
  rw [trimmedKey, ← hkey, Text.bytes,
    trimmedKey_toList namePart_of_mem_keyParts (by unfold keyParts; exact List.cons_ne_nil _ _)]
  change (if (keyLead objectPrefix).isEmpty = true then _ else keyLead objectPrefix ++ '/' :: _).flatMap _ = _
  unfold leadBytes tailBytes
  generalize keyLead objectPrefix = lead
  generalize joinedParts (keyParts mimeType now random) = tail
  by_cases hlead : lead.isEmpty = true
  · rw [if_pos hlead, if_pos hlead]
  · have hslash : String.utf8EncodeChar '/' = [47] := by decide
    rw [if_neg hlead, if_neg hlead, List.flatMap_append, List.flatMap_cons, hslash]
    rfl

/-- The path that is sent, without the path of the endpoint. -/
theorem path_objectUrlOf :
    (objectUrlOf endpoint bucket (trimmedKey objectPrefix mimeType now random)).path =
      join ((segments (sentText (endpoint.path.rdropWhile (· == 47)) (Text.bytes bucket)
        (leadBytes objectPrefix))).foldl push [] ++ tailSegments (keyParts mimeType now random)) := by
  have hne : keyParts mimeType now random ≠ [] := List.cons_ne_nil _ _
  have htext : endpoint.path.rdropWhile (· == 47) ++
      Text.bytes ("/" ++ bucket ++ "/" ++ trimmedKey objectPrefix mimeType now random) =
      sentText (endpoint.path.rdropWhile (· == 47)) (Text.bytes bucket) (leadBytes objectPrefix) ++
        47 :: tailBytes (keyParts mimeType now random) := by
    have hslash : Text.bytes "/" = [47] := by decide
    rw [Text.bytes_append, Text.bytes_append, Text.bytes_append, hslash, bytes_trimmedKey, sentText]
    generalize leadBytes objectPrefix = lead
    generalize tailBytes (keyParts mimeType now random) = tail
    rcases lead with _ | lead
    · simp
    · simp
  have hkept : (sentText (endpoint.path.rdropWhile (· == 47)) (Text.bytes bucket) (leadBytes objectPrefix)).filter
      (fun b => !isSkipped b) ≠ [] := by
    intro hnil
    have hmem : (47 : UInt8) ∈ (sentText (endpoint.path.rdropWhile (· == 47)) (Text.bytes bucket)
        (leadBytes objectPrefix)).filter (fun b => !isSkipped b) := by
      rw [List.mem_filter, sentText]
      exact ⟨List.mem_append_right _ (List.mem_cons_self ..), by decide⟩
    rw [hnil] at hmem
    cases hmem
  show parsePath _ = _
  rw [htext, parsePath, segments_append hkept, sent_tail namePart_of_mem_keyParts hne,
    resolve_append _ (by rw [tailSegments, ne_eq, List.map_eq_nil_iff]; exact hne)
      (isDot_tailSegments namePart_of_mem_keyParts)]

/-- The path that is signed. -/
theorem canonicalUri_eq (toText : Url → String) :
    (buildR2ObjectUrl toText endpoint bucket
      (buildR2ObjectKey objectPrefix mimeType now (Hex.encode random))).2 =
      join (signedSegments (Text.bytes (Text.trim bucket)) (leadBytes objectPrefix) ++
        tailSegments (keyParts mimeType now random)) := by
  have hne : keyParts mimeType now random ≠ [] := List.cons_ne_nil _ _
  have hparts : (Text.split '/' (trimmedKey objectPrefix mimeType now random)).map
      (fun part => serialize (Text.bytes part)) =
      ((leadBytes objectPrefix).map fun lead => (lead.splitOn 47).map serialize).getD [] ++
        tailSegments (keyParts mimeType now random) := by
    have hmap : (Text.split '/' (trimmedKey objectPrefix mimeType now random)).map
        (fun part => serialize (Text.bytes part)) =
        ((Text.bytes (trimmedKey objectPrefix mimeType now random)).splitOn 47).map serialize := by
      rw [← split_bytes, List.map_map]
      rfl
    have htail : tailSegments (keyParts mimeType now random) =
        ((tailBytes (keyParts mimeType now random)).splitOn 47).map serialize := by
      rw [splitOn_tailBytes namePart_of_mem_keyParts hne, List.map_map]
      rfl
    rw [hmap, bytes_trimmedKey, htail]
    generalize leadBytes objectPrefix = lead
    generalize tailBytes (keyParts mimeType now random) = tail
    rcases lead with _ | lead
    · rfl
    · rw [Option.map_some, Option.getD_some, List.splitOn_append_cons_self, List.map_append]
  have hnonempty : ((leadBytes objectPrefix).map fun lead => (lead.splitOn 47).map serialize).getD [] ++
      tailSegments (keyParts mimeType now random) ≠ [] := by
    apply List.append_ne_nil_of_right_ne_nil
    rw [tailSegments, ne_eq, List.map_eq_nil_iff]
    exact hne
  show [47] ++ serialize _ ++ [47] ++ [47].intercalate ((Text.split '/' (trimmedKey ..)).map _) = _
  have hcons : signedSegments (Text.bytes (Text.trim bucket)) (leadBytes objectPrefix) ++
      tailSegments (keyParts mimeType now random) = serialize (Text.bytes (Text.trim bucket)) ::
        (((leadBytes objectPrefix).map fun lead => (lead.splitOn 47).map serialize).getD [] ++
          tailSegments (keyParts mimeType now random)) := rfl
  rw [hparts, hcons, join, List.intercalate_cons_of_ne_nil hnonempty]
  simp

/-- The signed path is the sent one if what is left of bucket and prefix is sent as it is signed. -/
theorem path_eq_iff (toText : Url → String) (hhttp : endpoint.isHttp = true) :
    (buildR2ObjectUrl toText endpoint bucket
        (buildR2ObjectKey objectPrefix mimeType now (Hex.encode random))).2 =
      (objectUrlOf endpoint (Text.trim bucket) (trimmedKey objectPrefix mimeType now random)).path ↔
    endpoint.path.rdropWhile (· == 47) = [] ∧
        PlainTarget (Text.bytes (Text.trim bucket)) (leadBytes objectPrefix) ∨
      DotsCancel (endpoint.path.rdropWhile (· == 47)) (Text.bytes (Text.trim bucket)) (leadBytes objectPrefix) := by
  have hne : tailSegments (keyParts mimeType now random) ≠ [] := List.cons_ne_nil _ _
  have hfront := List.rdropWhile_prefix (· == 47) endpoint.path
  have hrooted : endpoint.path.rdropWhile (· == 47) = [] ∨
      (endpoint.path.rdropWhile (· == 47)).head? = some 47 := by
    have hpath := endpoint.rooted hhttp
    obtain ⟨rest, hrest⟩ := hfront
    rcases h : endpoint.path.rdropWhile (· == 47) with _ | ⟨b, bs⟩
    · exact Or.inl rfl
    · rw [h] at hrest
      rw [← hrest] at hpath
      exact Or.inr hpath
  have hskipped : ∀ b ∈ endpoint.path.rdropWhile (· == 47), isSkipped b = false := fun b hb =>
    endpoint.written hhttp b (hfront.subset hb)
  rw [canonicalUri_eq, path_objectUrlOf,
    ← resolved_eq_signed_iff hrooted hskipped (Text.bytes (Text.trim bucket)) (leadBytes objectPrefix)]
  constructor
  · intro h
    have hsigned : ∀ s ∈ signedSegments (Text.bytes (Text.trim bucket)) (leadBytes objectPrefix) ++
        tailSegments (keyParts mimeType now random), 47 ∉ s := by
      intro s hs
      rcases List.mem_append.mp hs with hs | hs
      · exact slash_notMem_signedSegments s hs
      · obtain ⟨part, -, rfl⟩ := List.mem_map.mp hs
        exact serialize_slash_free _
    have hsent : ∀ s ∈ (segments (sentText (endpoint.path.rdropWhile (· == 47)) (Text.bytes (Text.trim bucket))
        (leadBytes objectPrefix))).foldl push [] ++ tailSegments (keyParts mimeType now random), 47 ∉ s := by
      intro s hs
      rcases List.mem_append.mp hs with hs | hs
      · rcases mem_foldl_push hs with hs | hs
        · cases hs
        · exact slash_notMem_segment hs
      · obtain ⟨part, -, rfl⟩ := List.mem_map.mp hs
        exact serialize_slash_free _
    have hequal := join_inj (List.append_ne_nil_of_right_ne_nil _ hne) (List.append_ne_nil_of_right_ne_nil _ hne)
      hsigned hsent h
    exact (List.append_cancel_right hequal).symm
  · intro h
    rw [h]

end

/-! ## The signature -/

/-- What is signed describes the request that the client makes of the text of the URL. -/
def SignedAsSent {β : Type} (env : UploadEnv) (request : PutRequest β) : Prop :=
  ∃ url, env.parse request.objectUrl = .ok url ∧ request.signed.uri = url.path ∧
    request.signed.query = url.query.getD [] ∧ request.signed.host = url.hostHeader

/-- The endpoints, buckets and prefixes of which the request is what is signed: no port and no query,
and a path that is signed as it is sent. -/
structure SignatureCovers (endpoint : Url) (config : R2Config) : Prop where
  port : endpoint.port = none
  query : endpoint.query.getD [] = []
  path : endpoint.path.rdropWhile (· == 47) = [] ∧
      PlainTarget (Text.bytes (Text.trim config.r2Bucket)) (leadBytes config.r2ObjectPrefix) ∨
    DotsCancel (endpoint.path.rdropWhile (· == 47)) (Text.bytes (Text.trim config.r2Bucket))
      (leadBytes config.r2ObjectPrefix)

theorem hostHeader_eq_iff (url : Url) : url.hostStr.getD "" = url.hostHeader ↔ url.port = none := by
  unfold Url.hostHeader
  rcases url.port with _ | port
  · exact ⟨fun _ => rfl, fun _ => rfl⟩
  · constructor
    · intro h
      have hlength := congrArg (fun s => s.toList.length) h
      have hcolon : ":".toList.length = 1 := by decide
      simp only [String.toList_append, List.length_append, hcolon] at hlength
      omega
    · intro h
      cases h

theorem parseHttpBaseUrl_isHttp {parse : String → Except String Url} {raw envName : String} {url : Url}
    (h : parseHttpBaseUrl parse raw envName = .ok url) : parse (Text.trim raw) = .ok url ∧ url.isHttp = true := by
  unfold parseHttpBaseUrl at h
  dsimp only at h
  split at h
  · cases h
  · rcases hparse : parse (Text.trim raw) with err | parsed
    · rw [hparse] at h
      cases h
    · rw [hparse] at h
      dsimp only [bind, Except.bind, pure, Except.pure] at h
      split at h
      · cases h
      · rename_i hhttp
        split at h
        · cases h
        · obtain rfl := Except.ok.inj h
          exact ⟨rfl, by simpa using hhttp⟩

/-- What is accepted has an endpoint that is. -/
theorem validate_endpoint {parse : String → Except String Url} {config : R2Config}
    (h : validate parse config = .ok ()) (hmode : config.imageHostMode = "r2" ∨ config.imageHostMode = "r2_then_legacy") :
    ∃ url, parseHttpBaseUrl parse config.r2Endpoint "R2_ENDPOINT" = .ok url := by
  have hmember : config.imageHostMode ∈ ["r2", "r2_then_legacy"] := by
    rcases hmode with h | h <;> rw [h] <;> decide
  unfold validate at h
  rw [if_pos hmember] at h
  rcases hurl : parseHttpBaseUrl parse config.r2Endpoint "R2_ENDPOINT" with err | url
  · -- every way through the checks before it ends in an error
    rw [hurl] at h
    dsimp only [bind, Except.bind, pure, Except.pure] at h
    split at h
    · cases h
    · split at h
      · cases h
      · cases h
  · exact ⟨url, rfl⟩

/-- An accepted configuration has an endpoint of `http` or `https`. -/
theorem isHttp_endpoint {parse : String → Except String Url} {envMap : String → Option String} {config : R2Config}
    (hconfig : R2Config.fromEnvMap parse envMap = .ok config)
    (hmode : config.imageHostMode = "r2" ∨ config.imageHostMode = "r2_then_legacy") {endpoint : Url}
    (hendpoint : parse config.r2Endpoint = .ok endpoint) : endpoint.isHttp = true := by
  obtain ⟨_, hvalid, hreturn⟩ := Except.bind_eq_ok.mp hconfig
  obtain hsame := Except.pure_eq_ok.mp hreturn
  rw [hsame] at hvalid
  obtain ⟨parsed, hchecked⟩ := validate_endpoint hvalid hmode
  obtain ⟨hparsed, hhttp⟩ := parseHttpBaseUrl_isHttp hchecked
  have htrimmed : Text.trim config.r2Endpoint = config.r2Endpoint := by
    rw [← hsame]
    dsimp only
    rcases envMap "R2_ENDPOINT" with _ | value
    · decide
    · exact trim_trim value
  rw [htrimmed, hendpoint] at hparsed
  rw [Except.ok.inj hparsed]
  exact hhttp

/-- What is signed, and the text of the URL, of a request that is made. -/
theorem putRequest_spec {env : UploadEnv} {config : R2Config} {endpoint : Url}
    (hendpoint : env.parse config.r2Endpoint = .ok endpoint) {mimeType : String} {β : Type}
    {payload : Option (String × ℕ × β)} {request : PutRequest β}
    (h : env.putRequest config mimeType payload = .ok request) :
    request.objectUrl = env.toText (objectUrlOf endpoint (Text.trim config.r2Bucket)
        (trimmedKey config.r2ObjectPrefix mimeType env.keyTime env.random)) ∧
      request.signed.uri = (buildR2ObjectUrl env.toText endpoint config.r2Bucket
        (buildR2ObjectKey config.r2ObjectPrefix mimeType env.keyTime (Hex.encode env.random))).2 ∧
      request.signed.query = [] ∧ request.signed.host = endpoint.hostStr.getD "" := by
  rw [UploadEnv.putRequest, hendpoint] at h
  rcases payload with _ | ⟨payloadHash, contentLength, body⟩
  · cases h
  · obtain rfl := Except.pure_eq_ok.mp h
    exact ⟨rfl, rfl, rfl, rfl⟩

/-- **A signature describes the request that is sent exactly if the endpoint has no port and no query,
and bucket and prefix are signed as they are sent.** -/
theorem signedAsSent_iff {env : UploadEnv} {envMap : String → Option String} {config : R2Config}
    (hconfig : R2Config.fromEnvMap env.parse envMap = .ok config)
    (hmode : config.imageHostMode = "r2" ∨ config.imageHostMode = "r2_then_legacy") {endpoint : Url}
    (hendpoint : env.parse config.r2Endpoint = .ok endpoint) {mimeType : String} {object : Url}
    (hobject : object = objectUrlOf endpoint (Text.trim config.r2Bucket)
      (Text.trimStartMatches '/' (Text.trim (env.objectKey config mimeType))))
    (hround : env.parse (env.toText object) = .ok object) :
    (∀ data request, env.uploadR2Request config mimeType data = .ok request →
        (SignedAsSent env request ↔ SignatureCovers endpoint config)) ∧
      (∀ sizeBytes contents request, env.uploadR2BlobRequest config mimeType sizeBytes contents = .ok request →
        (SignedAsSent env request ↔ SignatureCovers endpoint config)) ∧
      ∀ dataBase64 request, env.uploadR2Base64Request config mimeType dataBase64 = .ok request →
        (SignedAsSent env request ↔ SignatureCovers endpoint config) := by
  have hput : ∀ {β : Type} (payload : Option (String × ℕ × β)) (request : PutRequest β),
      env.putRequest config mimeType payload = .ok request →
        (SignedAsSent env request ↔ SignatureCovers endpoint config) := by
    intro β payload request hrequest
    obtain ⟨htext, huri, hquery, hhost⟩ := putRequest_spec hendpoint hrequest
    have hhttp := isHttp_endpoint hconfig hmode hendpoint
    have hpath := @path_eq_iff endpoint config.r2Bucket config.r2ObjectPrefix mimeType env.keyTime env.random
      env.toText hhttp
    change _ = env.toText (objectUrlOf endpoint _ (Text.trimStartMatches '/' (Text.trim (env.objectKey config _)))) at htext
    rw [← hobject] at htext
    change (_ = (objectUrlOf endpoint _ (Text.trimStartMatches '/' (Text.trim (env.objectKey config _)))).path ↔ _)
      at hpath
    rw [← hobject, ← huri] at hpath
    have hobjectQuery : object.query = endpoint.query := by
      rw [hobject]
      rfl
    have hobjectHost : object.hostHeader = endpoint.hostHeader := by
      rw [hobject]
      rfl
    constructor
    · rintro ⟨url, hurl, hsignedUri, hsignedQuery, hsignedHost⟩
      rw [htext, hround] at hurl
      obtain rfl := Except.ok.inj hurl
      rw [hquery, hobjectQuery] at hsignedQuery
      rw [hhost, hobjectHost] at hsignedHost
      exact ⟨(hostHeader_eq_iff endpoint).mp hsignedHost, hsignedQuery.symm, hpath.mp hsignedUri⟩
    · intro hcovers
      refine ⟨object, ?_, hpath.mpr hcovers.path, ?_, ?_⟩
      · rw [htext, hround]
      · rw [hquery, hobjectQuery]
        exact hcovers.query.symm
      · rw [hhost, hobjectHost]
        exact (hostHeader_eq_iff endpoint).mpr hcovers.port
  exact ⟨fun data => hput _, fun sizeBytes contents => hput _, fun dataBase64 => hput _⟩

/-! ## Two prefixes -/

/-- A URL of `https` without a port and a query, as text. -/
def exampleText (url : Url) : String :=
  "https://" ++ url.hostStr.getD "" ++ String.ofList (url.path.map fun b => Char.ofNat b.toNat)

def exampleUrl (host : String) : Url where
  scheme := "https"
  hostStr := some host
  port := none
  path := [47]
  query := none
  rooted := fun _ => rfl
  written := fun _ b hb => by rw [List.mem_singleton.mp hb]; decide

def exampleConfig (objectPrefix : String) : R2Config :=
  ⟨"r2", "https://r2.example.com", "images", "key", "secret", "https://cdn.example.com", objectPrefix⟩

def exampleEnvMap (objectPrefix name : String) : Option String :=
  if name = "IMAGE_HOST_MODE" then some "r2"
  else if name = "R2_ENDPOINT" then some "https://r2.example.com"
  else if name = "R2_BUCKET" then some "images"
  else if name = "R2_ACCESS_KEY_ID" then some "key"
  else if name = "R2_SECRET_ACCESS_KEY" then some "secret"
  else if name = "R2_PUBLIC_BASE_URL" then some "https://cdn.example.com"
  else if name = "R2_OBJECT_PREFIX" then some objectPrefix
  else none

def exampleTime : UtcTime := ⟨2024, 1, 2, 3, 4, 5, 1704164645000000000⟩

def exampleObject (objectPrefix : String) : Url :=
  objectUrlOf (exampleUrl "r2.example.com") "images" (trimmedKey objectPrefix "image/png" exampleTime [1, 2, 3, 4])

def exampleEnv (objectPrefix : String) : UploadEnv where
  parse text :=
    if text = "https://r2.example.com" then .ok (exampleUrl "r2.example.com")
    else if text = "https://cdn.example.com" then .ok (exampleUrl "cdn.example.com")
    else if text = exampleText (exampleObject objectPrefix) then .ok (exampleObject objectPrefix)
    else .error "relative URL without a base"
  toText := exampleText
  sha256 := id
  hmacSha256 key text := key ++ Text.bytes text
  keyTime := exampleTime
  signTime := exampleTime
  random := [1, 2, 3, 4]

theorem exampleEnv_round {objectPrefix : String}
    (h : exampleText (exampleObject objectPrefix) ≠ "https://r2.example.com" ∧
      exampleText (exampleObject objectPrefix) ≠ "https://cdn.example.com") :
    (exampleEnv objectPrefix).parse (exampleText (exampleObject objectPrefix)) = .ok (exampleObject objectPrefix) := by
  unfold exampleEnv
  dsimp only
  rw [if_neg h.1, if_neg h.2, if_pos rfl]

theorem signedAsSent_example : ∃ request,
    (exampleEnv "images").uploadR2Request (exampleConfig "images") "image/png" [] = .ok request ∧
      SignedAsSent (exampleEnv "images") request := by
  have hconfig : R2Config.fromEnvMap (exampleEnv "images").parse (exampleEnvMap "images") =
      .ok (exampleConfig "images") := rfl
  have hendpoint : (exampleEnv "images").parse "https://r2.example.com" = .ok (exampleUrl "r2.example.com") := rfl
  have hplain : PlainTarget (Text.bytes (Text.trim "images")) (leadBytes "images") :=
    ⟨by decide +kernel, by decide +kernel, by decide +kernel, by decide +kernel⟩
  have hround := @exampleEnv_round "images" (by decide +kernel)
  refine ⟨_, rfl, ?_⟩
  exact ((signedAsSent_iff hconfig (Or.inl rfl) hendpoint rfl hround).1 [] _ rfl).mpr
    ⟨rfl, rfl, Or.inl ⟨by decide, hplain⟩⟩

/-- A blank in the prefix is signed as `+` and sent as `%20`. -/
theorem blank_not_covered : ¬ ∀ (env : UploadEnv) (envMap : String → Option String) (config : R2Config)
    (endpoint : Url) (mimeType : String) (object : Url),
    R2Config.fromEnvMap env.parse envMap = .ok config → config.imageHostMode = "r2" →
    env.parse config.r2Endpoint = .ok endpoint →
    object = objectUrlOf endpoint (Text.trim config.r2Bucket)
      (Text.trimStartMatches '/' (Text.trim (env.objectKey config mimeType))) →
    env.parse (env.toText object) = .ok object →
    ∀ data request, env.uploadR2Request config mimeType data = .ok request → SignedAsSent env request := by
  intro hall
  have hsigned := hall (exampleEnv "my images") (exampleEnvMap "my images") (exampleConfig "my images")
    (exampleUrl "r2.example.com") "image/png" (exampleObject "my images") rfl rfl rfl rfl
    (exampleEnv_round (by decide +kernel)) [] _ rfl
  obtain ⟨url, hurl, huri, -, -⟩ := hsigned
  have hround := @exampleEnv_round "my images" (by decide +kernel)
  obtain rfl : url = exampleObject "my images" := Except.ok.inj (hurl.symm.trans hround)
  have hpath := @path_eq_iff (exampleUrl "r2.example.com") "images" "my images" "image/png" exampleTime [1, 2, 3, 4]
    exampleText rfl
  have hlead : leadBytes "my images" = some (Text.bytes "my images") := by decide +kernel
  rcases hpath.mp huri with ⟨-, hplain⟩ | ⟨hne, -⟩
  · rcases hplain.leadPlain _ hlead 32 (by decide) with h | h
    · revert h
      decide
    · revert h
      decide
  · exact hne (by decide)

end GeminiWorker
