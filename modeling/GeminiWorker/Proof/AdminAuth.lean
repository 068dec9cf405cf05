import GeminiWorker.Spec.AdminState

/-!
# Who is let in to the admin pages

* `headerToStr_eq_some_iff`, `stringFromUtf8_eq_some_iff`: the texts of bytes that are read strictly.
* `checkBasicAuth_iff`: the headers that are accepted are the encodings of the password, behind any user.
-/

namespace GeminiWorker

/-! ## Texts of bytes -/

theorem bytes_injective {s t : String} (h : Text.bytes s = Text.bytes t) : s = t := by
  rw [← Text.fromUtf8Lossy_bytes s, ← Text.fromUtf8Lossy_bytes t, h]

theorem stringFromUtf8_eq_some_iff {bytes : List UInt8} {s : String} :
    stringFromUtf8 bytes = some s ↔ bytes = Text.bytes s := by
  have hencode : ∀ cs : List Char, (cs.flatMap String.utf8EncodeChar).toByteArray = cs.utf8Encode := fun _ => rfl
  unfold stringFromUtf8
  constructor
  · intro h
    obtain ⟨cs, hcs, rfl⟩ := Option.map_eq_some_iff.mp h
    obtain ⟨l, hl⟩ := ByteArray.isSome_utf8Decode?_iff.mp (Option.isSome_of_eq_some hcs)
    rw [hl, List.utf8Decode?_utf8Encode] at hcs
    obtain rfl := Option.some.inj hcs
    rw [← hencode] at hl
    have hdata := congrArg (fun array : ByteArray => array.data.toList) hl
    simpa [Text.bytes] using hdata
  · rintro rfl
    unfold Text.bytes
    rw [hencode, List.utf8Decode?_utf8Encode, Option.map_some, String.ofList_toList]

/-- The bytes that `HeaderValue::to_str` accepts. -/
def isVisible (b : UInt8) : Bool := 32 ≤ b && b < 127 || b = 9

theorem utf8EncodeChar_visible {b : UInt8} (h : isVisible b = true) : String.utf8EncodeChar (Char.ofNat b.toNat) = [b] := by
  have hall : ∀ n < 128, String.utf8EncodeChar (Char.ofNat n) = [n.toUInt8] := by decide +kernel
  have hsmall : b.toNat < 128 := by
    unfold isVisible at h
    simp only [Bool.or_eq_true, Bool.and_eq_true, decide_eq_true_eq, UInt8.le_iff_toNat_le, UInt8.lt_iff_toNat_lt] at h
    rcases h with ⟨-, h⟩ | rfl
    · exact Nat.lt_trans h (by decide)
    · decide
  rw [hall b.toNat hsmall]
  simp

/-- Visible bytes are the bytes of the text that they are read as. -/
theorem bytes_visible {value : List UInt8} (hall : ∀ b ∈ value, isVisible b = true) :
    Text.bytes (String.ofList (value.map fun b => Char.ofNat b.toNat)) = value := by
  rw [Text.bytes, String.toList_ofList]
  induction value with
  | nil => rfl
  | cons b value ih =>
    have hrest := ih fun c hc => hall c (List.mem_cons_of_mem _ hc)
    rw [List.map_cons, List.flatMap_cons, utf8EncodeChar_visible (hall b (List.mem_cons_self ..)), hrest]
    rfl

theorem headerToStr_eq_some_iff {value : HeaderValue} {s : String} :
    headerToStr value = some s ↔ (∀ b ∈ value, isVisible b = true) ∧ value = Text.bytes s := by
  have hvisible : (value.all fun b => 32 ≤ b && b < 127 || b = 9) = true ↔ ∀ b ∈ value, isVisible b = true :=
    List.all_eq_true
  unfold headerToStr
  constructor
  · intro h
    split at h
    · rename_i hall
      obtain rfl := Option.some.inj h
      exact ⟨hvisible.mp hall, (bytes_visible (hvisible.mp hall)).symm⟩
    · cases h
  · rintro ⟨hall, hs⟩
    rw [if_pos (hvisible.mpr hall), Option.some.injEq]
    exact bytes_injective ((bytes_visible hall).trans hs)

/-! ## Blanks -/

/-- A space or a tab. -/
def isBlank (b : UInt8) : Bool := b = 32 || b = 9

/-- The code points of `White_Space`. -/
def spaceCodes : List ℕ :=
  [9, 10, 11, 12, 13, 0x20, 0x85, 0xA0, 0x1680, 0x2000, 0x2001, 0x2002, 0x2003, 0x2004, 0x2005, 0x2006, 0x2007, 0x2008,
    0x2009, 0x200A, 0x2028, 0x2029, 0x202F, 0x205F, 0x3000]

theorem mem_spaceCodes {c : Char} (h : Text.isWhitespace c = true) : c.toNat ∈ spaceCodes := by
  unfold Text.isWhitespace at h
  simp only [Bool.or_eq_true, Bool.and_eq_true, decide_eq_true_eq, beq_iff_eq] at h
  simp only [spaceCodes, List.mem_cons, List.not_mem_nil, or_false]
  omega

/-- White space that a header may have is blank. -/
theorem utf8EncodeChar_blank {c : Char} (hspace : Text.isWhitespace c = true)
    (hvisible : ∀ b ∈ String.utf8EncodeChar c, isVisible b = true) :
    ∀ b ∈ String.utf8EncodeChar c, isBlank b = true := by
  have hall : ∀ n ∈ spaceCodes, (∀ b ∈ String.utf8EncodeChar (Char.ofNat n), isVisible b = true) →
      ∀ b ∈ String.utf8EncodeChar (Char.ofNat n), isBlank b = true := by
    decide +kernel
  have hcode := hall c.toNat (mem_spaceCodes hspace)
  rw [Char.ofNat_toNat] at hcode
  exact hcode hvisible

theorem visible_of_blank {b : UInt8} (h : isBlank b = true) : isVisible b = true := by
  unfold isBlank at h
  rw [Bool.or_eq_true, decide_eq_true_eq, decide_eq_true_eq] at h
  rcases h with rfl | rfl <;> decide

theorem whitespace_of_blank {b : UInt8} (h : isBlank b = true) : Text.isWhitespace (Char.ofNat b.toNat) = true := by
  unfold isBlank at h
  rw [Bool.or_eq_true, decide_eq_true_eq, decide_eq_true_eq] at h
  rcases h with rfl | rfl <;> decide

/-- A byte of base64 text is visible and no blank. -/
theorem visible_of_mem_encode {bytes : List UInt8} {b : UInt8} (h : b ∈ Base64.encode bytes) :
    isVisible b = true ∧ Text.isWhitespace (Char.ofNat b.toNat) = false := by
  have hall : Base64.textChars.all (fun c => isVisible c.toNat.toUInt8 &&
      !Text.isWhitespace (Char.ofNat c.toNat.toUInt8.toNat)) = true := by
    decide +kernel
  obtain ⟨c, hc, rfl⟩ := List.mem_map.mp h
  have hchar := List.all_eq_true.mp hall c (Base64.mem_textChars_of_mem_encodeChars bytes c hc)
  rw [Bool.and_eq_true, Bool.not_eq_true'] at hchar
  exact hchar

/-! ## The password -/

/-- The header of a user and a password, with blanks around the credentials. -/
def basicHeader (user password : String) (before after : List UInt8) : HeaderValue :=
  Text.bytes "Basic " ++ (before ++ (Base64.encode (Text.bytes (user ++ ":" ++ password)) ++ after))

theorem visible_basicHeader {user password : String} {before after : List UInt8}
    (hblank : ∀ b ∈ before ++ after, isBlank b = true) :
    ∀ b ∈ basicHeader user password before after, isVisible b = true := by
  have hbasic : ∀ b ∈ Text.bytes "Basic ", isVisible b = true := by decide +kernel
  intro b hb
  rcases List.mem_append.mp hb with hb | hb
  · exact hbasic b hb
  rcases List.mem_append.mp hb with hb | hb
  · exact visible_of_blank (hblank b (List.mem_append_left _ hb))
  rcases List.mem_append.mp hb with hb | hb
  · exact (visible_of_mem_encode hb).1
  · exact visible_of_blank (hblank b (List.mem_append_right _ hb))

theorem encode_credentials_ne_nil (user password : String) :
    Base64.encode (Text.bytes (user ++ ":" ++ password)) ≠ [] := by
  have hcolon : 0 < (Text.bytes (user ++ ":" ++ password)).length := by
    have hbytes : Text.bytes ":" = [58] := by decide +kernel
    rw [Text.bytes_append, Text.bytes_append, hbytes, List.length_append, List.length_append, List.length_singleton]
    omega
  have hlength := Base64.length_encode (Text.bytes (user ++ ":" ++ password))
  exact List.ne_nil_of_length_pos (by omega)

/-- The text of the credentials is what trimming leaves. -/
theorem trim_credentials {user password : String} {before after : List UInt8}
    (hblank : ∀ b ∈ before ++ after, isBlank b = true) :
    Text.bytes (Text.trim (String.ofList ((before ++ (Base64.encode (Text.bytes (user ++ ":" ++ password)) ++ after)).map
      fun b => Char.ofNat b.toNat))) = Base64.encode (Text.bytes (user ++ ":" ++ password)) := by
  have hwhite : ∀ l : List UInt8, (∀ b ∈ l, isBlank b = true) →
      ∀ c ∈ l.map fun b => Char.ofNat b.toNat, Text.isWhitespace c = true := by
    intro l hl c hc
    obtain ⟨b, hb, rfl⟩ := List.mem_map.mp hc
    exact whitespace_of_blank (hl b hb)
  have hbefore := hwhite before fun b hb => hblank b (List.mem_append_left _ hb)
  have hafter := hwhite after fun b hb => hblank b (List.mem_append_right _ hb)
  have hne := encode_credentials_ne_nil user password
  generalize hencoded : Base64.encode (Text.bytes (user ++ ":" ++ password)) = encoded at hne ⊢
  -- the text starts and ends with no white space
  have hvisible : ∀ b ∈ encoded, isVisible b = true ∧ Text.isWhitespace (Char.ofNat b.toNat) = false := by
    intro b hb
    rw [← hencoded] at hb
    exact visible_of_mem_encode hb
  have hhead : (encoded.map fun b => Char.ofNat b.toNat).head? = some (Char.ofNat (encoded.head hne).toNat) := by
    rw [List.head?_map, List.head?_eq_some_head hne, Option.map_some]
  have hend : (encoded.map fun b => Char.ofNat b.toNat).getLast? = some (Char.ofNat (encoded.getLast hne).toNat) := by
    rw [List.getLast?_map, List.getLast?_eq_some_getLast hne, Option.map_some]
  have htrim := Text.trim_of_padded hbefore hafter hhead (hvisible _ (List.head_mem hne)).2 hend
    (hvisible _ (List.getLast_mem hne)).2 (s := String.ofList ((before ++ (encoded ++ after)).map fun b => Char.ofNat b.toNat))
    (by rw [String.toList_ofList, List.map_append, List.map_append])
  rw [htrim]
  exact bytes_visible fun b hb => (hvisible b hb).1

/-- **The headers that are accepted are those of the password**: the base64 text of a user and the password, of which
only the blanks around it are free. -/
theorem checkBasicAuth_iff (admin : AdminPassword) (authorization : Option HeaderValue) :
    admin.checkBasicAuth authorization = true ↔ Text.trim admin.password ≠ "" ∧
      ∃ user before after, ':' ∉ user.toList ∧ (∀ b ∈ before ++ after, isBlank b = true) ∧
        authorization = some (basicHeader user admin.password before after) := by
  have henabled : admin.enabled = true ↔ Text.trim admin.password ≠ "" := bne_iff_ne
  unfold AdminPassword.checkBasicAuth
  rw [← henabled]
  constructor
  · intro h
    split at h
    · cases h
    · rename_i hdisabled
      rw [Bool.not_eq_true', Bool.not_eq_false] at hdisabled
      refine ⟨hdisabled, ?_⟩
      split at h
      · rename_i user password hread
        obtain rfl := beq_iff_eq.mp h
        simp only [Option.bind_eq_bind, Option.bind_eq_some_iff] at hread
        obtain ⟨value, rfl, raw, hraw, encoded, hencoded, decoded, hdecoded, text, htext, hsplit⟩ := hread
        obtain ⟨hvisible, hvalue⟩ := headerToStr_eq_some_iff.mp hraw
        obtain rfl := Text.stripPrefix_eq_some_iff.mp hencoded
        obtain rfl := stringFromUtf8_eq_some_iff.mp htext
        obtain ⟨huser, hcolon⟩ := Text.splitOnce_eq_some_iff.mp hsplit
        obtain ⟨left, right, hleft, hright, htrim⟩ := Text.exists_trim encoded
        have hcredentials : text = user ++ ":" ++ admin.password := by
          rw [← String.toList_inj, hcolon, String.toList_append, String.toList_append, List.append_assoc]
          rfl
        have hpadded : Text.bytes encoded = Text.bytes (String.ofList left) ++
            (Text.bytes (Text.trim encoded) ++ Text.bytes (String.ofList right)) := by
          simp only [Text.bytes, htrim, String.toList_ofList, List.flatMap_append, List.append_assoc]
        have hwhole : value = basicHeader user admin.password (Text.bytes (String.ofList left))
            (Text.bytes (String.ofList right)) := by
          rw [hvalue, Text.bytes_append, hpadded, Base64.decode_eq_some_iff.mp hdecoded, hcredentials, basicHeader]
        refine ⟨user, _, _, huser, ?_, congrArg some hwhole⟩
        -- the white space around the credentials was in the header
        have hblank : ∀ l : List Char, (∀ c ∈ l, Text.isWhitespace c = true) →
            (∀ b ∈ Text.bytes (String.ofList l), isVisible b = true) → ∀ b ∈ Text.bytes (String.ofList l), isBlank b = true := by
          intro l hl hseen b hb
          rw [Text.bytes, String.toList_ofList] at hb hseen
          obtain ⟨c, hc, hb⟩ := List.mem_flatMap.mp hb
          exact utf8EncodeChar_blank (hl c hc) (fun d hd => hseen d (List.mem_flatMap.mpr ⟨c, hc, hd⟩)) b hb
        rw [hwhole] at hvisible
        intro b hb
        rcases List.mem_append.mp hb with hb | hb
        · refine hblank left hleft (fun d hd => hvisible d ?_) b hb
          exact List.mem_append_right _ (List.mem_append_left _ hd)
        · refine hblank right hright (fun d hd => hvisible d ?_) b hb
          exact List.mem_append_right _ (List.mem_append_right _ (List.mem_append_right _ hd))
      · cases h
  · rintro ⟨hon, user, before, after, huser, hblank, rfl⟩
    have hvisible := @visible_basicHeader user admin.password before after hblank
    have hrest : ∀ b ∈ before ++ (Base64.encode (Text.bytes (user ++ ":" ++ admin.password)) ++ after), isVisible b = true :=
      fun b hb => hvisible b (List.mem_append_right _ hb)
    have hraw : headerToStr (basicHeader user admin.password before after) = some ("Basic " ++ String.ofList
        ((before ++ (Base64.encode (Text.bytes (user ++ ":" ++ admin.password)) ++ after)).map fun b => Char.ofNat b.toNat)) := by
      refine headerToStr_eq_some_iff.mpr ⟨hvisible, ?_⟩
      rw [Text.bytes_append, bytes_visible hrest, basicHeader]
    have hdecoded := Base64.decode_encode (Text.bytes (user ++ ":" ++ admin.password))
    rw [← @trim_credentials user admin.password before after hblank] at hdecoded
    have hsplit : Text.splitOnce ':' (user ++ ":" ++ admin.password) = some (user, admin.password) := by
      refine Text.splitOnce_eq_some_iff.mpr ⟨huser, ?_⟩
      rw [String.toList_append, String.toList_append, List.append_assoc]
      rfl
    simp only [hon, Bool.not_true, Bool.false_eq_true, if_false, Option.bind_eq_bind, Option.bind_some, hraw,
      Text.stripPrefix_eq_some_iff.mpr rfl, hdecoded, stringFromUtf8_eq_some_iff.mpr rfl, hsplit, beq_self_eq_true]

end GeminiWorker
