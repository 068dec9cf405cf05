import GeminiWorker.Lib.Text

/-!
# `application/x-www-form-urlencoded`

Serializing a name or a value byte by byte, and the pairs of a query.

* `decode_serialize`: what is serialized is read back.
* `parse_serializePairs`: so are the pairs of a query, in their order.
-/

namespace FormUrlencoded

def hexDigit (n : ℕ) : UInt8 := UInt8.ofNat (if n < 10 then 48 + n else 55 + n)

/-- `percent_encode_byte`. -/
def percentEncodeByte (b : UInt8) : List UInt8 := [37, hexDigit (b.toNat / 16), hexDigit (b.toNat % 16)]

/-- `byte_serialized_unchanged`: `*`, `-`, `.`, `_`, letters and digits. -/
def unchanged (b : UInt8) : Bool :=
  b == 42 || b == 45 || b == 46 || (48 ≤ b && b ≤ 57) || (65 ≤ b && b ≤ 90) || b == 95 ||
    (97 ≤ b && b ≤ 122)

def serializeByte (b : UInt8) : List UInt8 :=
  if unchanged b then [b] else if b = 32 then [43] else percentEncodeByte b

/-- `byte_serialize`. -/
def serialize (bytes : List UInt8) : List UInt8 := bytes.flatMap serializeByte

/-- The value of a digit of either case. -/
def hexValue (b : UInt8) : Option ℕ :=
  if 48 ≤ b ∧ b ≤ 57 then some (b.toNat - 48)
  else if 65 ≤ b ∧ b ≤ 70 then some (b.toNat - 55)
  else if 97 ≤ b ∧ b ≤ 102 then some (b.toNat - 87)
  else none

/-- `after_percent_sign`: the byte that two digits stand for. -/
def afterPercentSign (high low : UInt8) : Option UInt8 := do
  let high ← hexValue high
  let low ← hexValue low
  return UInt8.ofNat (high * 16 + low)

/-- `percent_decode`: a percent sign without two digits stays. -/
def percentDecode : List UInt8 → List UInt8
  | [] => []
  | 37 :: high :: low :: rest =>
    match afterPercentSign high low with
    | some b => b :: percentDecode rest
    | none => 37 :: percentDecode (high :: low :: rest)
  | b :: rest => b :: percentDecode rest

def plusToSpace (b : UInt8) : UInt8 := if b = 43 then 32 else b

def decode (bytes : List UInt8) : String := Text.fromUtf8Lossy (percentDecode (bytes.map plusToSpace))

/-- A sequence between two `&`; what has no `=` is a name. -/
def parsePair (sequence : List UInt8) : String × String :=
  (decode (sequence.takeWhile (· != 61)), decode ((sequence.dropWhile (· != 61)).drop 1))

/-- `form_urlencoded::parse`; empty sequences are skipped. -/
def parse (query : List UInt8) : List (String × String) :=
  ((query.splitOn 38).filter fun sequence => !sequence.isEmpty).map parsePair

/-- `Serializer::append_pair`. -/
def appendPair (target : List UInt8) (pair : String × String) : List UInt8 :=
  target ++ (if target.isEmpty then [] else [38]) ++ serialize (Text.bytes pair.1) ++ [61] ++
    serialize (Text.bytes pair.2)

def serializePairs (pairs : List (String × String)) : List UInt8 := pairs.foldl appendPair []

example : parse (Text.bytes "a=b+c&&output=url&%41=%zz") =
    [("a", "b c"), ("output", "url"), ("A", "%zz")] := by
  decide +kernel

/-! ## A name or a value -/

/-- A statement about all bytes is checked byte by byte. -/
theorem forall_byte {P : UInt8 → Prop} (h : ∀ n < 256, P (UInt8.ofNat n)) (b : UInt8) : P b := by
  have hb := h b.toNat b.toNat_lt
  rwa [UInt8.ofNat_toNat] at hb

theorem serializeByte_ne : ∀ b : UInt8, ∀ c ∈ serializeByte b, c ≠ 38 ∧ c ≠ 61 := by
  have hall : ∀ b : UInt8, (serializeByte b).all (fun c => c ≠ 38 ∧ c ≠ 61) = true := by
    intro b
    apply forall_byte _ b
    decide +kernel
  exact fun b c hc => of_decide_eq_true (List.all_eq_true.mp (hall b) c hc)

/-- No serialized byte is a separator. -/
theorem ne_of_mem_serialize {bytes : List UInt8} {c : UInt8} (hc : c ∈ serialize bytes) : c ≠ 38 ∧ c ≠ 61 := by
  obtain ⟨b, -, hb⟩ := List.mem_flatMap.mp hc
  exact serializeByte_ne b c hb

/-- The three forms of a serialized byte. -/
theorem serializeByte_cases (b : UInt8) :
    serializeByte b = [b] ∧ b ≠ 37 ∧ b ≠ 43 ∨ serializeByte b = [43] ∧ b = 32 ∨
      ∃ high low, serializeByte b = [37, high, low] ∧ high ≠ 43 ∧ low ≠ 43 ∧
        afterPercentSign high low = some b := by
  have hall : ∀ b : UInt8, (serializeByte b = [b] ∧ b ≠ 37 ∧ b ≠ 43 ∨ serializeByte b = [43] ∧ b = 32) ∨
      (serializeByte b = percentEncodeByte b ∧ hexDigit (b.toNat / 16) ≠ 43 ∧ hexDigit (b.toNat % 16) ≠ 43 ∧
        afterPercentSign (hexDigit (b.toNat / 16)) (hexDigit (b.toNat % 16)) = some b) := by
    intro b
    apply forall_byte _ b
    decide +kernel
  rcases hall b with (h | h) | ⟨hbyte, hhigh, hlow, hvalue⟩
  · exact Or.inl h
  · exact Or.inr (Or.inl h)
  · exact Or.inr (Or.inr ⟨_, _, hbyte, hhigh, hlow, hvalue⟩)

theorem percentDecode_cons {b : UInt8} (hb : b ≠ 37) (rest : List UInt8) :
    percentDecode (b :: rest) = b :: percentDecode rest := by
  rw [percentDecode]
  intro _ _ _ h
  exact absurd h hb

theorem percentDecode_serialize (bytes : List UInt8) :
    percentDecode ((serialize bytes).map plusToSpace) = bytes := by
  induction bytes with
  | nil => rfl
  | cons b bytes ih =>
    unfold serialize at ih ⊢
    rw [List.flatMap_cons, List.map_append]
    rcases serializeByte_cases b with ⟨hbyte, h37, h43⟩ | ⟨hbyte, hspace⟩ | ⟨high, low, hbyte, hhigh, hlow, hvalue⟩
    · rw [hbyte, List.map_singleton, plusToSpace, if_neg h43, List.singleton_append, percentDecode_cons h37, ih]
    · rw [hbyte, List.map_singleton, plusToSpace, if_pos rfl, List.singleton_append,
        percentDecode_cons (by decide), ih, hspace]
    · have h37 : plusToSpace 37 = 37 := by decide
      rw [hbyte, List.map_cons, List.map_cons, List.map_singleton, h37, plusToSpace, if_neg hhigh, plusToSpace,
        if_neg hlow, List.cons_append, List.cons_append, List.singleton_append, percentDecode, hvalue]
      dsimp only
      rw [ih]

/-- **What is serialized is read back.** -/
theorem decode_serialize (text : String) : decode (serialize (Text.bytes text)) = text := by
  rw [decode, percentDecode_serialize, Text.fromUtf8Lossy_bytes]

/-! ## Pairs -/

/-- One pair, without a separator before it. -/
def sequence (pair : String × String) : List UInt8 :=
  serialize (Text.bytes pair.1) ++ 61 :: serialize (Text.bytes pair.2)

theorem parsePair_sequence (pair : String × String) : parsePair (sequence pair) = pair := by
  have hname : ∀ c ∈ serialize (Text.bytes pair.1), (c != 61) = true := fun c hc =>
    bne_iff_ne.mpr (ne_of_mem_serialize hc).2
  have htake : (sequence pair).takeWhile (· != 61) = serialize (Text.bytes pair.1) := by
    rw [sequence, List.takeWhile_append_of_pos hname]
    simp
  have hdrop : (sequence pair).dropWhile (· != 61) = 61 :: serialize (Text.bytes pair.2) := by
    rw [sequence, List.dropWhile_append_of_pos hname]
    rfl
  rw [parsePair, htake, hdrop, List.drop_one, List.tail_cons, decode_serialize, decode_serialize]

theorem sequence_ne_nil (pair : String × String) : sequence pair ≠ [] :=
  List.append_ne_nil_of_right_ne_nil _ (List.cons_ne_nil _ _)

theorem ne_of_mem_sequence {pair : String × String} {c : UInt8} (hc : c ∈ sequence pair) : c ≠ 38 := by
  rcases List.mem_append.mp hc with hc | hc
  · exact (ne_of_mem_serialize hc).1
  · rcases List.mem_cons.mp hc with rfl | hc
    · decide
    · exact (ne_of_mem_serialize hc).1

theorem appendPair_eq (target : List UInt8) (pair : String × String) :
    appendPair target pair = target ++ (if target.isEmpty then [] else [38]) ++ sequence pair := by
  simp only [appendPair, sequence, List.append_assoc, List.singleton_append]

theorem foldl_appendPair (pairs : List (String × String)) {target : List UInt8} (htarget : target ≠ []) :
    pairs.foldl appendPair target = [38].intercalate (target :: pairs.map sequence) := by
  induction pairs generalizing target with
  | nil => rw [List.foldl_nil, List.map_nil, List.intercalate_singleton]
  | cons pair pairs ih =>
    have hempty : target.isEmpty = false := List.isEmpty_eq_false_iff.mpr htarget
    have hne : target ++ [38] ++ sequence pair ≠ [] := List.append_ne_nil_of_right_ne_nil _ (sequence_ne_nil pair)
    rw [List.foldl_cons, appendPair_eq, hempty, if_neg Bool.false_ne_true, ih hne, List.map_cons]
    rcases pairs.map sequence with _ | ⟨s, rest⟩
    · simp only [List.intercalate_cons_cons, List.intercalate_singleton, List.append_assoc]
    · simp only [List.intercalate_cons_cons, List.append_assoc]

/-- The serialized pairs are their sequences, with `&` between them. -/
theorem serializePairs_eq (pairs : List (String × String)) :
    serializePairs pairs = [38].intercalate (pairs.map sequence) := by
  rcases pairs with _ | ⟨pair, pairs⟩
  · rfl
  · have hfirst : appendPair [] pair = sequence pair := by
      rw [appendPair_eq]
      rfl
    rw [serializePairs, List.foldl_cons, hfirst, foldl_appendPair pairs (sequence_ne_nil pair), List.map_cons]

/-- **The pairs of a query are read back in their order.** -/
theorem parse_serializePairs (pairs : List (String × String)) : parse (serializePairs pairs) = pairs := by
  by_cases hpairs : pairs = []
  · subst hpairs
    rfl
  · have hsep : ∀ s ∈ pairs.map sequence, 38 ∉ s := by
      intro s hs hmem
      obtain ⟨pair, -, rfl⟩ := List.mem_map.mp hs
      exact ne_of_mem_sequence hmem rfl
    have hkept : ∀ s ∈ pairs.map sequence, (!s.isEmpty) = true := by
      intro s hs
      obtain ⟨pair, -, rfl⟩ := List.mem_map.mp hs
      rw [List.isEmpty_eq_false_iff.mpr (sequence_ne_nil pair)]
      rfl
    rw [parse, serializePairs_eq, List.splitOn_intercalate 38 hsep (by simpa using hpairs),
      List.filter_eq_self.mpr hkept, List.map_map]
    calc pairs.map (parsePair ∘ sequence) = pairs.map id := List.map_congr_left fun pair _ => parsePair_sequence pair
      _ = pairs := List.map_id pairs

end FormUrlencoded
