import GeminiWorker.Lib.Json
import GeminiWorker.Lib.TextSearch

/-!
# Base64

The standard alphabet with padding, and the encoding of a byte string that arrives in
pieces.

* `encode_append`: whole groups of three bytes are encoded on their own.
* `printString_encodeText`: base64 text needs no JSON escaping.
-/

namespace Base64

/-- The character of a sextet. -/
def alphabet (n : ℕ) : Char :=
  if n < 26 then Char.ofNat (65 + n)
  else if n < 52 then Char.ofNat (71 + n)
  else if n < 62 then Char.ofNat (n - 4)
  else if n = 62 then '+'
  else '/'

/-- The text of a byte string: four characters for each group of three bytes, a last
group of one or two bytes padded. -/
def encodeChars : List UInt8 → List Char
  | a :: b :: c :: rest =>
    alphabet (a.toNat / 4) :: alphabet (a.toNat % 4 * 16 + b.toNat / 16) ::
      alphabet (b.toNat % 16 * 4 + c.toNat / 64) :: alphabet (c.toNat % 64) :: encodeChars rest
  | [a, b] =>
    [alphabet (a.toNat / 4), alphabet (a.toNat % 4 * 16 + b.toNat / 16),
      alphabet (b.toNat % 16 * 4), '=']
  | [a] => [alphabet (a.toNat / 4), alphabet (a.toNat % 4 * 16), '=', '=']
  | [] => []

def encodeText (bytes : List UInt8) : String := String.ofList (encodeChars bytes)

/-- `STANDARD.encode`, as bytes. -/
def encode (bytes : List UInt8) : List UInt8 := (encodeChars bytes).map fun c => c.toNat.toUInt8

/-- `STANDARD.encode_slice` into a buffer of `capacity` bytes: nothing if it is too small. -/
def encodeSlice (bytes : List UInt8) (capacity : ℕ) : Option (List UInt8) :=
  if (encode bytes).length ≤ capacity then some (encode bytes) else none

@[simp] theorem encode_nil : encode [] = [] := by
  simp [encode, encodeChars]

theorem length_encode (bytes : List UInt8) :
    (encode bytes).length = (bytes.length + 2) / 3 * 4 := by
  unfold encode
  rw [List.length_map]
  induction bytes using encodeChars.induct with
  | case1 a b c rest ih => simp only [encodeChars, List.length_cons, ih]; omega
  | case2 | case3 | case4 => simp [encodeChars]

/-- **Whole groups of three bytes are encoded on their own.** -/
theorem encode_append {whole : List UInt8} (rest : List UInt8) (h : whole.length % 3 = 0) :
    encode (whole ++ rest) = encode whole ++ encode rest := by
  unfold encode
  rw [← List.map_append]
  congr 1
  induction whole using encodeChars.induct with
  | case1 a b c whole ih =>
    have hwhole : whole.length % 3 = 0 := by
      simp only [List.length_cons] at h
      omega
    simp only [List.cons_append, encodeChars, ih hwhole]
  | case2 a b => simp at h
  | case3 a => simp at h
  | case4 => rfl

/-- The characters of base64 text. -/
def textChars : List Char := '=' :: (List.range 64).map alphabet

theorem alphabet_mem_textChars {n : ℕ} (h : n < 64) : alphabet n ∈ textChars :=
  List.mem_cons_of_mem _ (List.mem_map_of_mem (List.mem_range.2 h))

theorem mem_textChars_of_mem_encodeChars (bytes : List UInt8) :
    ∀ c ∈ encodeChars bytes, c ∈ textChars := by
  have hpad : '=' ∈ textChars := List.mem_cons_self ..
  induction bytes using encodeChars.induct with
  | case1 a b c rest ih =>
    have ha := a.toNat_lt
    have hb := b.toNat_lt
    have hc := c.toNat_lt
    intro x hx
    simp only [encodeChars, List.mem_cons] at hx
    rcases hx with rfl | rfl | rfl | rfl | hx
    · exact alphabet_mem_textChars (by omega)
    · exact alphabet_mem_textChars (by omega)
    · exact alphabet_mem_textChars (by omega)
    · exact alphabet_mem_textChars (by omega)
    · exact ih x hx
  | case2 a b =>
    have ha := a.toNat_lt
    have hb := b.toNat_lt
    intro x hx
    simp only [encodeChars, List.mem_cons, List.not_mem_nil, or_false] at hx
    rcases hx with rfl | rfl | rfl | rfl
    · exact alphabet_mem_textChars (by omega)
    · exact alphabet_mem_textChars (by omega)
    · exact alphabet_mem_textChars (by omega)
    · exact hpad
  | case3 a =>
    have ha := a.toNat_lt
    intro x hx
    simp only [encodeChars, List.mem_cons, List.not_mem_nil, or_false] at hx
    rcases hx with rfl | rfl | rfl | rfl
    · exact alphabet_mem_textChars (by omega)
    · exact alphabet_mem_textChars (by omega)
    · exact hpad
    · exact hpad
  | case4 => intro x hx; cases hx

/-- A character of base64 text is printed as its one byte. -/
theorem printed_of_mem_textChars : ∀ c ∈ textChars,
    Json.escapeChar c = [c] ∧ String.utf8EncodeChar c = [c.toNat.toUInt8] := by
  have hall : textChars.all (fun c => Json.escapeChar c = [c] ∧ String.utf8EncodeChar c = [c.toNat.toUInt8]) = true := by
    decide +kernel
  exact fun c hc => of_decide_eq_true (List.all_eq_true.mp hall c hc)

theorem bytes_encodeText (bytes : List UInt8) : Text.bytes (encodeText bytes) = encode bytes := by
  have hone : ∀ c ∈ encodeChars bytes, String.utf8EncodeChar c = [c.toNat.toUInt8] := fun c hc =>
    (printed_of_mem_textChars c (mem_textChars_of_mem_encodeChars bytes c hc)).2
  unfold Text.bytes encodeText encode
  rw [String.toList_ofList, List.flatMap_congr hone, List.map_eq_flatMap]

/-- **Base64 text needs no JSON escaping.** -/
theorem printString_encodeText (bytes : List UInt8) :
    Json.printString (encodeText bytes) = Text.bytes "\"" ++ encode bytes ++ Text.bytes "\"" := by
  have hmem := mem_textChars_of_mem_encodeChars bytes
  unfold Json.printString encodeText encode Text.bytes
  simp only [String.toList_ofList]
  generalize encodeChars bytes = cs at *
  congr 2
  induction cs with
  | nil => rfl
  | cons c cs ih =>
    obtain ⟨hescape, hbyte⟩ := printed_of_mem_textChars c (hmem c (List.mem_cons_self ..))
    rw [List.flatMap_cons, hescape, List.map_cons, ← ih fun d hd => hmem d (List.mem_cons_of_mem _ hd)]
    simp [hbyte]

theorem isWhitespace_of_mem_textChars : ∀ c ∈ textChars, Text.isWhitespace c = false := by
  have hall : textChars.all (fun c => !Text.isWhitespace c) = true := by decide +kernel
  intro c hc
  have hblank := List.all_eq_true.mp hall c hc
  rwa [Bool.not_eq_true'] at hblank

theorem trim_encodeText_ne_empty {bytes : List UInt8} (h : bytes ≠ []) : Text.trim (encodeText bytes) ≠ "" := by
  obtain ⟨c, hc⟩ : ∃ c, c ∈ encodeChars bytes := by
    apply List.exists_mem_of_ne_nil
    intro hnil
    have hlength := length_encode bytes
    have hpos := List.length_pos_of_ne_nil h
    rw [encode, hnil, List.map_nil, List.length_nil] at hlength
    omega
  refine Text.trim_ne_empty ?_ (isWhitespace_of_mem_textChars c (mem_textChars_of_mem_encodeChars bytes c hc))
  rwa [encodeText, String.toList_ofList]

/-- Base64 text is no URL. -/
theorem colon_notMem_textChars : ':' ∉ textChars := by
  decide +kernel

end Base64
