import GeminiWorker.Lib.Json

/-!
# Reading JSON

The reading of a JSON text.

* `Document`: the values a JSON library can hold.
* `readString_textString`, `readValue_number`: how a printed string and a number are read.
* `parse_wellFormed`: what is read is a document.
-/

namespace Json

/-! ## The reader -/

def isSpace (c : Char) : Bool := c = ' ' || c = '\t' || c = '\n' || c = '\r'

def skipSpace (cs : List Char) : List Char := cs.dropWhile isSpace

def hexVal (c : Char) : Option ℕ :=
  if '0' ≤ c ∧ c ≤ '9' then some (c.toNat - 48)
  else if 'a' ≤ c ∧ c ≤ 'f' then some (c.toNat - 87)
  else if 'A' ≤ c ∧ c ≤ 'F' then some (c.toNat - 55)
  else none

def hex4 : List Char → Option (ℕ × List Char)
  | a :: b :: c :: d :: cs => do
    let a ← hexVal a
    let b ← hexVal b
    let c ← hexVal c
    let d ← hexVal d
    return (a * 4096 + b * 256 + c * 16 + d, cs)
  | _ => none

/-- The code point after `\u`; a high surrogate is followed by a low one. -/
def readUnicode (cs : List Char) : Option (Char × List Char) := do
  let (n, cs) ← hex4 cs
  if 0xD800 ≤ n ∧ n < 0xDC00 then
    match cs with
    | '\\' :: 'u' :: cs => do
      let (m, cs) ← hex4 cs
      if 0xDC00 ≤ m ∧ m < 0xE000 then
        return (Char.ofNat (0x10000 + (n - 0xD800) * 0x400 + (m - 0xDC00)), cs)
      else none
    | _ => none
  else if 0xDC00 ≤ n ∧ n < 0xE000 then none
  else return (Char.ofNat n, cs)

/-- One character of a string, escaped or not. -/
def readChar : List Char → Option (Char × List Char)
  | '\\' :: e :: cs => match e with
    | '"' => some ('"', cs)
    | '\\' => some ('\\', cs)
    | '/' => some ('/', cs)
    | 'b' => some ('\x08', cs)
    | 'f' => some ('\x0C', cs)
    | 'n' => some ('\n', cs)
    | 'r' => some ('\r', cs)
    | 't' => some ('\t', cs)
    | 'u' => readUnicode cs
    | _ => none
  | c :: cs => if c.toNat < 32 || c = '\\' then none else some (c, cs)
  | [] => none

/-- The rest of a string after its opening quote. -/
def readString : ℕ → List Char → Option (List Char × List Char)
  | 0, _ => none
  | fuel + 1, cs =>
    match cs with
    | '"' :: cs => some ([], cs)
    | cs => do
      let (c, cs) ← readChar cs
      let (s, cs) ← readString fuel cs
      return (c :: s, cs)

def isNumberChar (c : Char) : Bool :=
  c.isDigit || c = '-' || c = '+' || c = '.' || c = 'e' || c = 'E'

/-- An optional exponent. -/
def isExponent : List Char → Bool
  | [] => true
  | c :: cs => (c = 'e' || c = 'E') &&
      match cs with
      | '+' :: ds | '-' :: ds => !ds.isEmpty && ds.all Char.isDigit
      | ds => !ds.isEmpty && ds.all Char.isDigit

/-- An optional fraction and an optional exponent. -/
def isFraction : List Char → Bool
  | '.' :: cs => !(cs.takeWhile Char.isDigit).isEmpty && isExponent (cs.dropWhile Char.isDigit)
  | cs => isExponent cs

/-- Digits without a leading zero, then a fraction and an exponent. -/
def isUnsigned (cs : List Char) : Bool :=
  let int := cs.takeWhile Char.isDigit
  !int.isEmpty && (int.head? != some '0' || int.length == 1) &&
    isFraction (cs.dropWhile Char.isDigit)

/-- The spelling of a JSON number. -/
def isNumber (cs : List Char) : Bool :=
  cs.all isNumberChar && match cs with
    | '-' :: cs => isUnsigned cs
    | cs => isUnsigned cs

mutual
def readValue : ℕ → List Char → Option (Value × List Char)
  | 0, _ => none
  | fuel + 1, cs =>
    match skipSpace cs with
    | 'n' :: 'u' :: 'l' :: 'l' :: cs => some (.null, cs)
    | 't' :: 'r' :: 'u' :: 'e' :: cs => some (.bool true, cs)
    | 'f' :: 'a' :: 'l' :: 's' :: 'e' :: cs => some (.bool false, cs)
    | '"' :: cs => do
      let (s, cs) ← readString (cs.length + 1) cs
      return (.string (String.ofList s), cs)
    | '[' :: cs => do
      let (items, cs) ← readItems fuel true cs
      return (.array items, cs)
    | '\x7b' :: cs => do
      let (members, cs) ← readMembers fuel true [] cs
      return (.object members, cs)
    | cs =>
      let number := cs.takeWhile isNumberChar
      if isNumber number then some (.number (String.ofList number), cs.dropWhile isNumberChar)
      else none
/-- The items of an array up to its closing bracket. -/
def readItems : ℕ → Bool → List Char → Option (List Value × List Char)
  | 0, _, _ => none
  | fuel + 1, first, cs =>
    match first, skipSpace cs with
    | _, ']' :: cs => some ([], cs)
    | true, cs => readItem fuel cs
    | false, ',' :: cs => readItem fuel cs
    | false, _ => none
/-- One item and the rest of the array. -/
def readItem : ℕ → List Char → Option (List Value × List Char)
  | 0, _ => none
  | fuel + 1, cs => do
    let (v, cs) ← readValue fuel cs
    let (items, cs) ← readItems fuel false cs
    return (v :: items, cs)
/-- The members of an object up to its closing brace, added to those before. A repeated
key keeps its place and takes the later value. -/
def readMembers : ℕ → Bool → Map → List Char → Option (Map × List Char)
  | 0, _, _, _ => none
  | fuel + 1, first, members, cs =>
    match first, skipSpace cs with
    | _, '\x7d' :: cs => some (members, cs)
    | true, cs => readMember fuel members cs
    | false, ',' :: cs => readMember fuel members cs
    | false, _ => none
/-- One member and the rest of the object. -/
def readMember : ℕ → Map → List Char → Option (Map × List Char)
  | 0, _, _ => none
  | fuel + 1, members, cs =>
    match skipSpace cs with
    | '"' :: cs => do
      let (key, cs) ← readString (cs.length + 1) cs
      match skipSpace cs with
      | ':' :: cs => do
        let (v, cs) ← readValue fuel cs
        readMembers fuel false (members.insert (String.ofList key) v) cs
      | _ => none
    | _ => none
end

/-- The value of a JSON text. -/
def parseText (cs : List Char) : Option Value := do
  let (v, cs) ← readValue (2 * cs.length + 1) cs
  if skipSpace cs = [] then some v else none

/-- The value of a byte string that holds a JSON text. -/
def parse (bytes : List UInt8) : Option Value :=
  bytes.toByteArray.utf8Decode?.bind fun cs => parseText cs.toList

/-- The characters of a string as it is printed. -/
def textString (s : String) : List Char := '"' :: (s.toList.flatMap escapeChar ++ ['"'])

/-! ## Reading what was printed -/

theorem skipSpace_cons {c : Char} (h : isSpace c = false) (cs : List Char) :
    skipSpace (c :: cs) = c :: cs := by
  unfold skipSpace
  rw [List.dropWhile_cons, h]
  rfl

theorem hexVal_hexDigit : ∀ n < 16, hexVal (hexDigit n) = some n := by
  decide

theorem readChar_escapeChar (c : Char) (rest : List Char) :
    readChar (escapeChar c ++ rest) = some (c, rest) := by
  unfold escapeChar
  split
  · rfl
  · rfl
  · rfl
  · rfl
  · rfl
  · rfl
  · rfl
  · split
    · rename_i hlow
      have hhigh := hexVal_hexDigit (c.toNat / 16) (by omega)
      have hdigit := hexVal_hexDigit (c.toNat % 16) (by omega)
      have hzero : hexVal '0' = some 0 := by decide
      have hcode : 0 * 4096 + 0 * 256 + c.toNat / 16 * 16 + c.toNat % 16 = c.toNat := by omega
      simp only [List.cons_append, List.nil_append, readChar, readUnicode, hex4, hzero, hhigh, hdigit,
        bind, Option.bind, pure, hcode]
      rw [if_neg (by omega), if_neg (by omega), Char.ofNat_toNat]
    · rename_i hslash _ _ _ _ _ hlow
      simp only [List.cons_append, List.nil_append]
      unfold readChar
      split
      · rename_i h
        exact absurd (List.cons.inj h).1 hslash
      · rename_i h
        obtain ⟨rfl, rfl⟩ := List.cons.inj h
        rw [if_neg]
        simp only [Bool.or_eq_true, decide_eq_true_eq, not_or]
        exact ⟨hlow, fun hc => hslash hc⟩
      · rename_i h
        cases h

/-- Every escaped character takes at least one, and none is a bare quote. -/
theorem escapeChar_ne_quote (c : Char) : ∃ d ds, escapeChar c = d :: ds ∧ d ≠ '"' := by
  unfold escapeChar
  split
  · exact ⟨_, _, rfl, by decide⟩
  · exact ⟨_, _, rfl, by decide⟩
  · exact ⟨_, _, rfl, by decide⟩
  · exact ⟨_, _, rfl, by decide⟩
  · exact ⟨_, _, rfl, by decide⟩
  · exact ⟨_, _, rfl, by decide⟩
  · exact ⟨_, _, rfl, by decide⟩
  · rename_i hquote _ _ _ _ _ _
    split
    · exact ⟨_, _, rfl, by decide⟩
    · exact ⟨_, _, rfl, hquote⟩

theorem readString_escape (cs rest : List Char) :
    ∀ fuel, cs.length < fuel →
      readString fuel (cs.flatMap escapeChar ++ '"' :: rest) = some (cs, rest) := by
  induction cs with
  | nil =>
    intro fuel hfuel
    obtain ⟨fuel, rfl⟩ : ∃ n, fuel = n + 1 := ⟨fuel - 1, by simp at hfuel; omega⟩
    rfl
  | cons c cs ih =>
    intro fuel hfuel
    rw [List.length_cons] at hfuel
    obtain ⟨fuel, rfl⟩ : ∃ n, fuel = n + 1 := ⟨fuel - 1, by omega⟩
    have hchar := readChar_escapeChar c (cs.flatMap escapeChar ++ '"' :: rest)
    obtain ⟨d, ds, hesc, hd⟩ := escapeChar_ne_quote c
    rw [List.flatMap_cons, List.append_assoc]
    rw [hesc] at hchar ⊢
    unfold readString
    split
    · rename_i h
      exact absurd (List.cons.inj h).1 hd
    · rw [hchar]
      simp [ih fuel (by omega)]

theorem length_le_escape (cs : List Char) : cs.length ≤ (cs.flatMap escapeChar).length := by
  induction cs with
  | nil => simp
  | cons c cs ih =>
    obtain ⟨d, ds, hesc, -⟩ := escapeChar_ne_quote c
    rw [List.flatMap_cons, hesc]
    simp only [List.length_cons, List.length_append]
    omega

/-- A printed string is read back up to its closing quote. -/
theorem readString_textString (s : String) (rest : List Char) :
    ∃ cs, textString s ++ rest = '"' :: cs ∧ readString (cs.length + 1) cs = some (s.toList, rest) := by
  refine ⟨s.toList.flatMap escapeChar ++ '"' :: rest, by simp [textString], ?_⟩
  apply readString_escape
  have := length_le_escape s.toList
  simp only [List.length_append]
  omega

theorem isNumber_ne_nil {cs : List Char} (h : isNumber cs = true) : cs ≠ [] := by
  rintro rfl
  revert h
  decide

theorem all_isNumberChar {cs : List Char} (h : isNumber cs = true) :
    ∀ c ∈ cs, isNumberChar c = true := by
  unfold isNumber at h
  exact List.all_eq_true.1 (Bool.and_eq_true_iff.1 h).1

namespace Value

mutual
/-- Every number is spelled as JSON spells numbers. -/
def Numeric : Value → Prop
  | .number spelling => isNumber spelling.toList = true
  | .array items => NumericItems items
  | .object members => NumericMembers members
  | _ => True
def NumericItems : List Value → Prop
  | [] => True
  | v :: vs => Numeric v ∧ NumericItems vs
def NumericMembers : List (String × Value) → Prop
  | [] => True
  | (_, v) :: ms => Numeric v ∧ NumericMembers ms
end

@[simp] theorem numeric_array {items : List Value} :
    Numeric (.array items) ↔ ∀ v ∈ items, Numeric v := by
  have h : NumericItems items ↔ ∀ v ∈ items, Numeric v := by
    induction items with
    | nil => simp [NumericItems]
    | cons v vs ih => simp [NumericItems, ih]
  exact h

@[simp] theorem numeric_object {members : Map} :
    Numeric (.object members) ↔ ∀ m ∈ members, Numeric m.2 := by
  have h : NumericMembers members ↔ ∀ m ∈ members, Numeric m.2 := by
    induction members with
    | nil => simp [NumericMembers]
    | cons m ms ih => simp [NumericMembers, ih]
  exact h

@[simp] theorem numeric_string (s : String) : Numeric (.string s) := trivial

theorem Numeric.modifyChild {v : Value} (hv : v.Numeric) {f : Value → Value}
    (hf : ∀ w : Value, w.Numeric → (f w).Numeric) (token : String) :
    (v.modifyChild token f).Numeric := by
  cases v with
  | object members =>
    rw [numeric_object] at hv
    refine numeric_object.2 fun e he => ?_
    obtain ⟨m, hm, h | h⟩ := mem_members_modify he
    · rw [h]; exact hv m hm
    · rw [h]; exact hf _ (hv m hm)
  | array items =>
    unfold Value.modifyChild
    dsimp only
    split
    · rw [numeric_array] at hv ⊢
      intro w hw
      obtain ⟨u, hu, rfl | rfl⟩ := mem_items_modify hw
      · exact hv _ hu
      · exact hf _ (hv _ hu)
    · exact hv
  | null | bool | number | string => exact hv

end Value

/-- A value as a JSON library holds it: no object repeats a key, and numbers are numbers. -/
abbrev Document := {v : Value // v.Distinct ∧ v.Numeric}

/-- What may follow a value: nothing that would extend a number. -/
def Ends (rest : List Char) : Prop := ∀ c ∈ rest.head?, isNumberChar c = false

theorem isSpace_of_isNumberChar {c : Char} (h : isNumberChar c = true) : isSpace c = false := by
  by_contra hspace
  rw [Bool.not_eq_false] at hspace
  unfold isSpace at hspace
  simp only [Bool.or_eq_true, decide_eq_true_eq] at hspace
  rcases hspace with ((rfl | rfl) | rfl) | rfl <;> revert h <;> decide

theorem readValue_number {spelling : String} (h : isNumber spelling.toList = true)
    {rest : List Char} (hrest : Ends rest) (fuel : ℕ) :
    readValue (fuel + 1) (spelling.toList ++ rest) = some (.number spelling, rest) := by
  have hall := all_isNumberChar h
  have htake : (spelling.toList ++ rest).takeWhile isNumberChar = spelling.toList := by
    rw [List.takeWhile_append_of_pos hall]
    cases rest with
    | nil => simp
    | cons c rest => simp [hrest c rfl]
  have hdrop : (spelling.toList ++ rest).dropWhile isNumberChar = rest := by
    rw [List.dropWhile_append_of_pos hall]
    cases rest with
    | nil => simp
    | cons c rest => simp [hrest c rfl]
  obtain ⟨c, cs, hcs⟩ := List.exists_cons_of_ne_nil (isNumber_ne_nil h)
  have hc : isNumberChar c = true := hall c (by simp [hcs])
  have hskip : skipSpace (spelling.toList ++ rest) = spelling.toList ++ rest := by
    rw [hcs]
    exact skipSpace_cons (isSpace_of_isNumberChar hc) _
  unfold readValue
  rw [hskip]
  -- a number starts with none of the characters of the other values
  have hhead : ∀ {d : Char} {ds : List Char}, spelling.toList ++ rest = d :: ds → d = c := by
    intro d ds hds
    rw [hcs] at hds
    exact (List.cons.inj hds).1.symm
  split
  · rename_i heq; rw [← hhead heq] at hc; exact absurd hc (by decide)
  · rename_i heq; rw [← hhead heq] at hc; exact absurd hc (by decide)
  · rename_i heq; rw [← hhead heq] at hc; exact absurd hc (by decide)
  · rename_i heq; rw [← hhead heq] at hc; exact absurd hc (by decide)
  · rename_i heq; rw [← hhead heq] at hc; exact absurd hc (by decide)
  · rename_i heq; rw [← hhead heq] at hc; exact absurd hc (by decide)
  · dsimp only
    rw [htake, hdrop, if_pos h, String.ofList_toList]

/-! ## What is read -/

/-- A value that a document may be. -/
def Value.WellFormed (v : Value) : Prop := v.Distinct ∧ v.Numeric

namespace Value

theorem wellFormed_array {items : List Value} (h : ∀ v ∈ items, v.WellFormed) :
    (Value.array items).WellFormed :=
  ⟨distinct_array.2 fun v hv => (h v hv).1, numeric_array.2 fun v hv => (h v hv).2⟩

theorem WellFormed.insert {members : Map} (h : (Value.object members).WellFormed) {v : Value}
    (hv : v.WellFormed) (key : String) : (Value.object (members.insert key v)).WellFormed := by
  refine ⟨h.1.insert hv.1 key, numeric_object.2 fun m hm => ?_⟩
  rcases Map.mem_insert hm with rfl | hm
  · exact hv.2
  · exact numeric_object.1 h.2 m hm

theorem WellFormed.get {members : Map} (h : (Value.object members).WellFormed) {key : String}
    {v : Value} (hget : Map.get members key = some v) : v.WellFormed :=
  ⟨h.1.get hget, numeric_object.1 h.2 _ (Map.mem_of_get hget)⟩

end Value

/-- The readers return well-formed values, with any fuel. -/
structure ReadsWellFormed (fuel : ℕ) : Prop where
  value : ∀ {cs v rest}, readValue fuel cs = some (v, rest) → v.WellFormed
  items : ∀ {first cs items rest}, readItems fuel first cs = some (items, rest) →
    ∀ v ∈ items, v.WellFormed
  item : ∀ {cs items rest}, readItem fuel cs = some (items, rest) → ∀ v ∈ items, v.WellFormed
  members : ∀ {first members cs members' rest}, (Value.object members).WellFormed →
    readMembers fuel first members cs = some (members', rest) → (Value.object members').WellFormed
  member : ∀ {members cs members' rest}, (Value.object members).WellFormed →
    readMember fuel members cs = some (members', rest) → (Value.object members').WellFormed

theorem readValue_wellFormed {fuel : ℕ} (ih : ReadsWellFormed fuel) {cs : List Char} {v : Value}
    {rest : List Char} (h : readValue (fuel + 1) cs = some (v, rest)) : v.WellFormed := by
  unfold readValue at h
  split at h
  · obtain ⟨rfl, -⟩ := Prod.mk.inj (Option.some.inj h)
    exact ⟨trivial, trivial⟩
  · obtain ⟨rfl, -⟩ := Prod.mk.inj (Option.some.inj h)
    exact ⟨trivial, trivial⟩
  · obtain ⟨rfl, -⟩ := Prod.mk.inj (Option.some.inj h)
    exact ⟨trivial, trivial⟩
  · obtain ⟨⟨s, cs'⟩, -, h⟩ := Option.bind_eq_some_iff.1 h
    obtain ⟨rfl, -⟩ := Prod.mk.inj (Option.some.inj h)
    exact ⟨trivial, trivial⟩
  · obtain ⟨⟨items, cs'⟩, hitems, h⟩ := Option.bind_eq_some_iff.1 h
    obtain ⟨rfl, -⟩ := Prod.mk.inj (Option.some.inj h)
    exact Value.wellFormed_array (ih.items hitems)
  · obtain ⟨⟨members, cs'⟩, hmembers, h⟩ := Option.bind_eq_some_iff.1 h
    obtain ⟨rfl, -⟩ := Prod.mk.inj (Option.some.inj h)
    have hempty : (Value.object []).WellFormed := by
      refine ⟨Value.distinct_object.2 ?_, Value.numeric_object.2 (by simp)⟩
      simp [Map.keys]
    exact ih.members hempty hmembers
  · dsimp only at h
    split at h
    · rename_i hnumber
      obtain ⟨rfl, -⟩ := Prod.mk.inj (Option.some.inj h)
      refine ⟨trivial, ?_⟩
      unfold Value.Numeric
      rw [String.toList_ofList]
      exact hnumber
    · cases h

theorem readsWellFormed (fuel : ℕ) : ReadsWellFormed fuel := by
  induction fuel with
  | zero =>
    refine ⟨fun h => ?_, fun h => ?_, fun h => ?_, fun _ h => ?_, fun _ h => ?_⟩
    · cases h
    · cases h
    · cases h
    · cases h
    · cases h
  | succ fuel ih =>
    refine ⟨readValue_wellFormed ih, fun h => ?_, fun h => ?_, fun hmembers h => ?_, fun hmembers h => ?_⟩
    · unfold readItems at h
      split at h
      · obtain ⟨rfl, -⟩ := Prod.mk.inj (Option.some.inj h)
        simp
      · exact ih.item h
      · exact ih.item h
      · cases h
    · unfold readItem at h
      obtain ⟨⟨v, cs'⟩, hv, h⟩ := Option.bind_eq_some_iff.1 h
      obtain ⟨⟨items, cs''⟩, hitems, h⟩ := Option.bind_eq_some_iff.1 h
      obtain ⟨rfl, -⟩ := Prod.mk.inj (Option.some.inj h)
      exact List.forall_mem_cons.2 ⟨ih.value hv, ih.items hitems⟩
    · unfold readMembers at h
      split at h
      · obtain ⟨rfl, -⟩ := Prod.mk.inj (Option.some.inj h)
        exact hmembers
      · exact ih.member hmembers h
      · exact ih.member hmembers h
      · cases h
    · unfold readMember at h
      split at h
      · obtain ⟨⟨key, cs'⟩, -, h⟩ := Option.bind_eq_some_iff.1 h
        dsimp only at h
        split at h
        · obtain ⟨⟨v, cs''⟩, hv, h⟩ := Option.bind_eq_some_iff.1 h
          exact ih.members (hmembers.insert (ih.value hv) _) h
        · cases h
      · cases h

/-- **What is read is well formed.** -/
theorem parse_wellFormed {bytes : List UInt8} {v : Value} (h : parse bytes = some v) :
    v.WellFormed := by
  obtain ⟨cs, -, h⟩ := Option.bind_eq_some_iff.1 h
  obtain ⟨⟨w, rest⟩, hread, h⟩ := Option.bind_eq_some_iff.1 h
  dsimp only at h
  split at h
  · obtain rfl := Option.some.inj h
    exact (readsWellFormed _).value hread
  · cases h

end Json
