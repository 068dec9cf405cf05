import GeminiWorker.Lib.JsonParse

/-!
# JSON texts and their white space

A layout says where a printer breaks lines and leaves gaps. A document that is printed in any
layout is read back as that document (`parse_text`).

* `Layout.compact`: no white space at all, which is how `print` writes.
* `Layout.pretty`: a line for each item and two blanks for each level.
-/

namespace Json

open Value

/-- The white space that a printer puts before an item at a depth, and after the colon of a member. -/
structure Layout where
  newline : ℕ → List Char
  gap : List Char
  newline_space : ∀ depth, ∀ c ∈ newline depth, isSpace c = true
  gap_space : ∀ c ∈ gap, isSpace c = true

/-- No white space. -/
def Layout.compact : Layout where
  newline _ := []
  gap := []
  newline_space _ _ hc := by cases hc
  gap_space _ hc := by cases hc

/-- A line for each item, and two blanks for each level. -/
def Layout.pretty : Layout where
  newline depth := '\n' :: List.replicate (2 * depth) ' '
  gap := [' ']
  newline_space depth c hc := by
    rcases List.mem_cons.mp hc with rfl | hblank
    · rfl
    · rw [List.eq_of_mem_replicate hblank]
      rfl
  gap_space c hc := by
    rw [List.mem_singleton.mp hc]
    rfl

namespace Layout

/-- Where there are items, the bracket that closes them is on a line of its own. -/
def close (layout : Layout) (depth : ℕ) (empty : Bool) : List Char := if empty then [] else layout.newline depth

mutual
/-- The characters of a value at a depth. -/
def text (layout : Layout) : ℕ → Value → List Char
  | _, .null => ['n', 'u', 'l', 'l']
  | _, .bool true => ['t', 'r', 'u', 'e']
  | _, .bool false => ['f', 'a', 'l', 's', 'e']
  | _, .number spelling => spelling.toList
  | _, .string s => textString s
  | depth, .array items =>
    '[' :: (layout.textItems (depth + 1) true items ++ (layout.close depth items.isEmpty ++ [']']))
  | depth, .object members =>
    '\x7b' :: (layout.textMembers (depth + 1) true members ++ (layout.close depth members.isEmpty ++ ['\x7d']))
def textItems (layout : Layout) : ℕ → Bool → List Value → List Char
  | _, _, [] => []
  | depth, first, v :: vs =>
    (if first then [] else [',']) ++ (layout.newline depth ++ (layout.text depth v ++ layout.textItems depth false vs))
def textMembers (layout : Layout) : ℕ → Bool → List (String × Value) → List Char
  | _, _, [] => []
  | depth, first, (k, v) :: ms =>
    (if first then [] else [',']) ++ (layout.newline depth ++ (textString k ++
      (':' :: (layout.gap ++ (layout.text depth v ++ layout.textMembers depth false ms)))))
end

variable {layout : Layout} {depth : ℕ}

theorem close_space (layout : Layout) (depth : ℕ) (empty : Bool) : ∀ c ∈ layout.close depth empty, isSpace c = true := by
  unfold close
  split
  · simp
  · exact layout.newline_space depth

end Layout

/-! ## White space is skipped -/

theorem skipSpace_append {space : List Char} (h : ∀ c ∈ space, isSpace c = true) (cs : List Char) :
    skipSpace (space ++ cs) = skipSpace cs := List.dropWhile_append_of_pos h

theorem readValue_space {space : List Char} (h : ∀ c ∈ space, isSpace c = true) (fuel : ℕ) (cs : List Char) :
    readValue fuel (space ++ cs) = readValue fuel cs := by
  cases fuel with
  | zero => rfl
  | succ fuel =>
    unfold readValue
    rw [skipSpace_append h]

/-- White space does not extend a number. -/
theorem ends_space {space : List Char} (h : ∀ c ∈ space, isSpace c = true) {c : Char} (hc : isNumberChar c = false)
    (rest : List Char) : Ends (space ++ c :: rest) := by
  intro d hd
  cases space with
  | nil =>
    obtain rfl := Option.some.inj hd
    exact hc
  | cons blank space =>
    obtain rfl := Option.some.inj hd
    by_contra hnumber
    rw [Bool.not_eq_false] at hnumber
    have hnone := isSpace_of_isNumberChar hnumber
    rw [h blank (List.mem_cons_self ..)] at hnone
    cases hnone

/-! ## Reading what was laid out -/

namespace Layout

variable {layout : Layout} {depth : ℕ}

/-- The first character of a value, after which no bracket can close. -/
theorem text_cons {v : Value} (h : v.Numeric) :
    ∃ c cs, layout.text depth v = c :: cs ∧ isSpace c = false ∧ c ≠ ']' ∧ c ≠ '\x7d' := by
  cases v with
  | number spelling =>
    obtain ⟨c, cs, hcs⟩ := List.exists_cons_of_ne_nil (isNumber_ne_nil h)
    have hc : isNumberChar c = true := all_isNumberChar h c (by simp [hcs])
    refine ⟨c, cs, hcs, isSpace_of_isNumberChar hc, ?_, ?_⟩
    · rintro rfl
      revert hc
      decide
    · rintro rfl
      revert hc
      decide
  | bool b => cases b <;> exact ⟨_, _, rfl, by decide, by decide, by decide⟩
  | _ => exact ⟨_, _, rfl, by decide, by decide, by decide⟩

/-- What reading a value that was laid out gives. -/
def ReadsBack (layout : Layout) (v : Value) : Prop :=
  ∀ depth fuel rest, 2 * (layout.text depth v).length ≤ fuel → Ends rest →
    readValue fuel (layout.text depth v ++ rest) = some (v, rest)

theorem ends_textItems {space : List Char} (hspace : ∀ c ∈ space, isSpace c = true) (items : List Value)
    (rest : List Char) : Ends (layout.textItems depth false items ++ (space ++ ']' :: rest)) := by
  cases items with
  | nil => exact ends_space hspace (by decide) rest
  | cons v vs => exact @ends_space [] (by simp) ',' (by decide) _

theorem ends_textMembers {space : List Char} (hspace : ∀ c ∈ space, isSpace c = true) (members : Map)
    (rest : List Char) : Ends (layout.textMembers depth false members ++ (space ++ '\x7d' :: rest)) := by
  cases members with
  | nil => exact ends_space hspace (by decide) rest
  | cons m ms => exact @ends_space [] (by simp) ',' (by decide) _

theorem readItems_textItems {items : List Value} (hitems : ∀ v ∈ items, v.Numeric ∧ layout.ReadsBack v)
    {space : List Char} (hspace : ∀ c ∈ space, isSpace c = true) (rest : List Char) :
    ∀ first fuel, 2 * (layout.textItems depth first items).length + 2 ≤ fuel →
      readItems fuel first (layout.textItems depth first items ++ (space ++ ']' :: rest)) = some (items, rest) := by
  induction items with
  | nil =>
    intro first fuel hfuel
    obtain ⟨fuel, rfl⟩ : ∃ n, fuel = n + 1 := ⟨fuel - 1, by omega⟩
    have hskip : skipSpace (space ++ ']' :: rest) = ']' :: rest := by
      rw [skipSpace_append hspace]
      exact skipSpace_cons (by decide) rest
    cases first <;> simp [readItems, textItems, hskip]
  | cons v vs ih =>
    intro first fuel hfuel
    obtain ⟨hnumeric, hv⟩ := hitems v (List.mem_cons_self ..)
    obtain ⟨c, cs, hcs, hc, hbracket, -⟩ := @text_cons layout depth v hnumeric
    have hpos : 0 < (layout.text depth v).length := by rw [hcs]; simp
    have hnewline := layout.newline_space depth
    -- an item is read through the line break before it
    have hitem : ∀ before, (∀ c ∈ before, isSpace c = true) → ∀ fuel,
        2 * ((layout.text depth v).length + (layout.textItems depth false vs).length) + 1 ≤ fuel →
        readItem fuel (before ++ (layout.text depth v ++ (layout.textItems depth false vs ++ (space ++ ']' :: rest)))) =
          some (v :: vs, rest) := by
      intro before hbefore fuel hfuel
      obtain ⟨fuel, rfl⟩ : ∃ n, fuel = n + 1 := ⟨fuel - 1, by omega⟩
      have hread := hv depth fuel _ (by omega) (@ends_textItems layout depth _ hspace vs rest)
      have hrest := ih (fun w hw => hitems w (List.mem_cons_of_mem _ hw)) false fuel (by omega)
      simp [readItem, readValue_space hbefore, hread, hrest]
    obtain ⟨fuel, rfl⟩ : ∃ n, fuel = n + 1 := ⟨fuel - 1, by omega⟩
    cases first with
    | true =>
      simp only [textItems, if_true, List.nil_append, List.length_append] at hfuel ⊢
      have hread := hitem [] (by simp) fuel (by omega)
      rw [hcs] at hread
      rw [List.append_assoc, List.append_assoc]
      unfold readItems
      rw [skipSpace_append hnewline, hcs, List.cons_append, skipSpace_cons hc]
      split
      · rename_i heq
        exact absurd (List.cons.inj heq).1 hbracket
      · exact hread
      · rename_i hfirst _
        cases hfirst
      · rename_i hfirst _ _
        cases hfirst
    | false =>
      simp only [textItems, Bool.false_eq_true, if_false, List.length_append, List.length_cons,
        List.length_nil] at hfuel ⊢
      simp only [List.cons_append, List.nil_append, List.append_assoc]
      rw [← hitem _ hnewline fuel (by omega)]
      unfold readItems
      rw [skipSpace_cons (by decide)]
      rfl

theorem readMembers_textMembers {members : Map} (hmembers : ∀ m ∈ members, m.2.Numeric ∧ layout.ReadsBack m.2)
    {space : List Char} (hspace : ∀ c ∈ space, isSpace c = true) (rest : List Char) :
    ∀ first fuel before, (Map.keys (before ++ members)).Nodup →
      2 * (layout.textMembers depth first members).length + 2 ≤ fuel →
      readMembers fuel first before (layout.textMembers depth first members ++ (space ++ '\x7d' :: rest)) =
        some (before ++ members, rest) := by
  induction members with
  | nil =>
    intro first fuel before _ hfuel
    obtain ⟨fuel, rfl⟩ : ∃ n, fuel = n + 1 := ⟨fuel - 1, by omega⟩
    have hskip : skipSpace (space ++ '\x7d' :: rest) = '\x7d' :: rest := by
      rw [skipSpace_append hspace]
      exact skipSpace_cons (by decide) rest
    cases first <;> simp [readMembers, textMembers, hskip]
  | cons m ms ih =>
    intro first fuel before hnodup hfuel
    obtain ⟨key, v⟩ := m
    obtain ⟨-, hv⟩ := hmembers (key, v) (List.mem_cons_self ..)
    dsimp only at hv
    have hnewline := layout.newline_space depth
    -- the key is new, so it is added at the end
    have hinsert : Map.insert before key v = before ++ [(key, v)] := by
      apply Map.insert_of_not_mem
      intro hmem
      rw [Map.keys, List.map_append, List.map_cons, List.nodup_append] at hnodup
      exact hnodup.2.2 key hmem key (List.mem_cons_self ..) rfl
    have hmember : ∀ line, (∀ c ∈ line, isSpace c = true) → ∀ fuel, 2 * ((textString key).length + 1 +
          (layout.text depth v).length + (layout.textMembers depth false ms).length) + 1 ≤ fuel →
        readMember fuel before (line ++ (textString key ++ (':' :: (layout.gap ++ (layout.text depth v ++
          (layout.textMembers depth false ms ++ (space ++ '\x7d' :: rest))))))) =
            some (before ++ (key, v) :: ms, rest) := by
      intro line hline fuel hfuel
      obtain ⟨fuel, rfl⟩ : ∃ n, fuel = n + 1 := ⟨fuel - 1, by omega⟩
      have hread := hv depth fuel _ (by omega) (@ends_textMembers layout depth _ hspace ms rest)
      have hrest := ih (fun w hw => hmembers w (List.mem_cons_of_mem _ hw)) false fuel
        (before ++ [(key, v)]) (by simpa using hnodup) (by omega)
      obtain ⟨cs, hcs, hkey⟩ := readString_textString key (':' :: (layout.gap ++ (layout.text depth v ++
        (layout.textMembers depth false ms ++ (space ++ '\x7d' :: rest)))))
      unfold readMember
      rw [skipSpace_append hline, hcs, skipSpace_cons (by decide)]
      simp only [hkey, bind, Option.bind]
      rw [skipSpace_cons (by decide)]
      simp only [readValue_space layout.gap_space, hread, String.ofList_toList, hinsert]
      rw [hrest, List.append_assoc]
      rfl
    obtain ⟨fuel, rfl⟩ : ∃ n, fuel = n + 1 := ⟨fuel - 1, by omega⟩
    cases first with
    | true =>
      simp only [textMembers, if_true, List.nil_append, List.length_append, List.length_cons] at hfuel ⊢
      simp only [List.append_assoc, List.cons_append]
      have hread := hmember [] (by simp) fuel (by omega)
      rw [List.nil_append] at hread
      unfold textString at hread ⊢
      unfold readMembers
      rw [skipSpace_append hnewline, List.cons_append, skipSpace_cons (by decide)]
      exact hread
    | false =>
      simp only [textMembers, Bool.false_eq_true, if_false, List.length_append, List.length_cons,
        List.length_nil] at hfuel ⊢
      simp only [List.cons_append, List.nil_append, List.append_assoc]
      rw [← hmember _ hnewline fuel (by omega)]
      unfold readMembers
      rw [skipSpace_cons (by decide)]
      rfl

theorem readsBack (layout : Layout) {v : Value} : v.Distinct → v.Numeric → layout.ReadsBack v := by
  induction v using Value.induction with
  | null =>
    intro _ _ depth fuel rest hfuel _
    obtain ⟨fuel, rfl⟩ : ∃ n, fuel = n + 1 := ⟨fuel - 1, by simp [text] at hfuel; omega⟩
    rfl
  | bool b =>
    intro _ _ depth fuel rest hfuel _
    obtain ⟨fuel, rfl⟩ : ∃ n, fuel = n + 1 := ⟨fuel - 1, by cases b <;> simp [text] at hfuel <;> omega⟩
    cases b <;> rfl
  | number spelling =>
    intro _ hnumeric depth fuel rest hfuel hrest
    have hpos := List.length_pos_iff.2 (isNumber_ne_nil hnumeric)
    obtain ⟨fuel, rfl⟩ : ∃ n, fuel = n + 1 := ⟨fuel - 1, by simp only [text] at hfuel; omega⟩
    exact readValue_number hnumeric hrest fuel
  | string s =>
    intro _ _ depth fuel rest hfuel _
    obtain ⟨fuel, rfl⟩ : ∃ n, fuel = n + 1 := ⟨fuel - 1, by simp [text, textString] at hfuel; omega⟩
    obtain ⟨cs, hcs, hread⟩ := readString_textString s rest
    unfold readValue
    rw [text, hcs, skipSpace_cons (by decide)]
    simp [hread]
  | array items ih =>
    intro hdistinct hnumeric depth fuel rest hfuel _
    rw [Value.distinct_array] at hdistinct
    rw [Value.numeric_array] at hnumeric
    simp only [text, List.length_cons, List.length_append, List.length_nil] at hfuel
    -- one for the bracket, the rest is enough for the items
    obtain ⟨fuel, rfl⟩ : ∃ n, fuel = n + 1 := ⟨fuel - 1, by omega⟩
    have hitems := @readItems_textItems layout (depth + 1) items (fun v hv =>
      ⟨hnumeric v hv, ih v hv (hdistinct v hv) (hnumeric v hv)⟩) _ (layout.close_space depth items.isEmpty) rest true
      fuel (by omega)
    unfold readValue
    rw [text, List.cons_append, skipSpace_cons (by decide), List.append_assoc, List.append_assoc]
    simp [hitems]
  | object members ih =>
    intro hdistinct hnumeric depth fuel rest hfuel _
    rw [Value.distinct_object] at hdistinct
    rw [Value.numeric_object] at hnumeric
    simp only [text, List.length_cons, List.length_append, List.length_nil] at hfuel
    obtain ⟨fuel, rfl⟩ : ∃ n, fuel = n + 1 := ⟨fuel - 1, by omega⟩
    have hmembers := @readMembers_textMembers layout (depth + 1) members (fun m hm =>
      ⟨hnumeric m hm, ih m hm (hdistinct.2 m hm) (hnumeric m hm)⟩) _ (layout.close_space depth members.isEmpty) rest
      true fuel [] hdistinct.1 (by omega)
    unfold readValue
    rw [text, List.cons_append, skipSpace_cons (by decide), List.append_assoc, List.append_assoc]
    simp [hmembers]

/-- **A document is read back from every layout.** -/
theorem parse_text (layout : Layout) {v : Value} (hdistinct : v.Distinct) (hnumeric : v.Numeric) :
    parse ((layout.text 0 v).flatMap String.utf8EncodeChar) = some v := by
  have hbytes : ((layout.text 0 v).flatMap String.utf8EncodeChar).toByteArray = (layout.text 0 v).utf8Encode := rfl
  unfold parse
  rw [hbytes, List.utf8Decode?_utf8Encode, Option.bind_some]
  unfold parseText
  have hends : Ends [] := by
    intro c hc
    cases hc
  have hread := readsBack layout hdistinct hnumeric 0 (2 * (layout.text 0 v).length + 1) [] (by omega) hends
  rw [List.append_nil] at hread
  -- nothing is left behind the value
  rw [hread, Option.bind_eq_bind, Option.bind_some]
  exact if_pos rfl

end Layout

/-! ## The compact form -/

theorem print_eq_text (v : Value) : ∀ depth, print v = (Layout.compact.text depth v).flatMap String.utf8EncodeChar := by
  have hstring : ∀ s, printString s = (textString s).flatMap String.utf8EncodeChar := by
    intro s
    simp [printString, textString, Text.bytes]
  have hclose : ∀ depth empty, Layout.compact.close depth empty = [] := by
    intro depth empty
    cases empty <;> rfl
  have hnewline : ∀ depth, Layout.compact.newline depth = [] := fun _ => rfl
  have hgap : Layout.compact.gap = [] := rfl
  induction v using Value.induction with
  | null =>
    have hnull : print .null = ['n', 'u', 'l', 'l'].flatMap String.utf8EncodeChar := by decide
    exact fun _ => hnull
  | bool b =>
    have htrue : print (.bool true) = ['t', 'r', 'u', 'e'].flatMap String.utf8EncodeChar := by decide
    have hfalse : print (.bool false) = ['f', 'a', 'l', 's', 'e'].flatMap String.utf8EncodeChar := by decide
    cases b
    · exact fun _ => hfalse
    · exact fun _ => htrue
  | number spelling => exact fun _ => rfl
  | string s => exact fun _ => hstring s
  | array items ih =>
    have hitems : ∀ depth first, printItems first items =
        (Layout.compact.textItems depth first items).flatMap String.utf8EncodeChar := by
      intro depth
      induction items with
      | nil => exact fun _ => rfl
      | cons v vs ihs =>
        intro first
        rw [printItems, Layout.textItems, ih v (List.mem_cons_self ..) depth,
          ihs fun w hw => ih w (List.mem_cons_of_mem _ hw)]
        -- only the first item is without a comma before it
        cases first <;> simp [Text.bytes, hnewline]
    intro depth
    rw [print, Layout.text, hitems (depth + 1), hclose]
    simp [Text.bytes]
  | object members ih =>
    have hmembers : ∀ depth first, printMembers first members =
        (Layout.compact.textMembers depth first members).flatMap String.utf8EncodeChar := by
      intro depth
      induction members with
      | nil => exact fun _ => rfl
      | cons m ms ihs =>
        intro first
        obtain ⟨k, v⟩ := m
        have hv : print v = (Layout.compact.text depth v).flatMap String.utf8EncodeChar :=
          ih (k, v) (List.mem_cons_self ..) depth
        rw [printMembers, Layout.textMembers, hv, hstring, ihs fun w hw => ih w (List.mem_cons_of_mem _ hw)]
        cases first <;> simp [Text.bytes, hnewline, hgap]
    intro depth
    rw [print, Layout.text, hmembers (depth + 1), hclose]
    simp [Text.bytes]

/-- **The compact form of a document is read back as that document.** -/
theorem parse_print {v : Value} (hdistinct : v.Distinct) (hnumeric : v.Numeric) : parse (print v) = some v := by
  rw [print_eq_text v 0]
  exact Layout.compact.parse_text hdistinct hnumeric

end Json
