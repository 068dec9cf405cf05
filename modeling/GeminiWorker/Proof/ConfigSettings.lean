import GeminiWorker.Lib.Setting
import GeminiWorker.Spec.Config

/-!
# The settings of the configuration

Each way in which `config.rs` reads a setting, with the values that it gives. A value is written in a form
that is read back as it is:

* numbers in decimal, with a lower or an upper bound where the code has one;
* text without white space at the ends, where it must not be blank or where `off` stands for nothing;
* lists with commas between the parts.
-/

namespace GeminiWorker

open Text (Trimmed)

/-! ## Numbers -/

theorem parseU64_toString (x : UInt64) : parseU64 (Text.trim (toString x.toNat)) = some x := by
  have htrim : Text.trim (toString x.toNat) = toString x.toNat := Text.trimmed_toString x.toNat
  rw [parseU64, htrim, Text.parseUnsigned_toString x.toNat_lt, Option.map_some, UInt64.ofNat_toNat]

def positiveSetting {defaultValue : UInt64} (h : 0 < defaultValue) : Setting UInt64 where
  read := parsePositiveU64WithDefault defaultValue
  write x := toString x.toNat
  Valid x := 0 < x
  valid_read value := by
    unfold parsePositiveU64WithDefault
    split
    · split
      · assumption
      · exact h
    · exact h
  read_write x hx := by
    have hparse : (some (toString x.toNat)).bind (fun raw => parseU64 (Text.trim raw)) = some x := by
      rw [Option.bind_some, parseU64_toString]
    unfold parsePositiveU64WithDefault
    rw [hparse]
    exact if_pos hx

/-- Any number; also `usize`, and the time that a waiter has. -/
def numberSetting (defaultValue : UInt64) : Setting UInt64 :=
  .parsed (fun x => toString x.toNat) (fun _ => True) defaultValue (fun raw => parseU64 (Text.trim raw)) trivial
    (fun _ _ _ => trivial) fun x _ => parseU64_toString x

def portSetting (defaultValue : UInt16) : Setting UInt16 :=
  .parsed (fun port => toString port.toNat) (fun _ => True) defaultValue parsePort trivial (fun _ _ _ => trivial)
    fun port _ => by
      have htrim : Text.trim (toString port.toNat) = toString port.toNat := Text.trimmed_toString port.toNat
      unfold parsePort
      dsimp only
      rw [htrim, if_neg (Text.toString_ne_empty _), Text.parseUnsigned_toString port.toNat_lt, Option.map_some,
        UInt16.ofNat_toNat]

def qualitySetting {defaultValue : UInt8} (h : 1 ≤ defaultValue ∧ defaultValue ≤ 100) : Setting UInt8 where
  read := parseJpegQuality defaultValue
  write quality := toString quality.toNat
  Valid quality := 1 ≤ quality ∧ quality ≤ 100
  valid_read value := by
    unfold parseJpegQuality
    split
    · split
      · assumption
      · exact h
    · exact h
  read_write quality hquality := by
    have htrim : Text.trim (toString quality.toNat) = toString quality.toNat := Text.trimmed_toString quality.toNat
    have hparse : (some (toString quality.toNat)).bind
        (fun raw => (Text.parseUnsigned (2 ^ 8) (Text.trim raw)).map UInt8.ofNat) = some quality := by
      rw [Option.bind_some, htrim, Text.parseUnsigned_toString quality.toNat_lt, Option.map_some, UInt8.ofNat_toNat]
    unfold parseJpegQuality
    rw [hparse]
    exact if_pos hquality

/-- A number that is written is only disabled where it is zero. -/
theorem eq_zero_of_isDisabledValue {x : UInt64} (h : isDisabledValue (toString x.toNat) = true) : x = 0 := by
  have htrim : Text.trim (toString x.toNat) = toString x.toNat := Text.trimmed_toString x.toNat
  have hparse := parseU64_toString x
  unfold isDisabledValue at h
  rw [htrim] at hparse
  rw [htrim, Text.toAsciiLowercase_toString, decide_eq_true_eq] at h
  -- of the texts that disable, only `0` is a number
  have hnone : ∀ text ∈ ["", "0", "false", "no", "n", "off", "disable", "disabled", "none"],
      parseU64 text = none ∨ parseU64 text = some 0 := by decide
  rcases hnone _ h with hnone | hzero
  · rw [hparse] at hnone
    cases hnone
  · rw [hparse] at hzero
    exact Option.some.inj hzero

def cacheBytesSetting (defaultValue : UInt64) : Setting UInt64 where
  read := parseCacheBytes defaultValue
  write x := toString x.toNat
  Valid _ := True
  valid_read _ := trivial
  read_write x _ := by
    have htrim : Text.trim (toString x.toNat) = toString x.toNat := Text.trimmed_toString x.toNat
    have hparse := parseU64_toString x
    rw [htrim] at hparse
    unfold parseCacheBytes
    rw [Option.map_some, htrim]
    dsimp only
    split
    · rename_i hdisabled
      exact (eq_zero_of_isDisabledValue hdisabled).symm
    · rw [hparse, Option.getD_some]

def boolSetting (defaultValue : Bool) : Setting Bool where
  read := parseBool defaultValue
  write b := if b then "true" else "false"
  Valid _ := True
  valid_read _ := trivial
  read_write b _ := by
    revert defaultValue b
    decide

/-! ## Text -/

def textSetting {defaultValue : String} (h : Trimmed defaultValue ∧ defaultValue ≠ "") : Setting String :=
  .filtered id (fun s => Trimmed s ∧ s ≠ "") defaultValue Text.trim (· != "") h
    (fun raw hraw => ⟨Text.trimmed_trim raw, by simpa using hraw⟩)
    fun s hs => ⟨by simpa using hs.2, hs.1⟩

/-- Nothing, or a text that does not stand for nothing. -/
def Enabled (s : String) : Prop := s = "" ∨ Trimmed s ∧ isDisabledValue s = false

instance instDecidableEnabled (s : String) : Decidable (Enabled s) :=
  inferInstanceAs (Decidable (s = "" ∨ Trimmed s ∧ isDisabledValue s = false))

theorem enabled_parseOptional (raw : String) : Enabled (parseOptionalStringWithDisabled raw) := by
  unfold parseOptionalStringWithDisabled
  split
  · exact .inl rfl
  · rename_i henabled
    refine .inr ⟨Text.trimmed_trim raw, ?_⟩
    unfold isDisabledValue at henabled ⊢
    rw [Text.trimmed_trim raw]
    exact Bool.eq_false_iff.mpr henabled

theorem parseOptional_enabled {s : String} (h : Enabled s) : parseOptionalStringWithDisabled s = s := by
  rcases h with rfl | ⟨htrimmed, henabled⟩
  · decide
  · unfold parseOptionalStringWithDisabled
    rw [henabled]
    exact htrimmed

def enabledSetting : Setting String :=
  .total id Enabled "" parseOptionalStringWithDisabled (.inl rfl) enabled_parseOptional fun _ => parseOptional_enabled

def enabledTextSetting {defaultValue : String} (h : Enabled defaultValue ∧ defaultValue ≠ "") : Setting String :=
  .filtered id (fun s => Enabled s ∧ s ≠ "") defaultValue parseOptionalStringWithDisabled (· != "") h
    (fun raw hraw => ⟨enabled_parseOptional raw, by simpa using hraw⟩)
    fun s hs => ⟨by simpa using hs.2, parseOptional_enabled hs.1⟩

/-! ## Lists -/

/-- Parts that can stand between commas. -/
def Csv (parts : List String) : Prop := ∀ part ∈ parts, Trimmed part ∧ part ≠ "" ∧ ',' ∉ part.toList

instance instDecidableCsv (parts : List String) : Decidable (Csv parts) :=
  inferInstanceAs (Decidable (∀ part ∈ parts, Trimmed part ∧ part ≠ "" ∧ ',' ∉ part.toList))

theorem csv_parseCsv (raw : String) : Csv (parseCsv raw) := by
  intro part hpart
  obtain ⟨hmem, hne⟩ := List.mem_filter.mp hpart
  obtain ⟨text, htext, rfl⟩ := List.mem_map.mp hmem
  obtain ⟨chars, hchars, rfl⟩ := List.mem_map.mp htext
  refine ⟨Text.trimmed_trim _, by simpa using hne, fun hcomma => ?_⟩
  obtain ⟨left, right, -, -, hsplit⟩ := Text.exists_trim (String.ofList chars)
  have hcomma' : ',' ∈ chars := by
    rw [← String.toList_ofList (l := chars), hsplit]
    exact List.mem_append_left _ (List.mem_append_right _ hcomma)
  have hsep := (Text.mem_of_mem_splitOnP hchars ',' hcomma').2
  simp at hsep

theorem parseCsv_join {parts : List String} (h : Csv parts) : parseCsv (Text.join "," parts) = parts := by
  rcases hparts : parts with _ | ⟨first, rest⟩
  · decide
  · rw [← hparts]
    have hne : parts.map String.toList ≠ [] := by simp [hparts]
    have hcomma : ∀ chars ∈ parts.map String.toList, ',' ∉ chars := by
      intro chars hchars
      obtain ⟨part, hpart, rfl⟩ := List.mem_map.mp hchars
      exact (h part hpart).2.2
    have hsplit : Text.split ',' (Text.join "," parts) = parts := by
      have hsep : (",".toList : List Char) = [','] := rfl
      rw [Text.split, Text.join, String.toList_ofList, hsep, List.splitOn_intercalate ',' hcomma hne, List.map_map]
      simp
    rw [parseCsv, hsplit]
    have hmap : parts.map Text.trim = parts := by
      conv_rhs => rw [← List.map_id parts]
      exact List.map_congr_left fun part hpart => (h part hpart).1
    rw [hmap]
    exact List.filter_eq_self.mpr fun part hpart => by simpa using (h part hpart).2.1

def csvSetting {defaultValue : List String} (h : Csv defaultValue) : Setting (List String) :=
  .total (Text.join ",") Csv defaultValue parseCsv h csv_parseCsv fun _ => parseCsv_join

def csvNonEmptySetting {defaultValue : List String} (h : Csv defaultValue ∧ defaultValue ≠ []) : Setting (List String) :=
  .filtered (Text.join ",") (fun parts => Csv parts ∧ parts ≠ []) defaultValue parseCsv (· != []) h
    (fun raw hraw => ⟨csv_parseCsv raw, by simpa using hraw⟩)
    fun parts hparts => ⟨by simpa using hparts.2, parseCsv_join hparts.1⟩

/-- Parts in lower case. -/
def Lower (parts : List String) : Prop := ∀ part ∈ parts, Text.toAsciiLowercase part = part

theorem Csv.lower {parts : List String} (h : Csv parts) : Csv (parts.map Text.toAsciiLowercase) := by
  intro part hpart
  obtain ⟨before, hbefore, rfl⟩ := List.mem_map.mp hpart
  obtain ⟨htrimmed, hne, hcomma⟩ := h before hbefore
  refine ⟨Text.trimmed_toAsciiLowercase htrimmed, fun hempty => hne (Text.toAsciiLowercase_eq_empty.mp hempty), ?_⟩
  intro hmem
  rw [Text.toAsciiLowercase, String.toList_ofList] at hmem
  obtain ⟨c, hc, hlower⟩ := List.mem_map.mp hmem
  obtain rfl := (Text.toAsciiLower_eq_iff (by decide)).mp hlower
  exact hcomma hc

def lowerCsvSetting {defaultValue : List String} (h : Csv defaultValue) : Setting (List String) where
  read value := ((value.map parseCsv).getD defaultValue).map Text.toAsciiLowercase
  write := Text.join ","
  Valid parts := Csv parts ∧ Lower parts
  valid_read value := by
    refine ⟨Csv.lower ((csvSetting h).valid_read value), fun part hpart => ?_⟩
    obtain ⟨part, -, rfl⟩ := List.mem_map.mp hpart
    exact Text.toAsciiLowercase_toAsciiLowercase part
  read_write parts hparts := by
    rw [Option.map_some, Option.getD_some, parseCsv_join hparts.1]
    conv_rhs => rw [← List.map_id parts]
    exact List.map_congr_left fun part hpart => hparts.2 part hpart

/-! ## Parts of URLs -/

/-- No slash at the ends. -/
def Unslashed (s : String) : Prop := Text.trimMatches '/' s = s

instance instDecidableUnslashed (s : String) : Decidable (Unslashed s) :=
  inferInstanceAs (Decidable (Text.trimMatches '/' s = s))

theorem toList_trimMatches (sep : Char) (s : String) :
    (Text.trimMatches sep s).toList = (s.toList.dropWhile (· == sep)).rdropWhile (· == sep) := by
  rw [Text.trimMatches, Text.trimEndMatches, Text.trimStartMatches, String.toList_ofList, String.toList_ofList]

/-- What is written of an object prefix: slashes keep what is between them. -/
def slashed (s : String) : String := "/" ++ s ++ "/"

theorem toList_slashed (s : String) : (slashed s).toList = ['/'] ++ s.toList ++ ['/'] := by
  rw [slashed, String.toList_append, String.toList_append]
  rfl

theorem trimMatches_slashed {s : String} (h : Unslashed s) (hne : s ≠ "") :
    Text.trimMatches '/' (Text.trim (slashed s)) = s := by
  have hslash : Text.SolidEnds ['/'] := by
    refine ⟨fun c hc => ?_, fun c hc => ?_⟩
    · obtain rfl := Option.some.inj hc
      decide
    · obtain rfl := Option.some.inj hc
      decide
  have htrimmed : Trimmed (slashed s) := by
    rw [Text.trimmed_iff, toList_slashed]
    exact hslash.append (List.cons_ne_nil _ _) hslash (List.cons_ne_nil _ _)
  have hends := Text.strip_eq_self_iff.mp ((toList_trimMatches '/' s).symm.trans (congrArg String.toList h))
  have hchars : s.toList ≠ [] := by simpa using hne
  rw [htrimmed, ← String.toList_inj, toList_trimMatches, toList_slashed]
  -- the two slashes go, and nothing of the text between them
  have hstart : (['/'] ++ s.toList ++ ['/']).dropWhile (· == '/') = s.toList ++ ['/'] := by
    obtain ⟨c, cs, hcs⟩ := List.exists_cons_of_ne_nil hchars
    have hc := hends.1 c (by rw [hcs]; rfl)
    rw [hcs, List.singleton_append, List.cons_append, List.dropWhile_cons_of_pos (by decide), List.cons_append,
      List.dropWhile_cons_of_neg (by rw [hc]; decide)]
  have hend : s.toList.rdropWhile (· == '/') = s.toList := by
    obtain ⟨cs, c, hcs⟩ := List.eq_nil_or_concat s.toList |>.resolve_left hchars
    rw [List.concat_eq_append] at hcs
    have hc := hends.2 c (by rw [hcs, List.getLast?_concat])
    rw [hcs, List.rdropWhile_concat_neg _ _ _ (by rw [hc]; decide)]
  rw [hstart, List.rdropWhile_concat_pos _ _ _ (by decide), hend]

theorem unslashed_trimMatches (s : String) : Unslashed (Text.trimMatches '/' s) := by
  rw [Unslashed, ← String.toList_inj, toList_trimMatches, toList_trimMatches, Text.strip_strip]

def objectPrefixSetting {defaultValue : String} (h : Unslashed defaultValue ∧ defaultValue ≠ "") : Setting String :=
  .filtered slashed (fun s => Unslashed s ∧ s ≠ "") defaultValue (fun value => Text.trimMatches '/' (Text.trim value))
    (· != "") h (fun raw hraw => ⟨unslashed_trimMatches _, by simpa using hraw⟩)
    fun s hs => ⟨by simpa using hs.2, trimMatches_slashed hs.1 hs.2⟩

end GeminiWorker
