import GeminiWorker.Lib.Text

/-!
# Searching a text

The first occurrence of a needle in a list, and occurrences in a padded text.

* `splitAtFirst_eq_some_iff`: the split is at the occurrence that starts first.
* `append_unique`: two occurrences that start together are one.
* `append_of_padded`: what starts and ends with no padding occurs in the text without its padding.
* `exists_trim`: a text is its trimmed form between white space.
* `mem_of_mem_lines`: a line consists of characters of the text.
-/

namespace Text

variable {α : Type} [DecidableEq α]

/-- What stands before the first occurrence of a needle, and what follows it. -/
def splitAtFirst (needle : List α) : List α → Option (List α × List α)
  | [] => if needle.isEmpty then some ([], []) else none
  | c :: cs =>
    if needle.isPrefixOf (c :: cs) then some ([], (c :: cs).drop needle.length)
    else (splitAtFirst needle cs).map fun (before, after) => (c :: before, after)

variable {needle text before after before' after' : List α}

omit [DecidableEq α] in
/-- Two occurrences that start together are one. -/
theorem append_unique (h : before ++ needle ++ after = before' ++ needle ++ after')
    (hlength : before.length = before'.length) : before = before' ∧ after = after' := by
  rw [List.append_assoc, List.append_assoc] at h
  obtain ⟨hbefore, hrest⟩ := List.append_inj h hlength
  exact ⟨hbefore, List.append_cancel_left hrest⟩

theorem splitAtFirst_sound : ∀ {text before after : List α}, splitAtFirst needle text = some (before, after) →
    text = before ++ needle ++ after ∧
      ∀ before' after', text = before' ++ needle ++ after' → before.length ≤ before'.length := by
  intro text
  induction text with
  | nil =>
    intro before after h
    rw [splitAtFirst] at h
    split at h
    · rename_i hempty
      obtain ⟨rfl, rfl⟩ := Prod.mk.inj (Option.some.inj h)
      exact ⟨by simp [List.isEmpty_iff.1 hempty], fun _ _ _ => Nat.zero_le _⟩
    · cases h
  | cons c cs ih =>
    intro before after h
    rw [splitAtFirst] at h
    split at h
    · rename_i hstarts
      obtain ⟨rfl, rfl⟩ := Prod.mk.inj (Option.some.inj h)
      obtain ⟨rest, hrest⟩ := List.isPrefixOf_iff_prefix.1 hstarts
      refine ⟨?_, fun _ _ _ => Nat.zero_le _⟩
      rw [← hrest, List.nil_append, List.drop_left]
    · rename_i hstarts
      obtain ⟨⟨before₀, after₀⟩, hsplit, hpair⟩ := Option.map_eq_some_iff.1 h
      obtain ⟨rfl, rfl⟩ := Prod.mk.inj hpair
      obtain ⟨htext, hfirst⟩ := ih hsplit
      refine ⟨by rw [htext]; rfl, fun before' after' h' => ?_⟩
      cases before' with
      | nil => exact absurd (List.isPrefixOf_iff_prefix.2 ⟨after', h'.symm⟩) hstarts
      | cons c' before' =>
        obtain ⟨-, h'⟩ := List.cons.inj h'
        have := hfirst before' after' h'
        simp only [List.length_cons]
        omega

theorem splitAtFirst_of_occurs : ∀ {text : List α}, needle <:+: text →
    ∃ before after, splitAtFirst needle text = some (before, after) := by
  intro text
  induction text with
  | nil =>
    intro h
    have hempty : needle = [] := List.infix_nil.1 h
    exact ⟨[], [], by rw [hempty]; rfl⟩
  | cons c cs ih =>
    intro h
    rw [splitAtFirst]
    by_cases hstarts : needle.isPrefixOf (c :: cs) = true
    · exact ⟨_, _, if_pos hstarts⟩
    · rw [if_neg hstarts]
      rcases List.infix_cons_iff.1 h with hhere | hlater
      · exact absurd (List.isPrefixOf_iff_prefix.2 hhere) hstarts
      · obtain ⟨before, after, hsplit⟩ := ih hlater
        exact ⟨c :: before, after, by rw [hsplit]; rfl⟩

/-- **The split is at the occurrence that starts first.** -/
theorem splitAtFirst_eq_some_iff : splitAtFirst needle text = some (before, after) ↔
    text = before ++ needle ++ after ∧
      ∀ before' after', text = before' ++ needle ++ after' → before.length ≤ before'.length := by
  refine ⟨splitAtFirst_sound, fun ⟨htext, hfirst⟩ => ?_⟩
  obtain ⟨before₀, after₀, hsplit⟩ : ∃ before₀ after₀, splitAtFirst needle text = some (before₀, after₀) :=
    splitAtFirst_of_occurs ⟨before, after, htext.symm⟩
  obtain ⟨htext₀, hfirst₀⟩ := splitAtFirst_sound hsplit
  have hlength : before₀.length = before.length :=
    le_antisymm (hfirst₀ before after htext) (hfirst before₀ after₀ htext₀)
  obtain ⟨rfl, rfl⟩ := append_unique (htext₀.symm.trans htext) hlength
  exact hsplit

/-- The first occurrence of a single element. -/
theorem splitAtFirst_singleton {c : α} : splitAtFirst [c] text = some (before, after) ↔
    text = before ++ [c] ++ after ∧ c ∉ before := by
  rw [splitAtFirst_eq_some_iff]
  refine and_congr_right fun htext => ⟨fun hfirst hmem => ?_, fun hnot before' after' h' => ?_⟩
  · obtain ⟨head, tail, rfl⟩ := List.append_of_mem hmem
    have := hfirst head (tail ++ [c] ++ after) (by rw [htext]; simp)
    simp only [List.length_append, List.length_cons] at this
    omega
  · by_contra hlt
    rw [Nat.not_le] at hlt
    have hshort : before' ++ [c] <+: text := ⟨after', h'.symm⟩
    have hlong : before <+: text := ⟨[c] ++ after, by rw [htext, List.append_assoc]⟩
    have hinside : before' ++ [c] <+: before := by
      refine List.prefix_of_prefix_length_le hshort hlong ?_
      simp only [List.length_append, List.length_singleton]
      omega
    exact hnot (hinside.subset (by simp))

/-! ## Padding -/

omit [DecidableEq α] in
/-- **What starts and ends with no padding occurs in the text without its padding.** -/
theorem append_of_padded {left right middle : List α} {isPad : α → Prop} {first last : α}
    (hleft : ∀ c ∈ left, isPad c) (hright : ∀ c ∈ right, isPad c)
    (hhead : middle.head? = some first) (hfirst : ¬ isPad first)
    (hend : middle.getLast? = some last) (hlast : ¬ isPad last)
    (h : left ++ text ++ right = before ++ middle ++ after) :
    ∃ before₀ after₀, before = left ++ before₀ ∧ after = after₀ ++ right ∧
      text = before₀ ++ middle ++ after₀ := by
  obtain ⟨rest, hmiddle⟩ := List.head?_eq_some_iff.1 hhead
  -- the middle does not start in the left padding
  obtain ⟨before₀, rfl, hrest⟩ : ∃ before₀, before = left ++ before₀ ∧
      text ++ right = before₀ ++ middle ++ after := by
    rw [List.append_assoc, List.append_assoc] at h
    rcases List.append_eq_append_iff.1 h with ⟨a, ha, hb⟩ | ⟨a, ha, hb⟩
    · exact ⟨a, ha, by rw [hb, List.append_assoc]⟩
    · cases a with
      | nil => exact ⟨[], by simpa using ha.symm, by simpa using hb.symm⟩
      | cons c a =>
        rw [hmiddle] at hb
        obtain ⟨rfl, -⟩ := List.cons.inj hb
        exact absurd (hleft first (by rw [ha]; simp)) hfirst
  -- and it does not end in the right padding
  rcases List.append_eq_append_iff.1 hrest with ⟨a, ha, hb⟩ | ⟨a, ha, hb⟩
  · cases hsuffix : a.getLast? with
    | none =>
      obtain rfl := List.getLast?_eq_none_iff.1 hsuffix
      exact ⟨before₀, [], rfl, by simpa using hb.symm, by simpa using ha.symm⟩
    | some c =>
      have hends : (before₀ ++ middle).getLast? = some c := by
        rw [ha, List.getLast?_append, hsuffix]
        rfl
      rw [List.getLast?_append, hend] at hends
      obtain rfl : last = c := Option.some.inj hends
      refine absurd (hright last ?_) hlast
      rw [hb]
      exact List.mem_append_left _ (List.mem_of_getLast? hsuffix)
  · exact ⟨before₀, a, rfl, hb, ha⟩

/-- **A text is its trimmed form between white space.** -/
theorem exists_trim (s : String) : ∃ left right, (∀ c ∈ left, isWhitespace c = true) ∧
    (∀ c ∈ right, isWhitespace c = true) ∧ s.toList = left ++ (trim s).toList ++ right := by
  refine ⟨s.toList.takeWhile isWhitespace, (s.toList.dropWhile isWhitespace).rtakeWhile isWhitespace,
    fun c hc => List.mem_takeWhile_imp hc, fun c hc => List.mem_rtakeWhile_imp hc, ?_⟩
  unfold trim
  rw [String.toList_ofList, List.append_assoc, List.rdropWhile_append_rtakeWhile,
    List.takeWhile_append_dropWhile]

/-! ## Lines -/

omit [DecidableEq α] in
/-- A part consists of elements of the text that are no separators. -/
theorem mem_of_mem_splitOnP {p : α → Bool} {text part : List α} (h : part ∈ text.splitOnP p) :
    ∀ b ∈ part, b ∈ text ∧ p b = false := by
  induction text generalizing part with
  | nil =>
    rw [List.splitOnP_nil, List.mem_singleton] at h
    subst h
    intro b hb
    cases hb
  | cons c text ih =>
    rw [List.splitOnP_cons_eq_if_modifyHead] at h
    have hlift : ∀ s ∈ text.splitOnP p, ∀ b ∈ s, b ∈ c :: text ∧ p b = false := fun s hs b hb =>
      ⟨List.mem_cons_of_mem _ (ih hs b hb).1, (ih hs b hb).2⟩
    by_cases hc : p c = true
    · rw [if_pos hc] at h
      rcases List.mem_cons.mp h with rfl | h
      · intro b hb
        cases hb
      · exact hlift part h
    · obtain ⟨head, tail, hsplit⟩ := List.exists_cons_of_ne_nil (List.splitOnP_ne_nil p text)
      rw [if_neg hc, hsplit, List.modifyHead_cons] at h
      rw [hsplit] at hlift
      rcases List.mem_cons.mp h with rfl | h
      · intro b hb
        rcases List.mem_cons.mp hb with rfl | hb
        · exact ⟨List.mem_cons_self .., Bool.eq_false_iff.mpr hc⟩
        · exact hlift head (List.mem_cons_self ..) b hb
      · exact hlift part (List.mem_cons_of_mem _ h)

/-- A line consists of characters of the text. -/
theorem mem_of_mem_lines {s line : String} {c : Char} (h : line ∈ lines s) (hc : c ∈ line.toList) : c ∈ s.toList := by
  unfold lines at h
  dsimp only at h
  obtain ⟨chars, hchars, rfl⟩ := List.mem_map.mp h
  rw [String.toList_ofList] at hc
  have hparts (part : List Char) (hpart : part ∈ s.toList.splitOn '\n') (hmem : c ∈ part) : c ∈ s.toList := by
    rw [List.splitOn_eq_splitOnP] at hpart
    exact (mem_of_mem_splitOnP hpart c hmem).1
  rcases List.mem_append.mp hchars with hended | hlast
  · obtain ⟨part, hpart, rfl⟩ := List.mem_map.mp hended
    refine hparts part (List.mem_of_mem_dropLast hpart) ?_
    split at hc
    · exact List.mem_of_mem_dropLast hc
    · exact hc
  · split at hlast
    · cases hlast
    · obtain rfl := List.mem_singleton.mp hlast
      rcases hget : (s.toList.splitOn '\n').getLast? with _ | part
      · rw [hget] at hc
        cases hc
      · rw [hget] at hc
        exact hparts part (List.mem_of_getLast? hget) hc

theorem stripPrefix_eq_some_iff {pre s rest : String} : stripPrefix pre s = some rest ↔ s = pre ++ rest := by
  unfold stripPrefix startsWith
  constructor
  · intro h
    split at h
    · rename_i hpre
      obtain ⟨tail, htail⟩ := List.isPrefixOf_iff_prefix.mp hpre
      have hrest := Option.some.inj h
      rw [← htail, ← String.length_toList, List.drop_left] at hrest
      rw [← hrest, ← String.toList_inj, String.toList_append, String.toList_ofList, htail]
    · cases h
  · rintro rfl
    rw [String.toList_append, if_pos (List.isPrefixOf_iff_prefix.mpr (List.prefix_append ..)), ← String.length_toList,
      List.drop_left, String.ofList_toList]

/-- A text with a character that is no white space is not blank. -/
theorem trim_ne_empty {s : String} {c : Char} (hc : c ∈ s.toList) (hblank : isWhitespace c = false) : trim s ≠ "" := by
  intro hempty
  obtain ⟨left, right, hleft, hright, heq⟩ := exists_trim s
  rw [heq, hempty] at hc
  rcases List.mem_append.mp hc with h | h
  · rcases List.mem_append.mp h with h | h
    · exact absurd (hleft c h) (Bool.eq_false_iff.mp hblank)
    · cases h
  · exact absurd (hright c h) (Bool.eq_false_iff.mp hblank)

/-- What starts and ends with no white space is what trimming leaves of it between white space. -/
theorem trim_of_padded {s : String} {left right middle : List Char} {first last : Char}
    (hleft : ∀ c ∈ left, isWhitespace c = true) (hright : ∀ c ∈ right, isWhitespace c = true)
    (hhead : middle.head? = some first) (hfirst : isWhitespace first = false)
    (hend : middle.getLast? = some last) (hlast : isWhitespace last = false)
    (h : s.toList = left ++ (middle ++ right)) : trim s = String.ofList middle := by
  have hdrop : s.toList.dropWhile isWhitespace = middle ++ right := by
    obtain ⟨rest, rfl⟩ := List.head?_eq_some_iff.mp hhead
    rw [h, List.dropWhile_append_of_pos hleft, List.cons_append, List.dropWhile_cons_of_neg (by simp [hfirst])]
  have hrdrop : (middle ++ right).rdropWhile isWhitespace = middle := by
    obtain ⟨before, rfl⟩ := List.getLast?_eq_some_iff.mp hend
    clear h hdrop
    induction right using List.reverseRecOn with
    | nil =>
      rw [List.append_nil]
      exact List.rdropWhile_concat_neg _ _ _ (by simp [hlast])
    | append_singleton right c ih =>
      rw [← List.append_assoc, List.rdropWhile_concat_pos _ _ _ (hright c (by simp))]
      exact ih (fun d hd => hright d (List.mem_append_left _ hd))
  unfold trim
  rw [hdrop, hrdrop]

/-- A text that does not start or end with white space. -/
def Trimmed (s : String) : Prop := trim s = s

instance instDecidableTrimmed (s : String) : Decidable (Trimmed s) := inferInstanceAs (Decidable (trim s = s))

/-- No white space at the ends. -/
def SolidEnds (cs : List Char) : Prop :=
  (∀ c, cs.head? = some c → isWhitespace c = false) ∧ ∀ c, cs.getLast? = some c → isWhitespace c = false

/-- Nothing is dropped at the ends where neither end is to be dropped. -/
theorem strip_eq_self_iff {p : Char → Bool} {cs : List Char} : (cs.dropWhile p).rdropWhile p = cs ↔
    (∀ c, cs.head? = some c → p c = false) ∧ ∀ c, cs.getLast? = some c → p c = false := by
  constructor
  · intro h
    have hr := (List.rdropWhile_prefix p (l := cs.dropWhile p)).length_le
    have hl := List.dropWhile_suffix p (l := cs)
    rw [h] at hr
    have hstart : cs.dropWhile p = cs := hl.eq_of_length_le hr
    rw [hstart] at h
    constructor
    · intro c hc
      obtain ⟨rest, rfl⟩ := List.head?_eq_some_iff.mp hc
      by_contra hdropped
      rw [Bool.not_eq_false] at hdropped
      have hlength := congrArg List.length hstart
      rw [List.dropWhile_cons_of_pos hdropped, List.length_cons] at hlength
      have hle := (List.dropWhile_suffix p (l := rest)).length_le
      omega
    · intro c hc
      obtain ⟨before, rfl⟩ := List.getLast?_eq_some_iff.mp hc
      by_contra hdropped
      rw [Bool.not_eq_false] at hdropped
      have hlength := congrArg List.length h
      rw [List.rdropWhile_concat_pos _ _ _ hdropped, List.length_append, List.length_singleton] at hlength
      have hle := (List.rdropWhile_prefix p (l := before)).length_le
      omega
  · rintro ⟨hhead, hend⟩
    have hstart : cs.dropWhile p = cs := by
      rcases cs with _ | ⟨c, cs⟩
      · rfl
      · exact List.dropWhile_cons_of_neg (by rw [hhead c rfl]; decide)
    rw [hstart]
    rcases List.eq_nil_or_concat cs with rfl | ⟨before, c, rfl⟩
    · rfl
    · rw [List.concat_eq_append] at hend ⊢
      refine List.rdropWhile_concat_neg _ _ _ ?_
      rw [hend c List.getLast?_concat]
      decide

/-- What is left has nothing to be dropped at its ends. -/
theorem strip_strip (p : Char → Bool) (cs : List Char) :
    (((cs.dropWhile p).rdropWhile p).dropWhile p).rdropWhile p = (cs.dropWhile p).rdropWhile p := by
  rw [strip_eq_self_iff]
  constructor
  · intro c hc
    obtain ⟨rest, hrest⟩ := List.head?_eq_some_iff.mp hc
    obtain ⟨tail, htail⟩ := List.rdropWhile_prefix p (l := cs.dropWhile p)
    have hfirst := List.head?_dropWhile_not p cs
    rw [← htail, hrest] at hfirst
    simpa using hfirst
  · intro c hc
    obtain ⟨before, hbefore⟩ := List.getLast?_eq_some_iff.mp hc
    have hne : (cs.dropWhile p).rdropWhile p ≠ [] := by simp [hbefore]
    have hlast := List.rdropWhile_last_not p (cs.dropWhile p) hne
    rw [List.getLast?_eq_some_getLast hne, Option.some.injEq] at hc
    rw [hc] at hlast
    simpa using hlast

theorem trimmed_iff {s : String} : Trimmed s ↔ SolidEnds s.toList := by
  rw [Trimmed, trim, ← String.toList_inj, String.toList_ofList, strip_eq_self_iff]
  rfl

theorem trimmed_trim (s : String) : Trimmed (trim s) := by
  rw [Trimmed, trim, trim, String.toList_ofList, strip_strip]

/-- What starts and ends with solid text is solid at the ends. -/
theorem SolidEnds.append {xs ys zs : List Char} (hx : SolidEnds xs) (hne : xs ≠ []) (hz : SolidEnds zs) (hne' : zs ≠ []) :
    SolidEnds (xs ++ ys ++ zs) := by
  constructor
  · intro c hc
    rw [List.append_assoc, List.head?_append_of_ne_nil _ hne] at hc
    exact hx.1 c hc
  · intro c hc
    rw [List.getLast?_append_of_ne_nil _ hne'] at hc
    exact hz.2 c hc

/-- Texts that are trimmed and not empty are joined to such a text. -/
theorem trimmed_join (sep : String) {texts : List String} (h : ∀ text ∈ texts, Trimmed text ∧ text ≠ "") :
    Trimmed (join sep texts) := by
  rw [trimmed_iff, join, String.toList_ofList]
  have hsolid : texts ≠ [] → SolidEnds (sep.toList.intercalate (texts.map String.toList)) ∧
      sep.toList.intercalate (texts.map String.toList) ≠ [] := by
    induction texts with
    | nil => exact fun hne => absurd rfl hne
    | cons text texts ih =>
      intro _
      obtain ⟨htrimmed, hne⟩ := h text (List.mem_cons_self ..)
      have hsolid := trimmed_iff.mp htrimmed
      have hchars : text.toList ≠ [] := by simpa using hne
      rcases texts with _ | ⟨next, texts⟩
      · rw [List.map_cons, List.map_nil, List.intercalate_singleton]
        exact ⟨hsolid, hchars⟩
      · obtain ⟨hrest, hrestne⟩ := ih (fun text htext => h text (List.mem_cons_of_mem _ htext)) (by simp)
        rw [List.map_cons, List.map_cons, List.intercalate_cons_cons]
        rw [List.map_cons] at hrest hrestne
        exact ⟨hsolid.append hchars hrest hrestne, by simp [hchars]⟩
  rcases texts with _ | ⟨text, texts⟩
  · exact ⟨fun c hc => (by cases hc), fun c hc => (by cases hc)⟩
  · exact (hsolid (by simp)).1

/-- A text is split at the first occurrence of the separator. -/
theorem splitOnce_eq_some_iff {sep : Char} {s before after : String} :
    splitOnce sep s = some (before, after) ↔ sep ∉ before.toList ∧ s.toList = before.toList ++ sep :: after.toList := by
  unfold splitOnce containsChar
  constructor
  · intro h
    split at h
    · rename_i hmem
      have hmem := of_decide_eq_true hmem
      obtain ⟨hbefore, hafter⟩ := Prod.mk.inj (Option.some.inj h)
      rw [← hbefore, ← hafter, String.toList_ofList, String.toList_ofList]
      constructor
      · intro hsep
        have hne := List.mem_takeWhile_imp hsep
        simp at hne
      · -- what is dropped starts with the separator
        have hne : s.toList.dropWhile (· != sep) ≠ [] := by
          intro hnil
          have hall := List.dropWhile_eq_nil_iff.mp hnil sep hmem
          simp at hall
        have hhead := List.head_dropWhile_not (· != sep) hne
        have hsep : (s.toList.dropWhile (· != sep)).head hne = sep := by simpa using hhead
        have hcons := List.cons_head_tail hne
        rw [hsep] at hcons
        rw [hcons, List.takeWhile_append_dropWhile]
    · cases h
  · rintro ⟨hsep, hs⟩
    have hall : ∀ c ∈ before.toList, (c != sep) = true := by
      intro c hc
      rw [bne_iff_ne]
      rintro rfl
      exact hsep hc
    have htake : s.toList.takeWhile (· != sep) = before.toList := by
      rw [hs, List.takeWhile_append_of_pos hall, List.takeWhile_cons_of_neg (by simp), List.append_nil]
    have hdrop : s.toList.dropWhile (· != sep) = sep :: after.toList := by
      rw [hs, List.dropWhile_append_of_pos hall, List.dropWhile_cons_of_neg (by simp)]
    rw [if_pos (by simp [hs]), htake, hdrop, List.tail_cons, String.ofList_toList, String.ofList_toList]

/-! ## Lower case -/

theorem toNat_toAsciiLower (c : Char) :
    (toAsciiLower c).toNat = if 65 ≤ c.toNat ∧ c.toNat ≤ 90 then c.toNat + 32 else c.toNat := by
  have hrange : ('A' ≤ c ∧ c ≤ 'Z') ↔ 65 ≤ c.toNat ∧ c.toNat ≤ 90 :=
    and_congr UInt32.le_iff_toNat_le UInt32.le_iff_toNat_le
  have hletter : ∀ n < 26, (Char.ofNat (n + 97)).toNat = n + 97 := by decide
  unfold toAsciiLower
  simp only [hrange]
  split
  · have hlower := hletter (c.toNat - 65) (by omega)
    rwa [show c.toNat - 65 + 97 = c.toNat + 32 by omega] at hlower
  · rfl

theorem toAsciiLower_toAsciiLower (c : Char) : toAsciiLower (toAsciiLower c) = toAsciiLower c := by
  apply Char.toNat_inj.mp
  have hlower := toNat_toAsciiLower c
  rw [toNat_toAsciiLower (toAsciiLower c), if_neg]
  split at hlower <;> omega

theorem isWhitespace_toAsciiLower (c : Char) : isWhitespace (toAsciiLower c) = isWhitespace c := by
  unfold isWhitespace
  rw [toNat_toAsciiLower c]
  split
  · rw [Bool.eq_iff_iff]
    simp only [Bool.or_eq_true, Bool.and_eq_true, decide_eq_true_eq, beq_iff_eq]
    omega
  · rfl

theorem toAsciiLower_eq_iff {c sep : Char} (h : sep.toNat < 65) : toAsciiLower c = sep ↔ c = sep := by
  rw [← Char.toNat_inj, ← Char.toNat_inj, toNat_toAsciiLower]
  split <;> omega

theorem toAsciiLowercase_toAsciiLowercase (s : String) : toAsciiLowercase (toAsciiLowercase s) = toAsciiLowercase s := by
  rw [toAsciiLowercase, toAsciiLowercase, String.toList_ofList, List.map_map]
  congr 1
  exact List.map_congr_left fun c _ => toAsciiLower_toAsciiLower c

theorem trimmed_toAsciiLowercase {s : String} (h : Trimmed s) : Trimmed (toAsciiLowercase s) := by
  obtain ⟨hhead, hend⟩ := trimmed_iff.mp h
  rw [trimmed_iff, toAsciiLowercase, String.toList_ofList]
  constructor
  · intro c hc
    rw [List.head?_map] at hc
    obtain ⟨d, hd, rfl⟩ := Option.map_eq_some_iff.mp hc
    rw [isWhitespace_toAsciiLower, hhead d hd]
  · intro c hc
    rw [List.getLast?_map] at hc
    obtain ⟨d, hd, rfl⟩ := Option.map_eq_some_iff.mp hc
    rw [isWhitespace_toAsciiLower, hend d hd]

theorem toAsciiLowercase_eq_empty {s : String} : toAsciiLowercase s = "" ↔ s = "" := by
  rw [← String.toList_inj, ← String.toList_inj, toAsciiLowercase, String.toList_ofList, String.toList_empty,
    List.map_eq_nil_iff]

end Text
