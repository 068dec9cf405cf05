import GeminiWorker.Lib.Base64

/-!
# Decoding base64

The standard alphabet, with padding that must be there and bits that must be zero.

* `decode_append`: groups before the last one are decoded on their own, unless they are padded.
* `decode_padded_append`: padding is accepted at the end only.
* `decode_eq_some_iff`: the only text that is decoded to given bytes is the one they are encoded to.
-/

namespace Base64

/-- The sextet of a character. -/
def sextet (c : UInt8) : Option ℕ :=
  if 65 ≤ c ∧ c ≤ 90 then some (c.toNat - 65)
  else if 97 ≤ c ∧ c ≤ 122 then some (c.toNat - 71)
  else if 48 ≤ c ∧ c ≤ 57 then some (c.toNat + 4)
  else if c = 43 then some 62
  else if c = 47 then some 63
  else none

/-- The character `=`. -/
def pad : UInt8 := 61

/-- A group without padding. -/
def decodeGroup (a b c d : UInt8) : Option (List UInt8) := do
  let a ← sextet a
  let b ← sextet b
  let c ← sextet c
  let d ← sextet d
  return [(a * 4 + b / 16).toUInt8, (b % 16 * 16 + c / 4).toUInt8, (c % 4 * 64 + d).toUInt8]

/-- The last group, which may be padded. -/
def decodeLast (a b c d : UInt8) : Option (List UInt8) :=
  if d ≠ pad then decodeGroup a b c d
  else if c ≠ pad then do
    let a ← sextet a
    let b ← sextet b
    let c ← sextet c
    if c % 4 = 0 then return [(a * 4 + b / 16).toUInt8, (b % 16 * 16 + c / 4).toUInt8] else none
  else do
    let a ← sextet a
    let b ← sextet b
    if b % 16 = 0 then return [(a * 4 + b / 16).toUInt8] else none

/-- `STANDARD.decode`. -/
def decode : List UInt8 → Option (List UInt8)
  | [] => some []
  | [a, b, c, d] => decodeLast a b c d
  | a :: b :: c :: d :: rest => do
    let group ← decodeGroup a b c d
    let rest ← decode rest
    return group ++ rest
  | _ => none

example : decode (Text.bytes "Zm9vYg==") = some (Text.bytes "foob") ∧ decode (Text.bytes "Zm9=Zm9v") = none ∧
    decode (Text.bytes "Zm9vYh==") = none := by
  decide +kernel

theorem decode_cons {a b c d : UInt8} {rest : List UInt8} (hrest : rest ≠ []) :
    decode (a :: b :: c :: d :: rest) =
      (decodeGroup a b c d).bind fun group => (decode rest).bind fun bytes => some (group ++ bytes) := by
  rw [decode]
  · rfl
  · exact hrest

theorem sextet_pad : sextet pad = none := by decide

/-- A group that ends with padding is not one without. -/
theorem decodeGroup_pad (a b c : UInt8) : decodeGroup a b c pad = none := by
  unfold decodeGroup
  rw [sextet_pad]
  rcases sextet a with _ | a <;> rcases sextet b with _ | b <;> rcases sextet c with _ | c <;> rfl

theorem decodeLast_of_ne_pad {a b c d : UInt8} (hd : d ≠ pad) : decodeLast a b c d = decodeGroup a b c d :=
  if_pos hd

/-- Splits a text that ends in a whole group. -/
theorem exists_group {text : List UInt8} (h4 : text.length % 4 = 0) (hne : text ≠ []) :
    ∃ a b c d rest, text = a :: b :: c :: d :: rest ∧ rest.length % 4 = 0 := by
  rcases text with _ | ⟨a, _ | ⟨b, _ | ⟨c, _ | ⟨d, rest⟩⟩⟩⟩
  · exact absurd rfl hne
  · simp at h4
  · simp at h4
  · simp at h4
  · refine ⟨a, b, c, d, rest, rfl, ?_⟩
    simp only [List.length_cons] at h4
    omega

theorem getLast?_group {a b c d : UInt8} {rest : List UInt8} (hrest : rest ≠ []) :
    (a :: b :: c :: d :: rest).getLast? = rest.getLast? := by
  obtain ⟨e, es, rfl⟩ := List.exists_cons_of_ne_nil hrest
  simp only [List.getLast?_cons_cons]

/-- **Groups without padding are decoded on their own.** -/
theorem decode_append {whole rest : List UInt8} (h4 : whole.length % 4 = 0) (hrest : rest ≠ [])
    (hpad : whole.getLast? ≠ some pad) :
    decode (whole ++ rest) =
      (decode whole).bind fun bytes => (decode rest).bind fun more => some (bytes ++ more) := by
  induction hn : whole.length using Nat.strong_induction_on generalizing whole with
  | _ n ih =>
    by_cases hwhole : whole = []
    · subst hwhole
      rw [List.nil_append, decode, Option.bind_some]
      rcases decode rest with _ | more <;> rfl
    · obtain ⟨a, b, c, d, tail, rfl, htail4⟩ := exists_group h4 hwhole
      have happend : tail ++ rest ≠ [] := List.append_ne_nil_of_right_ne_nil tail hrest
      rw [List.cons_append, List.cons_append, List.cons_append, List.cons_append, decode_cons happend]
      by_cases htail : tail = []
      · -- the last group of `whole` is not padded
        subst htail
        have hd : d ≠ pad := fun h => hpad (by rw [h]; rfl)
        rw [List.nil_append, decode, decodeLast_of_ne_pad hd]
      · rw [getLast?_group htail] at hpad
        rw [decode_cons htail, ih tail.length (by simp only [List.length_cons] at hn; omega) htail4 hpad rfl]
        rcases decodeGroup a b c d with _ | group <;> simp only [Option.bind_none, Option.bind_some]
        rcases decode tail with _ | bytes <;> simp only [Option.bind_none, Option.bind_some]
        rcases decode rest with _ | more <;> simp only [Option.bind_none, Option.bind_some]
        rw [List.append_assoc]

/-- **Padding is accepted at the end only.** -/
theorem decode_padded_append {whole rest : List UInt8} (h4 : whole.length % 4 = 0) (hrest : rest ≠ [])
    (hpad : whole.getLast? = some pad) : decode (whole ++ rest) = none := by
  induction hn : whole.length using Nat.strong_induction_on generalizing whole with
  | _ n ih =>
    have hwhole : whole ≠ [] := fun h => by
      rw [h] at hpad
      cases hpad
    obtain ⟨a, b, c, d, tail, rfl, htail4⟩ := exists_group h4 hwhole
    have happend : tail ++ rest ≠ [] := List.append_ne_nil_of_right_ne_nil tail hrest
    rw [List.cons_append, List.cons_append, List.cons_append, List.cons_append, decode_cons happend]
    by_cases htail : tail = []
    · subst htail
      have hd : d = pad := Option.some.inj hpad
      rw [hd, decodeGroup_pad, Option.bind_none]
    · rw [getLast?_group htail] at hpad
      rw [ih tail.length (by simp only [List.length_cons] at hn; omega) htail4 hpad rfl]
      rcases decodeGroup a b c d with _ | group <;> rfl

/-! ## Lengths -/

/-- The number of padding characters at the end. -/
def padding (text : List UInt8) : ℕ :=
  if [pad, pad] <:+ text then 2 else if [pad] <:+ text then 1 else 0

theorem length_decodeGroup {a b c d : UInt8} {bytes : List UInt8} (h : decodeGroup a b c d = some bytes) :
    bytes.length = 3 := by
  unfold decodeGroup at h
  rcases ha : sextet a with _ | a' <;> rcases hb : sextet b with _ | b' <;>
    rcases hc : sextet c with _ | c' <;> rcases hd : sextet d with _ | d' <;>
    rw [ha, hb, hc, hd] at h <;> cases h
  rfl

theorem suffix_pair_iff (x y a b : UInt8) (l : List UInt8) :
    [x, y] <:+ l ++ [a, b] ↔ x = a ∧ y = b := by
  constructor
  · intro h
    have hreverse := List.reverse_prefix.mpr h
    simp only [List.reverse_append, List.reverse_cons, List.reverse_nil, List.nil_append,
      List.cons_append, List.cons_prefix_cons] at hreverse
    exact ⟨hreverse.2.1, hreverse.1⟩
  · rintro ⟨rfl, rfl⟩
    exact List.suffix_append l [x, y]

theorem suffix_single_iff (x a : UInt8) (l : List UInt8) : [x] <:+ l ++ [a] ↔ x = a := by
  constructor
  · intro h
    have hreverse := List.reverse_prefix.mpr h
    simp only [List.reverse_append, List.reverse_cons, List.reverse_nil, List.nil_append,
      List.cons_append, List.cons_prefix_cons] at hreverse
    exact hreverse.1
  · rintro rfl
    exact List.suffix_append l [x]

/-- The padding of a text is that of its last group. -/
theorem padding_last (before : List UInt8) (a b c d : UInt8) :
    padding (before ++ [a, b, c, d]) = if d ≠ pad then 0 else if c ≠ pad then 1 else 2 := by
  have hpair : [pad, pad] <:+ before ++ [a, b, c, d] ↔ pad = c ∧ pad = d := by
    rw [show before ++ [a, b, c, d] = (before ++ [a, b]) ++ [c, d] by simp]
    exact suffix_pair_iff ..
  have hsingle : [pad] <:+ before ++ [a, b, c, d] ↔ pad = d := by
    rw [show before ++ [a, b, c, d] = (before ++ [a, b, c]) ++ [d] by simp]
    exact suffix_single_iff ..
  simp only [padding, hpair, hsingle]
  by_cases hd : d = pad <;> by_cases hc : c = pad <;> simp [hd, hc, eq_comm]

/-- What is decoded is as long as the text and its padding say. -/
theorem length_decode {text bytes : List UInt8} (h : decode text = some bytes) :
    text.length % 4 = 0 ∧ bytes.length + padding text = text.length / 4 * 3 := by
  induction hn : text.length using Nat.strong_induction_on generalizing text bytes with
  | _ n ih =>
    subst hn
    rcases text with _ | ⟨a, _ | ⟨b, _ | ⟨c, _ | ⟨d, rest⟩⟩⟩⟩
    · obtain rfl := Option.some.inj h
      exact ⟨rfl, by decide⟩
    · cases h
    · cases h
    · cases h
    · by_cases hrest : rest = []
      · subst hrest
        have hpadding := padding_last [] a b c d
        rw [List.nil_append] at hpadding
        rw [decode] at h
        refine ⟨by simp, ?_⟩
        have hlength : [a, b, c, d].length / 4 * 3 = 3 := by simp
        rw [hpadding, hlength]
        unfold decodeLast at h
        split at h
        · rename_i hd
          rw [if_pos hd, length_decodeGroup h]
        · rename_i hd
          rw [if_neg hd]
          split at h
          · rename_i hc
            rw [if_pos hc]
            rcases ha : sextet a with _ | a' <;> rcases hb : sextet b with _ | b' <;>
              rcases hc : sextet c with _ | c' <;> rw [ha, hb, hc] at h <;>
              simp only [Option.bind_eq_bind, Option.bind_none, Option.bind_some, reduceCtorEq] at h
            split at h
            · obtain rfl := Option.some.inj h
              rfl
            · cases h
          · rename_i hc
            rw [if_neg hc]
            rcases ha : sextet a with _ | a' <;> rcases hb : sextet b with _ | b' <;> rw [ha, hb] at h <;>
              simp only [Option.bind_eq_bind, Option.bind_none, Option.bind_some, reduceCtorEq] at h
            split at h
            · obtain rfl := Option.some.inj h
              rfl
            · cases h
      · rw [decode_cons hrest] at h
        obtain ⟨group, hgroup, h⟩ := Option.bind_eq_some_iff.mp h
        obtain ⟨more, hmore, h⟩ := Option.bind_eq_some_iff.mp h
        obtain rfl := Option.some.inj h
        obtain ⟨hrest4, hlength⟩ := ih rest.length (by simp only [List.length_cons]; omega) hmore rfl
        have hsame : padding (a :: b :: c :: d :: rest) = padding rest := by
          obtain ⟨before, last, hlast⟩ : ∃ before last : List UInt8, rest = before ++ last ∧ last.length = 4 := by
            refine ⟨rest.take (rest.length - 4), rest.drop (rest.length - 4), (List.take_append_drop _ _).symm, ?_⟩
            have hpos := List.length_pos_of_ne_nil hrest
            rw [List.length_drop]
            omega
          obtain ⟨rfl, hlength4⟩ := hlast
          obtain ⟨w, x, y, z, rfl⟩ : ∃ w x y z, last = [w, x, y, z] := by
            rcases last with _ | ⟨w, _ | ⟨x, _ | ⟨y, _ | ⟨z, _ | ⟨v, l⟩⟩⟩⟩⟩ <;> simp at hlength4
            exact ⟨w, x, y, z, rfl⟩
          rw [padding_last, show a :: b :: c :: d :: (before ++ [w, x, y, z]) =
            (a :: b :: c :: d :: before) ++ [w, x, y, z] from rfl, padding_last]
        rw [hsame, List.length_append, length_decodeGroup hgroup]
        simp only [List.length_cons]
        constructor
        · omega
        · omega

/-! ## Round trip -/

/-- The character of a sextet, as a byte. -/
def code (n : ℕ) : UInt8 := (alphabet n).toNat.toUInt8

theorem sextet_code : ∀ n < 64, sextet (code n) = some n ∧ code n ≠ pad := by decide +kernel

theorem sextet_eq_some {c : UInt8} {n : ℕ} (h : sextet c = some n) : n < 64 ∧ code n = c := by
  have hall : ∀ m < 256, (sextet m.toUInt8).all (fun n => n < 64 ∧ code n = m.toUInt8) = true := by decide +kernel
  have hc := hall c.toNat c.toNat_lt
  have hself : c.toNat.toUInt8 = c := UInt8.ofNat_toNat
  rw [hself, h] at hc
  exact of_decide_eq_true hc

theorem toUInt8_eq {n : ℕ} {b : UInt8} (h : n = b.toNat) : n.toUInt8 = b := by
  rw [h]
  exact UInt8.ofNat_toNat

theorem toNat_toUInt8 {n : ℕ} (h : n < 256) : n.toUInt8.toNat = n := UInt8.toNat_ofNat_of_lt' h

theorem encode_three (a b c : UInt8) (rest : List UInt8) : encode (a :: b :: c :: rest) =
    code (a.toNat / 4) :: code (a.toNat % 4 * 16 + b.toNat / 16) :: code (b.toNat % 16 * 4 + c.toNat / 64) ::
      code (c.toNat % 64) :: encode rest := rfl

theorem encode_two (a b : UInt8) : encode [a, b] =
    [code (a.toNat / 4), code (a.toNat % 4 * 16 + b.toNat / 16), code (b.toNat % 16 * 4), pad] := rfl

theorem encode_one (a : UInt8) : encode [a] = [code (a.toNat / 4), code (a.toNat % 4 * 16), pad, pad] := rfl

theorem decodeGroup_code (a b c : UInt8) : decodeGroup (code (a.toNat / 4)) (code (a.toNat % 4 * 16 + b.toNat / 16))
    (code (b.toNat % 16 * 4 + c.toNat / 64)) (code (c.toNat % 64)) = some [a, b, c] := by
  have ha := a.toNat_lt
  have hb := b.toNat_lt
  have hc := c.toNat_lt
  unfold decodeGroup
  rw [(sextet_code _ (by omega)).1, (sextet_code _ (by omega)).1, (sextet_code _ (by omega)).1,
    (sextet_code _ (by omega)).1]
  have ha' := @toUInt8_eq (a.toNat / 4 * 4 + (a.toNat % 4 * 16 + b.toNat / 16) / 16) a (by omega)
  have hb' := @toUInt8_eq ((a.toNat % 4 * 16 + b.toNat / 16) % 16 * 16 + (b.toNat % 16 * 4 + c.toNat / 64) / 4) b (by omega)
  have hc' := @toUInt8_eq ((b.toNat % 16 * 4 + c.toNat / 64) % 4 * 64 + c.toNat % 64) c (by omega)
  simp only [Option.bind_eq_bind, Option.bind_some, ha', hb', hc']
  rfl

/-- What is encoded is decoded again. -/
theorem decode_encode (bytes : List UInt8) : decode (encode bytes) = some bytes := by
  induction bytes using encodeChars.induct with
  | case1 a b c rest ih =>
    have hc := c.toNat_lt
    have hlast := (sextet_code (c.toNat % 64) (by omega)).2
    rw [encode_three]
    by_cases hrest : rest = []
    · rw [hrest, encode_nil, decode, decodeLast_of_ne_pad hlast, decodeGroup_code]
    · have hne : encode rest ≠ [] := by
        have hlength := length_encode rest
        have hpos := List.length_pos_of_ne_nil hrest
        exact List.ne_nil_of_length_pos (by omega)
      rw [decode_cons hne, decodeGroup_code, ih]
      rfl
  | case2 a b =>
    have ha := a.toNat_lt
    have hb := b.toNat_lt
    have hthird := (sextet_code (b.toNat % 16 * 4) (by omega)).2
    have ha' := @toUInt8_eq (a.toNat / 4 * 4 + (a.toNat % 4 * 16 + b.toNat / 16) / 16) a (by omega)
    have hb' := @toUInt8_eq ((a.toNat % 4 * 16 + b.toNat / 16) % 16 * 16 + (b.toNat % 16 * 4) / 4) b (by omega)
    rw [encode_two, decode, decodeLast, if_neg (not_not.mpr rfl), if_pos hthird, (sextet_code _ (by omega)).1,
      (sextet_code _ (by omega)).1, (sextet_code _ (by omega)).1]
    have hzero : b.toNat % 16 * 4 % 4 = 0 := by omega
    simp only [Option.bind_eq_bind, Option.bind_some, hzero, if_true, ha', hb']
    rfl
  | case3 a =>
    have ha := a.toNat_lt
    have ha' := @toUInt8_eq (a.toNat / 4 * 4 + a.toNat % 4 * 16 / 16) a (by omega)
    rw [encode_one, decode, decodeLast, if_neg (not_not.mpr rfl), if_neg (not_not.mpr rfl), (sextet_code _ (by omega)).1,
      (sextet_code _ (by omega)).1]
    have hzero : a.toNat % 4 * 16 % 16 = 0 := by omega
    simp only [Option.bind_eq_bind, Option.bind_some, hzero, if_true, ha']
    rfl
  | case4 => rw [encode_nil, decode]

/-- The characters of a group that is decoded. -/
theorem encode_of_decodeGroup {a b c d : UInt8} {bytes : List UInt8} (h : decodeGroup a b c d = some bytes) :
    ∃ x y z, bytes = [x, y, z] ∧ encode [x, y, z] = [a, b, c, d] := by
  unfold decodeGroup at h
  simp only [Option.bind_eq_bind, Option.bind_eq_some_iff] at h
  obtain ⟨a', ha, b', hb, c', hc, d', hd, hbytes⟩ := h
  obtain ⟨ha, rfl⟩ := sextet_eq_some ha
  obtain ⟨hb, rfl⟩ := sextet_eq_some hb
  obtain ⟨hc, rfl⟩ := sextet_eq_some hc
  obtain ⟨hd, rfl⟩ := sextet_eq_some hd
  refine ⟨_, _, _, (Option.some.inj hbytes).symm, ?_⟩
  have ha' : (a' * 4 + b' / 16) / 4 = a' := by omega
  have hb' : (a' * 4 + b' / 16) % 4 * 16 + (b' % 16 * 16 + c' / 4) / 16 = b' := by omega
  have hc' : (b' % 16 * 16 + c' / 4) % 16 * 4 + (c' % 4 * 64 + d') / 64 = c' := by omega
  have hd' : (c' % 4 * 64 + d') % 64 = d' := by omega
  rw [encode_three, encode_nil, toNat_toUInt8 (by omega), toNat_toUInt8 (by omega), toNat_toUInt8 (by omega), ha', hb', hc',
    hd']

/-- What is decoded is encoded to the same text. -/
theorem encode_of_decode {text bytes : List UInt8} (h : decode text = some bytes) : encode bytes = text := by
  induction hn : text.length using Nat.strong_induction_on generalizing text bytes with
  | _ n ih =>
    subst hn
    rcases text with _ | ⟨a, _ | ⟨b, _ | ⟨c, _ | ⟨d, rest⟩⟩⟩⟩
    · obtain rfl := Option.some.inj h
      exact encode_nil
    · cases h
    · cases h
    · cases h
    · by_cases hrest : rest = []
      · subst hrest
        rw [decode] at h
        by_cases hd : d = pad
        · subst hd
          rw [decodeLast, if_neg (not_not.mpr rfl)] at h
          by_cases hc : c = pad
          · subst hc
            rw [if_neg (not_not.mpr rfl)] at h
            simp only [Option.bind_eq_bind, Option.bind_eq_some_iff] at h
            obtain ⟨a', ha, b', hb, h⟩ := h
            obtain ⟨ha, rfl⟩ := sextet_eq_some ha
            obtain ⟨hb, rfl⟩ := sextet_eq_some hb
            by_cases hzero : b' % 16 = 0
            · rw [if_pos hzero] at h
              have ha' : (a' * 4 + b' / 16) / 4 = a' := by omega
              have hb' : (a' * 4 + b' / 16) % 4 * 16 = b' := by omega
              rw [← Option.some.inj h, encode_one, toNat_toUInt8 (by omega), ha', hb']
            · rw [if_neg hzero] at h
              cases h
          · rw [if_pos hc] at h
            simp only [Option.bind_eq_bind, Option.bind_eq_some_iff] at h
            obtain ⟨a', ha, b', hb, c', hc, h⟩ := h
            obtain ⟨ha, rfl⟩ := sextet_eq_some ha
            obtain ⟨hb, rfl⟩ := sextet_eq_some hb
            obtain ⟨hc, rfl⟩ := sextet_eq_some hc
            by_cases hzero : c' % 4 = 0
            · rw [if_pos hzero] at h
              have ha' : (a' * 4 + b' / 16) / 4 = a' := by omega
              have hb' : (a' * 4 + b' / 16) % 4 * 16 + (b' % 16 * 16 + c' / 4) / 16 = b' := by omega
              have hc' : (b' % 16 * 16 + c' / 4) % 16 * 4 = c' := by omega
              rw [← Option.some.inj h, encode_two, toNat_toUInt8 (by omega), toNat_toUInt8 (by omega), ha', hb', hc']
            · rw [if_neg hzero] at h
              cases h
        · rw [decodeLast_of_ne_pad hd] at h
          obtain ⟨x, y, z, rfl, hencode⟩ := encode_of_decodeGroup h
          exact hencode
      · rw [decode_cons hrest] at h
        obtain ⟨group, hgroup, h⟩ := Option.bind_eq_some_iff.mp h
        obtain ⟨more, hmore, h⟩ := Option.bind_eq_some_iff.mp h
        obtain rfl := Option.some.inj h
        obtain ⟨x, y, z, rfl, hencode⟩ := encode_of_decodeGroup hgroup
        have hmore' := ih rest.length (by simp only [List.length_cons]; omega) hmore rfl
        have hwhole : [x, y, z].length % 3 = 0 := by simp
        rw [encode_append more hwhole, hencode, hmore']
        rfl

/-- **The text that is decoded to given bytes is the one they are encoded to.** -/
theorem decode_eq_some_iff {text bytes : List UInt8} : decode text = some bytes ↔ text = encode bytes := by
  constructor
  · intro h
    exact (encode_of_decode h).symm
  · rintro rfl
    exact decode_encode bytes

end Base64
