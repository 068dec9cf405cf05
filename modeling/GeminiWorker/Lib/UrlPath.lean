import GeminiWorker.Lib.FormUrlencoded
import GeminiWorker.Lib.TextSearch

/-!
# Paths of special URLs

How the path of an `http` or `https` URL is written when it is set: tabs and newlines are
skipped, it is split at slashes of both kinds, each segment is percent-encoded, and dot segments
are resolved.

* `resolve_append`: segments that are not dots stay at the end as they are.
* `measurePath_foldl_push_lt`: a dot segment makes the path smaller, by any measure.
* `join_segments`: the segments joined are the text encoded byte by byte.
-/

namespace UrlPath

/-- The path percent-encode set of the URL standard. -/
def isEncoded (b : UInt8) : Bool :=
  b ≤ 32 || 127 ≤ b || b == 34 || b == 35 || b == 60 || b == 62 || b == 63 || b == 94 || b == 96 ||
    b == 123 || b == 125

def encodeByte (b : UInt8) : List UInt8 :=
  if isEncoded b then FormUrlencoded.percentEncodeByte b else [b]

/-- A slash, or the backslash that stands for one. -/
def isSlash (b : UInt8) : Bool := b == 47 || b == 92

/-- A tab or a newline. -/
def isSkipped (b : UInt8) : Bool := b == 9 || b == 10 || b == 13

/-- `.`, also percent-encoded. -/
def isSingleDot (segment : List UInt8) : Bool :=
  segment == [46] || segment == [37, 50, 101] || segment == [37, 50, 69]

/-- `..`, also percent-encoded. -/
def isDoubleDot (segment : List UInt8) : Bool :=
  segment == [46, 46] || segment == [46, 37, 50, 101] || segment == [46, 37, 50, 69] ||
    segment == [37, 50, 101, 46] || segment == [37, 50, 69, 46] ||
    segment == [37, 50, 101, 37, 50, 101] || segment == [37, 50, 101, 37, 50, 69] ||
    segment == [37, 50, 69, 37, 50, 101] || segment == [37, 50, 69, 37, 50, 69]

def isDot (segment : List UInt8) : Bool := isSingleDot segment || isDoubleDot segment

/-- Appends a segment that a slash follows. -/
def push (path : List (List UInt8)) (segment : List UInt8) : List (List UInt8) :=
  if isDoubleDot segment then path.dropLast else if isSingleDot segment then path else path ++ [segment]

/-- Appends the last segment, which stands for itself also where it is a dot segment. -/
def finish (path : List (List UInt8)) (last : List UInt8) : List (List UInt8) :=
  if isDoubleDot last then path.dropLast ++ [[]] else if isSingleDot last then path ++ [[]] else path ++ [last]

def resolve (segments : List (List UInt8)) : List (List UInt8) :=
  finish (segments.dropLast.foldl push []) (segments.getLast?.getD [])

/-- The text after the root slash. -/
def belowRoot : List UInt8 → List UInt8
  | [] => []
  | b :: rest => if isSlash b then rest else b :: rest

/-- The encoded segments of a text. -/
def segments (text : List UInt8) : List (List UInt8) :=
  ((belowRoot (text.filter fun b => !isSkipped b)).splitOnP isSlash).map fun segment => segment.flatMap encodeByte

def join (path : List (List UInt8)) : List UInt8 := 47 :: [47].intercalate path

/-- The path that a text is set to. -/
def parsePath (text : List UInt8) : List UInt8 := join (resolve (segments text))

example : parsePath (Text.bytes "/a b/./c\\~/%2E./d?") = Text.bytes "/a%20b/c/d%3F" := by decide +kernel

/-! ## Dot segments -/

theorem isDot_eq_false {segment : List UInt8} (h : isDot segment = false) :
    isDoubleDot segment = false ∧ isSingleDot segment = false := by
  rw [isDot, Bool.or_eq_false_iff] at h
  exact ⟨h.2, h.1⟩

theorem push_of_plain (path : List (List UInt8)) {segment : List UInt8} (h : isDot segment = false) :
    push path segment = path ++ [segment] := by
  obtain ⟨hdouble, hsingle⟩ := isDot_eq_false h
  rw [push, hdouble, hsingle, if_neg Bool.false_ne_true, if_neg Bool.false_ne_true]

theorem finish_of_plain (path : List (List UInt8)) {last : List UInt8} (h : isDot last = false) :
    finish path last = path ++ [last] := by
  obtain ⟨hdouble, hsingle⟩ := isDot_eq_false h
  rw [finish, hdouble, hsingle, if_neg Bool.false_ne_true, if_neg Bool.false_ne_true]

theorem foldl_push_of_plain (path : List (List UInt8)) {rest : List (List UInt8)}
    (h : ∀ segment ∈ rest, isDot segment = false) : rest.foldl push path = path ++ rest := by
  induction rest generalizing path with
  | nil => rw [List.foldl_nil, List.append_nil]
  | cons segment rest ih =>
    rw [List.foldl_cons, push_of_plain path (h segment (List.mem_cons_self ..)),
      ih _ fun s hs => h s (List.mem_cons_of_mem _ hs), List.append_assoc, List.singleton_append]

/-- **Segments that are not dots stay at the end as they are.** -/
theorem resolve_append (before : List (List UInt8)) {rest : List (List UInt8)} (hrest : rest ≠ [])
    (h : ∀ segment ∈ rest, isDot segment = false) :
    resolve (before ++ rest) = before.foldl push [] ++ rest := by
  obtain ⟨front, last, rfl⟩ := (List.eq_nil_or_concat rest).resolve_left hrest
  rw [List.concat_eq_append] at h ⊢
  have hlast : isDot last = false := h last (by simp)
  have hfront : ∀ segment ∈ front, isDot segment = false := fun s hs => h s (by simp [hs])
  rw [resolve, ← List.append_assoc, List.dropLast_concat, List.getLast?_concat, Option.getD_some,
    finish_of_plain _ hlast, List.foldl_append, foldl_push_of_plain _ hfront, List.append_assoc]

theorem mem_foldl_push {path rest : List (List UInt8)} {s : List UInt8} (hs : s ∈ rest.foldl push path) :
    s ∈ path ∨ s ∈ rest := by
  induction rest generalizing path with
  | nil => exact Or.inl hs
  | cons segment rest ih =>
    rw [List.foldl_cons] at hs
    rcases ih hs with hpath | hrest
    · unfold push at hpath
      split at hpath
      · exact Or.inl (List.dropLast_subset _ hpath)
      · split at hpath
        · exact Or.inl hpath
        · rcases List.mem_append.mp hpath with hpath | hsegment
          · exact Or.inl hpath
          · exact Or.inr (List.mem_cons.mpr (Or.inl (List.mem_singleton.mp hsegment)))
    · exact Or.inr (List.mem_cons_of_mem _ hrest)

/-- A resolved path has no segments of its own but the empty one. -/
theorem mem_resolve {segments : List (List UInt8)} {s : List UInt8} (hs : s ∈ resolve segments) :
    s = [] ∨ s ∈ segments := by
  have hfold : ∀ t ∈ segments.dropLast.foldl push [], t ∈ segments := by
    intro t ht
    rcases mem_foldl_push ht with ht | ht
    · cases ht
    · exact List.dropLast_subset _ ht
  have hlast : segments.getLast?.getD [] = [] ∨ segments.getLast?.getD [] ∈ segments := by
    rcases h : segments.getLast? with _ | last
    · exact Or.inl rfl
    · exact Or.inr (List.mem_of_getLast? h)
  unfold resolve finish at hs
  split at hs
  · rcases List.mem_append.mp hs with hs | hs
    · exact Or.inr (hfold s (List.dropLast_subset _ hs))
    · exact Or.inl (List.mem_singleton.mp hs)
  · split at hs
    · rcases List.mem_append.mp hs with hs | hs
      · exact Or.inr (hfold s hs)
      · exact Or.inl (List.mem_singleton.mp hs)
    · rcases List.mem_append.mp hs with hs | hs
      · exact Or.inr (hfold s hs)
      · rw [List.mem_singleton.mp hs]
        exact hlast

section

/- What each byte counts. -/
variable (w : UInt8 → ℕ)

def measure (text : List UInt8) : ℕ := (text.map w).sum

/-- The segments of a path, each with a slash. -/
def measurePath (path : List (List UInt8)) : ℕ := (path.map fun segment => w 47 + measure w segment).sum

variable {w}

theorem measure_append (s t : List UInt8) : measure w (s ++ t) = measure w s + measure w t := by
  rw [measure, List.map_append, List.sum_append]
  rfl

theorem measure_cons (b : UInt8) (t : List UInt8) : measure w (b :: t) = w b + measure w t := by
  rw [measure, List.map_cons, List.sum_cons]
  rfl

theorem measurePath_append (p q : List (List UInt8)) :
    measurePath w (p ++ q) = measurePath w p + measurePath w q := by
  rw [measurePath, List.map_append, List.sum_append]
  rfl

theorem measurePath_cons (s : List UInt8) (p : List (List UInt8)) :
    measurePath w (s :: p) = w 47 + measure w s + measurePath w p := by
  rw [measurePath, List.map_cons, List.sum_cons]
  rfl

theorem measurePath_singleton (s : List UInt8) : measurePath w [s] = w 47 + measure w s := rfl

theorem measure_join {path : List (List UInt8)} (h : path ≠ []) : measure w (join path) = measurePath w path := by
  induction path with
  | nil => exact absurd rfl h
  | cons s path ih =>
    rcases path with _ | ⟨t, path⟩
    · rw [join, List.intercalate_singleton, measure_cons, measurePath_singleton]
    · have hrest := ih (List.cons_ne_nil _ _)
      rw [join, measure_cons] at hrest
      rw [join, List.intercalate_cons_cons, measure_cons, List.append_assoc, measure_append, measure_append,
        measurePath_cons, ← hrest, measure_cons]
      simp only [measure, List.map_nil, List.sum_nil]
      omega

theorem measurePath_dropLast_le (path : List (List UInt8)) : measurePath w path.dropLast ≤ measurePath w path := by
  rcases List.eq_nil_or_concat path with rfl | ⟨before, last, rfl⟩
  · exact Nat.le_refl _
  · rw [List.concat_eq_append, List.dropLast_concat, measurePath_append]
    exact Nat.le_add_right _ _

theorem measurePath_push_le (path : List (List UInt8)) (segment : List UInt8) :
    measurePath w (push path segment) ≤ measurePath w path + (w 47 + measure w segment) := by
  unfold push
  split
  · have hle := @measurePath_dropLast_le w path
    omega
  · split
    · exact Nat.le_add_right _ _
    · rw [measurePath_append, measurePath_singleton]

theorem measurePath_push_lt (hw : ∀ b, 0 < w b) (path : List (List UInt8)) {segment : List UInt8}
    (h : isDot segment = true) :
    measurePath w (push path segment) < measurePath w path + (w 47 + measure w segment) := by
  have hslash := hw 47
  have hle := @measurePath_dropLast_le w path
  unfold push
  split
  · omega
  · split
    · omega
    · rename_i hdouble hsingle
      rw [isDot, Bool.eq_false_iff.mpr hdouble, Bool.eq_false_iff.mpr hsingle] at h
      cases h

theorem measurePath_foldl_push_le (path rest : List (List UInt8)) :
    measurePath w (rest.foldl push path) ≤ measurePath w path + measurePath w rest := by
  induction rest generalizing path with
  | nil => exact Nat.le_add_right _ _
  | cons segment rest ih =>
    have hpush := @measurePath_push_le w path segment
    have hrest := ih (push path segment)
    rw [List.foldl_cons, measurePath_cons segment]
    omega

/-- **A dot segment makes the path smaller.** -/
theorem measurePath_foldl_push_lt (hw : ∀ b, 0 < w b) (path : List (List UInt8)) {rest : List (List UInt8)}
    (h : ∃ segment ∈ rest, isDot segment = true) :
    measurePath w (rest.foldl push path) < measurePath w path + measurePath w rest := by
  induction rest generalizing path with
  | nil =>
    obtain ⟨segment, hsegment, -⟩ := h
    cases hsegment
  | cons segment rest ih =>
    have hpush := @measurePath_push_le w path segment
    rw [List.foldl_cons, measurePath_cons segment]
    obtain ⟨dot, hmem, hdot⟩ := h
    rcases List.mem_cons.mp hmem with rfl | hmem
    · have hlt := measurePath_push_lt hw path hdot
      have hrest := @measurePath_foldl_push_le w (push path dot) rest
      omega
    · have hrest := ih (push path segment) ⟨dot, hmem, hdot⟩
      omega

end

/-! ## The segments joined -/

/-- What is written for one byte between the slashes. -/
def writeByte (b : UInt8) : List UInt8 :=
  if isSkipped b then [] else if isSlash b then [47] else encodeByte b

/-- Segments that are written byte by byte, joined. -/
theorem intercalate_splitOnP (p : UInt8 → Bool) (f : UInt8 → List UInt8) (text : List UInt8) :
    [47].intercalate ((text.splitOnP p).map fun segment => segment.flatMap f) =
      text.flatMap fun b => if p b then [47] else f b := by
  induction text with
  | nil => rfl
  | cons b text ih =>
    obtain ⟨head, tail, hsplit⟩ := List.exists_cons_of_ne_nil (List.splitOnP_ne_nil p text)
    rw [List.splitOnP_cons_eq_if_modifyHead, List.flatMap_cons, ← ih, hsplit]
    by_cases hb : p b = true
    · rw [if_pos hb, if_pos hb, List.map_cons, List.map_cons, List.intercalate_cons_cons]
      rfl
    · rw [if_neg hb, if_neg hb, List.modifyHead_cons, List.map_cons, List.map_cons, List.flatMap_cons]
      rcases tail with _ | ⟨next, tail⟩
      · simp only [List.map_nil, List.intercalate_singleton]
      · simp only [List.map_cons, List.intercalate_cons_cons, List.append_assoc]

theorem join_inj {p q : List (List UInt8)} (hp : p ≠ []) (hq : q ≠ []) (hp47 : ∀ s ∈ p, 47 ∉ s)
    (hq47 : ∀ s ∈ q, 47 ∉ s) (h : join p = join q) : p = q := by
  have hintercalate : [47].intercalate p = [47].intercalate q := List.tail_eq_of_cons_eq h
  rw [← List.splitOn_intercalate 47 hp47 hp, hintercalate, List.splitOn_intercalate 47 hq47 hq]

/-- What is skipped writes nothing. -/
theorem flatMap_writeByte_filter (text : List UInt8) :
    (text.filter fun b => !isSkipped b).flatMap writeByte = text.flatMap writeByte := by
  induction text with
  | nil => rfl
  | cons b text ih =>
    by_cases hb : isSkipped b = true
    · rw [List.filter_cons_of_neg (by simp [hb]), ih, List.flatMap_cons, writeByte, if_pos hb, List.nil_append]
    · rw [List.filter_cons_of_pos (by simp [hb]), List.flatMap_cons, List.flatMap_cons, ih]

theorem belowRoot_subset (text : List UInt8) : belowRoot text ⊆ text := by
  rcases text with _ | ⟨b, rest⟩
  · exact List.Subset.refl _
  · by_cases hb : isSlash b = true
    · rw [belowRoot, if_pos hb]
      exact List.subset_cons_self b rest
    · rw [belowRoot, if_neg hb]
      exact List.Subset.refl _

/-- **The segments joined are the text below the root, byte by byte.** -/
theorem join_segments (text : List UInt8) :
    join (segments text) = 47 :: (belowRoot (text.filter fun b => !isSkipped b)).flatMap writeByte := by
  rw [join, segments, intercalate_splitOnP]
  congr 1
  apply List.flatMap_congr
  intro b hb
  have hkept : isSkipped b = false := by simpa using (List.mem_filter.mp (belowRoot_subset _ hb)).2
  rw [writeByte, hkept]
  rfl

/-- The segments below a slash are those of what follows it. -/
theorem segments_append {text : List UInt8} (htext : text.filter (fun b => !isSkipped b) ≠ []) (rest : List UInt8) :
    segments (text ++ 47 :: rest) = segments text ++
      ((rest.filter fun b => !isSkipped b).splitOnP isSlash).map fun segment => segment.flatMap encodeByte := by
  have hbelow : ∀ input : List UInt8, input ≠ [] → ∀ more, belowRoot (input ++ more) = belowRoot input ++ more := by
    intro input hinput more
    obtain ⟨b, input, rfl⟩ := List.exists_cons_of_ne_nil hinput
    rw [List.cons_append, belowRoot, belowRoot]
    split <;> rfl
  have hslash : isSlash 47 = true := by decide
  rw [segments, List.filter_append, List.filter_cons_of_pos (by decide), hbelow _ htext,
    List.splitOnP_append_cons _ _ hslash, List.map_append]
  rfl

theorem segments_ne_nil (text : List UInt8) : segments text ≠ [] := by
  rw [segments, ne_eq, List.map_eq_nil_iff]
  exact List.splitOnP_ne_nil _ _

/-! ## What the segments contain -/

theorem splitOnP_congr {p q : UInt8 → Bool} {text : List UInt8} (h : ∀ b ∈ text, p b = q b) :
    text.splitOnP p = text.splitOnP q := by
  induction text with
  | nil => rfl
  | cons b text ih =>
    rw [List.splitOnP_cons_eq_if_modifyHead, List.splitOnP_cons_eq_if_modifyHead, h b (List.mem_cons_self ..),
      ih fun c hc => h c (List.mem_cons_of_mem _ hc)]

theorem length_splitOnP (p : UInt8 → Bool) (text : List UInt8) :
    (text.splitOnP p).length = text.countP p + 1 := by
  induction text with
  | nil => rfl
  | cons c text ih =>
    rw [List.splitOnP_cons_eq_if_modifyHead]
    by_cases hc : p c = true
    · rw [if_pos hc, List.countP_cons_of_pos hc, List.length_cons, ih]
    · rw [if_neg hc, List.countP_cons_of_neg hc, List.length_modifyHead, ih]

/-- Text that contains no encoded byte is the encoding of itself only. -/
theorem eq_of_flatMap_encodeByte {segment text : List UInt8}
    (htext : ∀ t ∈ text.tails, ∀ b, isEncoded b = true → ¬ FormUrlencoded.percentEncodeByte b <+: t)
    (h : segment.flatMap encodeByte = text) : segment = text := by
  induction segment generalizing text with
  | nil => exact h
  | cons b segment ih =>
    rw [List.flatMap_cons] at h
    by_cases hb : isEncoded b = true
    · rw [encodeByte, if_pos hb] at h
      exact absurd ⟨_, h⟩ (htext text ((List.mem_tails _ _).mpr (List.suffix_refl text)) b hb)
    · rw [encodeByte, if_neg hb, List.singleton_append] at h
      subst h
      have hrest := ih (fun t ht => htext t
        ((List.mem_tails _ _).mpr (((List.mem_tails _ _).mp ht).trans (List.suffix_cons ..)))) rfl
      exact congrArg (b :: ·) hrest

def dotSegments : List (List UInt8) :=
  [[46], [37, 50, 101], [37, 50, 69], [46, 46], [46, 37, 50, 101], [46, 37, 50, 69], [37, 50, 101, 46],
    [37, 50, 69, 46], [37, 50, 101, 37, 50, 101], [37, 50, 101, 37, 50, 69], [37, 50, 69, 37, 50, 101],
    [37, 50, 69, 37, 50, 69]]

theorem isDot_iff (segment : List UInt8) : isDot segment = true ↔ segment ∈ dotSegments := by
  simp only [isDot, isSingleDot, isDoubleDot, dotSegments, Bool.or_eq_true, beq_iff_eq, List.mem_cons,
    List.not_mem_nil, or_false, or_assoc]

/-- **Encoding makes no dot segments**, and keeps those there are. -/
theorem isDot_flatMap_encodeByte (segment : List UInt8) :
    isDot (segment.flatMap encodeByte) = isDot segment := by
  have hkept : ∀ dot ∈ dotSegments, dot.flatMap encodeByte = dot := by decide
  have hunencoded : ∀ b : UInt8, ∀ dot ∈ dotSegments, ∀ t ∈ dot.tails, isEncoded b = true →
      ¬ FormUrlencoded.percentEncodeByte b <+: t := by
    intro b
    apply FormUrlencoded.forall_byte _ b
    decide +kernel
  rw [Bool.eq_iff_iff, isDot_iff, isDot_iff]
  constructor
  · intro h
    rwa [eq_of_flatMap_encodeByte (fun t ht b => hunencoded b _ h t ht) rfl]
  · intro h
    rwa [hkept segment h]

/-- No slash is written within a segment. -/
theorem slash_notMem_segment {text s : List UInt8} (hs : s ∈ segments text) : 47 ∉ s := by
  obtain ⟨segment, hsegment, rfl⟩ := List.mem_map.mp hs
  intro hmem
  obtain ⟨b, hb, hwritten⟩ := List.mem_flatMap.mp hmem
  have hall : ∀ b : UInt8, 47 ∈ encodeByte b → b = 47 := by
    intro b
    apply FormUrlencoded.forall_byte _ b
    decide +kernel
  rw [hall b hwritten] at hb
  obtain ⟨-, hslash⟩ := Text.mem_of_mem_splitOnP hsegment 47 hb
  revert hslash
  decide

end UrlPath
