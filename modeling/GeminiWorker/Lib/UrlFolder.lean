import GeminiWorker.Lib.UrlPath
import Mathlib.Data.List.Induction
import Mathlib.Order.Nat

/-!
# Walks below a folder

Where a path ends that is written below a folder: dot segments can climb out of it and enter it again.

* `getElem?_foldl_push`: a name stays where it is unless a walk climbs to it and does not enter by it.
* `below_iff`: the path is below the folder exactly if its walk keeps every name of the folder.
-/

namespace UrlPath

/-- How deep a walk ends. -/
def depth (start : ℕ) (segments : List (List UInt8)) : ℕ :=
  segments.foldl (fun level segment =>
    if isDoubleDot segment then level - 1 else if isSingleDot segment then level else level + 1) start

/-- A walk from a depth never climbs to a level, or enters it by the given name and stays below from then on. -/
def Keeps (start level : ℕ) (name : List UInt8) (segments : List (List UInt8)) : Prop :=
  (∀ walked, walked <+: segments → level < depth start walked) ∨
    ∃ before after, segments = before ++ name :: after ∧ depth start before = level ∧
      ∀ walked, walked <+: after → level < depth (level + 1) walked

section

variable {start level : ℕ} {path segments : List (List UInt8)} {segment name : List UInt8}

theorem depth_append (start : ℕ) (s t : List (List UInt8)) : depth start (s ++ t) = depth (depth start s) t :=
  List.foldl_append

theorem depth_cons_of_plain (start : ℕ) (hname : isDot name = false) (t : List (List UInt8)) :
    depth start (name :: t) = depth (start + 1) t := by
  obtain ⟨hdouble, hsingle⟩ := isDot_eq_false hname
  rw [depth, List.foldl_cons, hdouble, hsingle, if_neg Bool.false_ne_true, if_neg Bool.false_ne_true]
  rfl

theorem length_push (path : List (List UInt8)) (segment : List UInt8) :
    (push path segment).length = depth path.length [segment] := by
  unfold push
  show _ = if isDoubleDot segment then path.length - 1 else if isSingleDot segment then path.length else path.length + 1
  split
  · rw [List.length_dropLast]
  · split
    · rfl
    · rw [List.length_append, List.length_singleton]

theorem length_foldl_push (path segments : List (List UInt8)) :
    (segments.foldl push path).length = depth path.length segments := by
  induction segments using List.reverseRec with
  | nil => rfl
  | append_singleton segments segment ih =>
    rw [depth_append, List.foldl_append, List.foldl_cons, List.foldl_nil, length_push, ih]

/-- One more segment. -/
theorem keeps_concat_iff (hname : isDot name = false) : Keeps start level name (segments ++ [segment]) ↔
    (Keeps start level name segments ∧ level < depth start (segments ++ [segment])) ∨
      (depth start segments = level ∧ segment = name) := by
  have hentered {before after : List (List UInt8)} (hbefore : depth start before = level) :
      depth start (before ++ name :: after) = depth (level + 1) after := by
    rw [depth_append, hbefore, depth_cons_of_plain level hname]
  constructor
  · rintro (hnever | ⟨before, after, hsplit, hbefore, hafter⟩)
    · refine .inl ⟨.inl fun walked hwalked => hnever walked (hwalked.trans (List.prefix_append ..)), ?_⟩
      exact hnever _ (List.prefix_refl _)
    · rcases List.eq_nil_or_concat after with rfl | ⟨after, last, rfl⟩
      · obtain ⟨rfl, hlast⟩ := List.append_inj' hsplit rfl
        exact .inr ⟨hbefore, List.cons.inj hlast |>.1⟩
      · rw [List.concat_eq_append] at hsplit hafter
        rw [← List.cons_append, ← List.append_assoc] at hsplit
        obtain ⟨rfl, hlast⟩ := List.append_inj' hsplit rfl
        obtain ⟨rfl, -⟩ := List.cons.inj hlast
        refine .inl ⟨.inr ⟨before, after, rfl, hbefore, fun walked hwalked => ?_⟩, ?_⟩
        · exact hafter walked (hwalked.trans (List.prefix_append ..))
        · rw [List.append_assoc, List.cons_append, hentered hbefore]
          exact hafter _ (List.prefix_refl _)
  · rintro (⟨hnever | ⟨before, after, rfl, hbefore, hafter⟩, hlast⟩ | ⟨hdepth, rfl⟩)
    · refine .inl fun walked hwalked => ?_
      rcases List.prefix_concat_iff.mp hwalked with rfl | hwalked
      · exact hlast
      · exact hnever walked hwalked
    · refine .inr ⟨before, after ++ [segment], by rw [List.append_assoc, List.cons_append], hbefore, fun walked hwalked => ?_⟩
      rcases List.prefix_concat_iff.mp hwalked with rfl | hwalked
      · rwa [List.append_assoc, List.cons_append, hentered hbefore] at hlast
      · exact hafter walked hwalked
    · refine .inr ⟨segments, [], rfl, hdepth, fun walked hwalked => ?_⟩
      rw [List.prefix_nil.mp hwalked]
      exact Nat.lt_succ_self level

theorem getElem?_push (hname : isDot name = false) : (push path segment)[level]? = some name ↔
    (path[level]? = some name ∧ level < (push path segment).length) ∨ (path.length = level ∧ segment = name) := by
  by_cases hplain : isDot segment = false
  · rw [push_of_plain path hplain]
    constructor
    · intro h
      by_cases hlevel : level < path.length
      · rw [List.getElem?_append_left hlevel] at h
        exact .inl ⟨h, by rw [List.length_append]; omega⟩
      · rw [List.getElem?_append_right (by omega)] at h
        obtain ⟨hlast, hsegment⟩ := List.getElem?_eq_some_iff.mp h
        rw [List.length_singleton] at hlast
        exact .inr ⟨by omega, by simpa using hsegment⟩
    · rintro (⟨h, -⟩ | ⟨rfl, rfl⟩)
      · rw [List.getElem?_append_left (List.getElem?_eq_some_iff.mp h).1]
        exact h
      · exact List.getElem?_concat_length
  · have hother : segment ≠ name := fun heq => hplain (heq ▸ hname)
    have hkept : ∀ kept, kept <+: path → push path segment = kept →
        (kept[level]? = some name ↔ path[level]? = some name ∧ level < kept.length) := by
      rintro kept ⟨rest, rfl⟩ -
      constructor
      · intro h
        have hlevel := (List.getElem?_eq_some_iff.mp h).1
        exact ⟨by rw [List.getElem?_append_left hlevel]; exact h, hlevel⟩
      · rintro ⟨h, hlevel⟩
        rwa [List.getElem?_append_left hlevel] at h
    have hprefix : push path segment <+: path := by
      unfold push
      split
      · exact List.dropLast_prefix path
      · split
        · exact List.prefix_refl path
        · rename_i hdouble hsingle
          exact absurd (by rw [isDot, Bool.eq_false_iff.mpr hdouble, Bool.eq_false_iff.mpr hsingle]; rfl) hplain
    rw [hkept _ hprefix rfl]
    constructor
    · exact .inl
    · rintro (h | ⟨-, h⟩)
      · exact h
      · exact absurd h hother

/-- **A name stays where it is** unless a walk climbs to it and does not enter by it. -/
theorem getElem?_foldl_push (hpath : path[level]? = some name) (hname : isDot name = false) :
    (segments.foldl push path)[level]? = some name ↔ Keeps path.length level name segments := by
  induction segments using List.reverseRec with
  | nil =>
    refine ⟨fun _ => .inl fun walked hwalked => ?_, fun _ => hpath⟩
    rw [List.prefix_nil.mp hwalked]
    exact (List.getElem?_eq_some_iff.mp hpath).1
  | append_singleton segments segment ih =>
    rw [List.foldl_append, List.foldl_cons, List.foldl_nil, getElem?_push hname, keeps_concat_iff hname, ih,
      length_push, length_foldl_push, depth_append]

end

section

variable {root rest : List (List UInt8)}

/-- The segments that a path walks: all but the last, and also that if it is a dot segment. -/
def folders (segments : List (List UInt8)) : List (List UInt8) :=
  if isDot (segments.getLast?.getD []) then segments else segments.dropLast

/-- The last segment that is written. -/
def fileName (segments : List (List UInt8)) : List UInt8 :=
  if isDot (segments.getLast?.getD []) then [] else segments.getLast?.getD []

theorem resolve_eq_folders {segments : List (List UInt8)} (h : segments ≠ []) :
    resolve segments = (folders segments).foldl push [] ++ [fileName segments] := by
  obtain ⟨front, last, rfl⟩ := (List.eq_nil_or_concat segments).resolve_left h
  rw [List.concat_eq_append, resolve, folders, fileName, List.dropLast_concat, List.getLast?_concat, Option.getD_some]
  by_cases hlast : isDot last = true
  · rw [if_pos hlast, if_pos hlast, List.foldl_append, List.foldl_cons, List.foldl_nil, finish, push]
    split
    · rfl
    · split
      · rfl
      · rename_i hdouble hsingle
        rw [isDot, Bool.eq_false_iff.mpr hdouble, Bool.eq_false_iff.mpr hsingle] at hlast
        cases hlast
  · rw [if_neg hlast, if_neg hlast, finish_of_plain _ (Bool.eq_false_iff.mpr hlast)]

theorem join_append {below : List (List UInt8)} (hroot : root ≠ []) (hbelow : below ≠ []) :
    join (root ++ below) = join root ++ join below := by
  induction root with
  | nil => exact absurd rfl hroot
  | cons segment root ih =>
    have hcons (path : List (List UInt8)) (hpath : path ≠ []) : join (segment :: path) = 47 :: segment ++ join path := by
      obtain ⟨next, path, rfl⟩ := List.exists_cons_of_ne_nil hpath
      rw [join, List.intercalate_cons_cons, join, List.append_assoc, List.singleton_append, List.cons_append]
    rcases root with _ | ⟨next, root⟩
    · have hsingle : join [segment] = 47 :: segment := by rw [join, List.intercalate_singleton]
      rw [List.singleton_append, hcons below hbelow, hsingle]
    · rw [List.cons_append, hcons _ (List.append_ne_nil_of_left_ne_nil (List.cons_ne_nil _ _) _),
        hcons _ (List.cons_ne_nil _ _), ih (List.cons_ne_nil _ _), List.append_assoc]

theorem fileName_suffix {segments : List (List UInt8)} (h : segments ≠ []) :
    fileName segments <:+ join (resolve segments) := by
  have hsingle : join [fileName segments] = 47 :: fileName segments := by rw [join, List.intercalate_singleton]
  rw [resolve_eq_folders h]
  by_cases hroot : (folders segments).foldl push [] = []
  · rw [hroot, List.nil_append, hsingle]
    exact List.suffix_cons ..
  · rw [join_append hroot (List.cons_ne_nil _ _), hsingle]
    exact (List.suffix_cons ..).trans (List.suffix_append ..)

/-- What stands at the end of a text, without a separator, stands at the end of its last part. -/
theorem suffix_getLast_splitOnP {p : UInt8 → Bool} {text ending : List UInt8} (h : ∀ b ∈ ending, p b = false) :
    ∃ last, ((text ++ ending).splitOnP p).getLast? = some last ∧ ending <:+ last := by
  induction text with
  | nil =>
    rw [List.nil_append, List.splitOnP_eq_singleton h]
    exact ⟨ending, rfl, List.suffix_refl _⟩
  | cons b text ih =>
    obtain ⟨last, hlast, hending⟩ := ih
    obtain ⟨head, tail, hsplit⟩ := List.exists_cons_of_ne_nil (List.splitOnP_ne_nil p (text ++ ending))
    rw [List.cons_append, List.splitOnP_cons_eq_if_modifyHead, hsplit]
    rw [hsplit] at hlast
    by_cases hb : p b = true
    · rw [if_pos hb, List.getLast?_cons_cons]
      exact ⟨last, hlast, hending⟩
    · rw [if_neg hb, List.modifyHead_cons]
      rcases tail with _ | ⟨next, tail⟩
      · obtain rfl := Option.some.inj hlast
        exact ⟨b :: head, rfl, hending.trans (List.suffix_cons ..)⟩
      · rw [List.getLast?_cons_cons] at hlast ⊢
        exact ⟨last, hlast, hending⟩

/-- A path starts with a folder if its segments do. -/
theorem join_prefix_iff {path : List (List UInt8)} {last : List UInt8} (hroot : root ≠ [])
    (hrootSlash : ∀ s ∈ root, 47 ∉ s) (hpathSlash : ∀ s ∈ path, 47 ∉ s) (hlastSlash : 47 ∉ last) :
    join root ++ [47] <+: join (path ++ [last]) ↔ root <+: path := by
  constructor
  · rintro ⟨text, htext⟩
    have hbelow : join (root ++ text.splitOn 47) = join (path ++ [last]) := by
      rw [join_append hroot (List.splitOn_ne_nil 47 text), ← htext, join.eq_def (text.splitOn 47), List.intercalate_splitOn]
      simp
    have hparts : ∀ s ∈ text.splitOn 47, 47 ∉ s := by
      intro s hs hmem
      rw [List.splitOn_eq_splitOnP] at hs
      have hsep := (Text.mem_of_mem_splitOnP hs 47 hmem).2
      simp at hsep
    have heq := join_inj (List.append_ne_nil_of_left_ne_nil hroot _) (by simp)
      (fun s hs => (List.mem_append.mp hs).elim (hrootSlash s) (hparts s))
      (fun s hs => (List.mem_append.mp hs).elim (hpathSlash s) fun h => List.mem_singleton.mp h ▸ hlastSlash) hbelow
    obtain ⟨front, part, hconcat⟩ := (List.eq_nil_or_concat (text.splitOn 47)).resolve_left (List.splitOn_ne_nil 47 text)
    rw [hconcat, List.concat_eq_append, ← List.append_assoc] at heq
    obtain ⟨hpath, -⟩ := List.append_inj' heq rfl
    exact ⟨front, hpath⟩
  · rintro ⟨below, rfl⟩
    rw [List.append_assoc, join_append hroot (by simp), List.prefix_append_right_inj]
    exact ⟨_, rfl⟩

/-- **A path is below a folder exactly if its walk keeps every name of the folder.** -/
theorem below_iff (hroot : root ≠ []) (hplain : ∀ s ∈ root, isDot s = false) (hrootSlash : ∀ s ∈ root, 47 ∉ s)
    (hrest : rest ≠ []) (hrestSlash : ∀ s ∈ rest, 47 ∉ s) :
    join root ++ [47] <+: join (resolve (root ++ rest)) ↔
      ∀ level name, root[level]? = some name → Keeps root.length level name (folders rest) := by
  have hlast : (root ++ rest).getLast?.getD [] = rest.getLast?.getD [] := by
    rw [List.getLast?_append_of_ne_nil _ hrest]
  have hfolders : folders (root ++ rest) = root ++ folders rest := by
    unfold folders
    rw [hlast, List.dropLast_append_of_ne_nil hrest]
    split <;> rfl
  have hwalk : (folders (root ++ rest)).foldl push [] = (folders rest).foldl push root := by
    rw [hfolders, List.foldl_append, foldl_push_of_plain [] hplain, List.nil_append]
  have hmem : ∀ s ∈ folders rest, s ∈ rest := by
    intro s hs
    unfold folders at hs
    split at hs
    · exact hs
    · exact List.dropLast_subset _ hs
  have hpathSlash : ∀ s ∈ (folders rest).foldl push root, 47 ∉ s := by
    intro s hs
    rcases mem_foldl_push hs with hs | hs
    · exact hrootSlash s hs
    · exact hrestSlash s (hmem s hs)
  have hnameSlash : 47 ∉ fileName (root ++ rest) := by
    unfold fileName
    split
    · exact List.not_mem_nil
    · rw [hlast, List.getLast?_eq_some_getLast hrest]
      exact hrestSlash _ (List.getLast_mem hrest)
  rw [resolve_eq_folders (List.append_ne_nil_of_left_ne_nil hroot _), hwalk,
    join_prefix_iff hroot hrootSlash hpathSlash hnameSlash, List.prefix_iff_getElem?]
  constructor
  · intro h level name hname
    obtain ⟨hlevel, hget⟩ := List.getElem?_eq_some_iff.mp hname
    rw [← getElem?_foldl_push hname (hplain name (List.mem_of_getElem? hname)), h level hlevel, hget]
  · intro h level hlevel
    have hname : root[level]? = some root[level] := List.getElem?_eq_getElem hlevel
    exact (getElem?_foldl_push hname (hplain _ (List.getElem_mem hlevel))).mpr (h level _ hname)

end

end UrlPath
