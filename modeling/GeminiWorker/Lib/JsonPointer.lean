import GeminiWorker.Lib.Assoc
import GeminiWorker.Lib.Json
import Std.Data.String.ToNat

/-!
# JSON pointers

The strict reading of a pointer string (a `~` stands before `0` or `1` only), its
inverse, and replacing several nodes of a document at once.

* `Pointer.parse_eq_some_iff`: a string is a pointer to a path if and only if it is the
  canonical spelling of the path.
* `parseIndex_eq_some_iff`: an index token is the decimal spelling of its number.
* `foldl_replace_outermost`: setting the outermost of several nodes one after the
  other is one walk that stops at the first node it meets.
-/

namespace Json

/-! ## Index tokens -/

theorem parseDigits_append (cs : List Char) (c : Char) (n : ℕ) :
    parseDigits (cs ++ [c]) n = (parseDigits cs n).bind fun m =>
      if c.isDigit then some (m * 10 + (c.toNat - '0'.toNat)) else none := by
  induction cs generalizing n with
  | nil => simp [parseDigits]
  | cons d cs ih =>
    simp only [List.cons_append, parseDigits]
    split
    · exact ih _
    · rfl

theorem digitChar_of_isDigit {c : Char} (h : c.isDigit = true) :
    c.toNat - '0'.toNat < 10 ∧ Nat.digitChar (c.toNat - '0'.toNat) = c := by
  have h0 : '0'.toNat = 48 := rfl
  have hc : 48 ≤ c.toNat ∧ c.toNat ≤ 57 := by
    simp only [Char.isDigit, Bool.and_eq_true, decide_eq_true_eq, ge_iff_le] at h
    exact ⟨h.1, h.2⟩
  obtain ⟨hlo, hhi⟩ := hc
  refine ⟨by omega, ?_⟩
  have hdigits : ∀ k, k < 10 → Nat.digitChar k = Char.ofNat (48 + k) := by decide
  rw [h0, hdigits _ (by omega), show 48 + (c.toNat - 48) = c.toNat by omega, Char.ofNat_toNat]

/-- Digits without a leading zero spell the number they stand for. -/
theorem parseDigits_eq_some {cs : List Char} :
    ∀ {n : ℕ}, cs ≠ [] → (cs.head? = some '0' → cs.length = 1) → parseDigits cs 0 = some n →
      cs = Nat.toDigits 10 n := by
  induction cs using List.reverseRecOn with
  | nil => intro n h; exact absurd rfl h
  | append_singleton cs c ih =>
    intro n _ hzero h
    rw [parseDigits_append] at h
    obtain ⟨m, hm, h⟩ := Option.bind_eq_some_iff.1 h
    split at h
    · rename_i hc
      obtain ⟨hlt, hchar⟩ := digitChar_of_isDigit hc
      obtain rfl := Option.some.inj h
      rw [Nat.toDigits_eq_if (by omega)]
      cases cs with
      | nil =>
        obtain rfl := Option.some.inj hm
        rw [if_pos (by omega)]
        simp only [Nat.zero_mul, Nat.zero_add, hchar, List.nil_append]
      | cons d cs =>
        have hd : d ≠ '0' := by
          intro hd
          have := hzero (by simp [hd])
          simp at this
        have hspell := ih (by simp) (by simp [hd]) hm
        have hpos : m ≠ 0 := by
          rintro rfl
          rw [Nat.toDigits_zero] at hspell
          exact hd (List.cons.inj hspell).1
        rw [if_neg (by omega), show (m * 10 + (c.toNat - '0'.toNat)) / 10 = m by omega,
          show (m * 10 + (c.toNat - '0'.toNat)) % 10 = c.toNat - '0'.toNat by omega, hchar, hspell]
    · cases h

theorem parseDigits_toDigits (n : ℕ) : parseDigits (Nat.toDigits 10 n) 0 = some n := by
  induction n using Nat.strongRecOn with
  | ind n ih =>
    have hdigit : ∀ k, k < 10 → (Nat.digitChar k).isDigit = true ∧
        (Nat.digitChar k).toNat - '0'.toNat = k := by
      decide
    rw [Nat.toDigits_eq_if (by omega)]
    split
    · rename_i hn
      obtain ⟨hd, hk⟩ := hdigit n hn
      simp only [parseDigits, hd, if_true, Nat.zero_mul, Nat.zero_add, hk]
    · obtain ⟨hd, hk⟩ := hdigit (n % 10) (by omega)
      rw [parseDigits_append, ih (n / 10) (by omega), Option.bind_some, if_pos hd, hk]
      congr 1
      omega

theorem head?_toDigits {n : ℕ} : (Nat.toDigits 10 n).head? = some '0' → n = 0 := by
  induction n using Nat.strongRecOn with
  | ind n ih =>
    intro h
    rw [Nat.toDigits_eq_if (by omega)] at h
    split at h
    · simpa using h
    · rw [List.head?_append_of_ne_nil _ Nat.toDigits_ne_nil] at h
      have := ih (n / 10) (by omega) h
      omega

/-- **An index token is the decimal spelling of its number.** -/
theorem parseIndex_eq_some_iff {token : String} {i : ℕ} :
    parseIndex token = some i ↔ token = toString i := by
  have hstart : Text.startsWith "0" token = true ↔ token.toList.head? = some '0' := by
    unfold Text.startsWith
    rw [show "0".toList = ['0'] from rfl]
    cases token.toList with
    | nil => simp
    | cons c cs =>
      simp only [List.isPrefixOf, Bool.and_true, beq_iff_eq, List.head?_cons, Option.some.injEq]
      exact eq_comm
  have hstr : (toString i).toList = Nat.toDigits 10 i := by
    simp [Nat.toString_eq_repr, Nat.repr]
  unfold parseIndex
  constructor
  · intro h
    split at h
    · cases h
    · rename_i hc
      simp only [Bool.or_eq_true, decide_eq_true_eq, Bool.and_eq_true, hstart, bne_iff_ne, ne_eq,
        not_or, not_and, not_not] at hc
      obtain ⟨hne, hzero⟩ := hc
      rw [← String.toList_inj, hstr]
      exact parseDigits_eq_some (by simpa using hne) hzero h
  · rintro rfl
    have hne : (toString i) ≠ "" := by
      rw [ne_eq, ← String.toList_inj, hstr]
      exact Nat.toDigits_ne_nil
    have hzero : Text.startsWith "0" (toString i) = true → (toString i).length = 1 := by
      rw [hstart, hstr]
      intro h
      obtain rfl := head?_toDigits h
      rfl
    rw [if_neg (by simpa [hne] using hzero), hstr]
    exact parseDigits_toDigits i

theorem child_index (items : List Value) (i : ℕ) :
    (Value.array items).child (toString i) = items[i]? := by
  have hindex : parseIndex (toString i) = some i := parseIndex_eq_some_iff.2 rfl
  unfold Value.child
  dsimp only
  rw [hindex, Option.bind_some]

/-! ## Spelling of pointers -/

namespace Pointer

/-- A token with `~` as `~0` and `/` as `~1`. -/
def escapeChars (token : List Char) : List Char :=
  token.flatMap fun c => if c = '~' then ['~', '0'] else if c = '/' then ['~', '1'] else [c]

def escape (token : String) : String := String.ofList (escapeChars token.toList)

/-- The pointer to a path. -/
def format (path : List String) : String :=
  path.foldl (fun pointer token => pointer ++ "/" ++ escape token) ""

/-- The token a spelling stands for: a `~` stands before `0` or `1`, a `/` nowhere. -/
def unescapeChars : List Char → Option (List Char)
  | [] => some []
  | '~' :: '0' :: cs => (unescapeChars cs).map ('~' :: ·)
  | '~' :: '1' :: cs => (unescapeChars cs).map ('/' :: ·)
  | '~' :: _ => none
  | '/' :: _ => none
  | c :: cs => (unescapeChars cs).map (c :: ·)

def unescapeTokens : List (List Char) → Option (List String)
  | [] => some []
  | token :: tokens => (unescapeChars token).bind fun cs =>
      (unescapeTokens tokens).map (String.ofList cs :: ·)

/-- The path a string points to, if it is a JSON pointer. -/
def parse (pointer : String) : Option (List String) :=
  match pointer.toList with
  | [] => some []
  | '/' :: cs => unescapeTokens (cs.splitOn '/')
  | _ => none

theorem unescapeChars_escapeChars (cs : List Char) : unescapeChars (escapeChars cs) = some cs := by
  induction cs with
  | nil => rfl
  | cons c cs ih =>
    unfold escapeChars at ih ⊢
    rw [List.flatMap_cons]
    split
    · rename_i hc; subst hc; simp [unescapeChars, ih]
    · rename_i htilde
      split
      · rename_i hc; subst hc; simp [unescapeChars, ih]
      · simp only [List.cons_append, List.nil_append]
        rename_i hslash
        rw [unescapeChars, ih, Option.map_some]
        · rintro - rfl; exact absurd rfl htilde
        · rintro - rfl; exact absurd rfl htilde
        · rintro rfl; exact absurd rfl htilde
        · rintro rfl; exact absurd rfl hslash

theorem escapeChars_of_unescapeChars {cs : List Char} :
    ∀ {ds : List Char}, unescapeChars cs = some ds → escapeChars ds = cs := by
  induction cs using unescapeChars.induct with
  | case1 => rintro ds h; obtain rfl := Option.some.inj h; rfl
  | case2 cs ih | case3 cs ih =>
    intro ds h
    obtain ⟨rest, hrest, rfl⟩ := Option.map_eq_some_iff.1 h
    rw [← ih hrest]; rfl
  | case4 cs h0 h1 => intro ds h; simp [unescapeChars] at h
  | case5 cs => intro ds h; simp [unescapeChars] at h
  | case6 c cs h0 h1 htilde hslash ih =>
    intro ds h
    rw [unescapeChars.eq_6 c cs h0 h1 htilde hslash] at h
    obtain ⟨rest, hrest, rfl⟩ := Option.map_eq_some_iff.1 h
    have htilde' : c ≠ '~' := fun hc => htilde hc
    have hslash' : c ≠ '/' := fun hc => hslash hc
    rw [← ih hrest]
    simp [escapeChars, htilde', hslash']

theorem format_append (path : List String) (token : String) :
    format (path ++ [token]) = format path ++ "/" ++ escape token := by
  simp [format]

theorem toList_format (path : List String) :
    (format path).toList = path.flatMap fun token => '/' :: escapeChars token.toList := by
  induction path using List.reverseRecOn with
  | nil => rfl
  | append_singleton path token ih =>
    rw [format_append, List.flatMap_append, ← ih]
    simp [escape]

theorem slash_notMem_escapeChars (cs : List Char) : '/' ∉ escapeChars cs := by
  intro h
  obtain ⟨c, -, hc⟩ := List.mem_flatMap.1 h
  split at hc
  · simp at hc
  · split at hc
    · simp at hc
    · rename_i hne
      simp only [List.mem_singleton] at hc
      exact hne hc.symm

theorem flatMap_slash (pieces : List (List Char)) (hne : pieces ≠ []) :
    (pieces.flatMap fun piece => '/' :: piece) = '/' :: ['/'].intercalate pieces := by
  induction pieces with
  | nil => exact absurd rfl hne
  | cons piece pieces ih =>
    cases pieces with
    | nil => simp
    | cons piece' pieces =>
      rw [List.flatMap_cons, ih (by simp), List.intercalate_cons_cons]
      simp

theorem unescapeTokens_eq_some_iff {tokens : List (List Char)} :
    ∀ {path : List String}, unescapeTokens tokens = some path ↔
      tokens = path.map fun token => escapeChars token.toList := by
  induction tokens with
  | nil =>
    intro path
    cases path <;> simp [unescapeTokens]
  | cons token tokens ih =>
    intro path
    unfold unescapeTokens
    constructor
    · intro h
      obtain ⟨cs, hcs, h⟩ := Option.bind_eq_some_iff.1 h
      obtain ⟨rest, hrest, rfl⟩ := Option.map_eq_some_iff.1 h
      simp [ih.1 hrest, escapeChars_of_unescapeChars hcs]
    · intro h
      cases path with
      | nil => simp at h
      | cons t path =>
        obtain ⟨rfl, htail⟩ := List.cons.inj h
        rw [unescapeChars_escapeChars, Option.bind_some, ih.2 htail]
        simp

/-- **A string is the pointer to a path if and only if it is its spelling.** -/
theorem parse_eq_some_iff {pointer : String} {path : List String} :
    parse pointer = some path ↔ pointer = format path := by
  have hspell : (format path).toList =
      (path.map fun token => escapeChars token.toList).flatMap fun piece => '/' :: piece := by
    rw [toList_format, List.flatMap_map]
  rw [← String.toList_inj, hspell]
  unfold parse
  split
  · rename_i h
    rw [h]
    cases path <;> simp
  · rename_i cs h
    rw [h, unescapeTokens_eq_some_iff]
    constructor
    · intro hpieces
      rw [← hpieces, flatMap_slash _ (List.splitOn_ne_nil _ _), List.intercalate_splitOn]
    · intro hcs
      have hne : (path.map fun token => escapeChars token.toList) ≠ [] := by
        intro hnil
        rw [hnil] at hcs
        simp at hcs
      rw [flatMap_slash _ hne] at hcs
      rw [(List.cons.inj hcs).2]
      refine List.splitOn_intercalate '/' ?_ hne
      intro piece hpiece
      obtain ⟨token, -, rfl⟩ := List.mem_map.1 hpiece
      exact slash_notMem_escapeChars _
  · rename_i h0 h1
    simp only [reduceCtorEq, false_iff]
    intro h
    cases path with
    | nil => exact h0 (by simpa using h)
    | cons token path => exact h1 _ (by rw [h]; rfl)

end Pointer

/-! ## Replacing several nodes -/

/-- Nodes to replace, by path. -/
abbrev Grafts := List (List String × Value)

/-- Sets the nodes one after the other. A path that leads nowhere changes nothing. -/
def replaceAll (grafts : Grafts) (v : Value) : Value :=
  grafts.foldl (fun v graft => v.modifyAt graft.1 fun _ => graft.2) v

/-- The grafts that are not inside the node of another one. -/
def outermost (grafts : Grafts) : Grafts :=
  grafts.filter fun graft => decide (∀ other ∈ grafts, other.1 <+: graft.1 → other.1 = graft.1)

mutual
/-- One walk over a value that replaces the first node it meets on each branch. -/
def graft (f : List String → Option Value) (v : Value) : Value :=
  match f [] with
  | some w => w
  | none => match v with
    | .array items => .array (graftItems f 0 items)
    | .object members => .object (graftMembers f members)
    | v => v
def graftItems (f : List String → Option Value) (index : ℕ) : List Value → List Value
  | [] => []
  | v :: vs => graft (fun path => f (toString index :: path)) v :: graftItems f (index + 1) vs
def graftMembers (f : List String → Option Value) : List (String × Value) → List (String × Value)
  | [] => []
  | (key, v) :: members => (key, graft (fun path => f (key :: path)) v) :: graftMembers f members
end

theorem graft_of_some {f : List String → Option Value} {w : Value} (h : f [] = some w) (v : Value) :
    graft f v = w := by
  unfold graft; rw [h]

theorem graftItems_eq (f : List String → Option Value) (items : List Value) (index : ℕ) :
    graftItems f index items =
      items.mapIdx fun i v => graft (fun path => f (toString (index + i) :: path)) v := by
  induction items generalizing index with
  | nil => rfl
  | cons v vs ih =>
    rw [graftItems, ih, List.mapIdx_cons]
    simp [Nat.add_assoc, Nat.add_comm 1]

theorem graftMembers_eq (f : List String → Option Value) (members : Map) :
    graftMembers f members = members.map fun m => (m.1, graft (fun path => f (m.1 :: path)) m.2) := by
  induction members with
  | nil => rfl
  | cons m members ih => rw [graftMembers, ih]; rfl

/-- The grafts below one token, seen from there. -/
def below (token : String) (grafts : Grafts) : Grafts :=
  grafts.filterMap fun graft => match graft.1 with
    | [] => none
    | t :: path => if t = token then some (path, graft.2) else none

theorem below_cons (token : String) (t : String) (path : List String) (w : Value) (grafts : Grafts) :
    below token ((t :: path, w) :: grafts) =
      if t = token then (path, w) :: below token grafts else below token grafts := by
  unfold below
  rw [List.filterMap_cons]
  by_cases h : t = token <;> simp [h]

theorem mem_below {token : String} {path : List String} {w : Value} {grafts : Grafts} :
    (path, w) ∈ below token grafts ↔ (token :: path, w) ∈ grafts := by
  unfold below
  rw [List.mem_filterMap]
  constructor
  · rintro ⟨⟨p, w'⟩, hmem, h⟩
    cases p with
    | nil => cases h
    | cons t p =>
      dsimp only at h
      split at h
      · rename_i ht
        obtain ⟨rfl, rfl⟩ := Prod.mk.inj (Option.some.inj h)
        exact ht ▸ hmem
      · cases h
  · intro hmem
    exact ⟨_, hmem, by simp⟩

theorem nodup_below {grafts : Grafts} (h : (grafts.map Prod.fst).Nodup) (token : String) :
    ((below token grafts).map Prod.fst).Nodup := by
  induction grafts with
  | nil => exact List.nodup_nil
  | cons g grafts ih =>
    obtain ⟨path, w⟩ := g
    rw [List.map_cons, List.nodup_cons] at h
    obtain ⟨hnot, hnodup⟩ := h
    cases path with
    | nil => exact ih hnodup
    | cons t path =>
      rw [below_cons]
      split
      · rename_i ht
        rw [List.map_cons, List.nodup_cons]
        refine ⟨fun hmem => hnot ?_, ih hnodup⟩
        obtain ⟨⟨p, w'⟩, hin, rfl⟩ := List.mem_map.1 hmem
        exact List.mem_map.2 ⟨_, mem_below.1 hin, by rw [ht]⟩
      · exact ih hnodup

theorem lookup_below {grafts : Grafts} (token : String) (path : List String) :
    (below token grafts).lookup path = grafts.lookup (token :: path) := by
  induction grafts with
  | nil => rfl
  | cons g grafts ih =>
    obtain ⟨p, w⟩ := g
    cases p with
    | nil => simpa [below, List.lookup_cons] using ih
    | cons t p =>
      rw [below_cons, List.lookup_cons]
      by_cases ht : t = token
      · rw [if_pos ht, List.lookup_cons, ih]
        simp [ht]
      · have hne : (token :: path == t :: p) = false := by
          simp [Ne.symm ht]
        rw [if_neg ht, hne, ih]

theorem below_filter (token : String) {p q : List String × Value → Bool}
    (h : ∀ path w, p (token :: path, w) = q (path, w)) (grafts : Grafts) :
    below token (grafts.filter p) = (below token grafts).filter q := by
  induction grafts with
  | nil => rfl
  | cons g grafts ih =>
    obtain ⟨path, w⟩ := g
    rw [List.filter_cons]
    cases path with
    | nil => split <;> exact ih
    | cons t path =>
      rw [below_cons]
      by_cases ht : t = token
      · subst ht
        rw [if_pos rfl, List.filter_cons, ← h path w, ← ih]
        split
        · rw [below_cons, if_pos rfl]
        · rfl
      · rw [if_neg ht, ← ih]
        split
        · rw [below_cons, if_neg ht]
        · rfl

/-- Below a token, the outermost grafts are those that were outermost before, as long as
the root is not replaced. -/
theorem below_outermost {grafts : Grafts} (hroot : ∀ g ∈ grafts, g.1 ≠ []) (token : String) :
    below token (outermost grafts) = outermost (below token grafts) := by
  have hsame : ∀ path : List String,
      (∀ other ∈ grafts, other.1 <+: token :: path → other.1 = token :: path) ↔
        ∀ other ∈ below token grafts, other.1 <+: path → other.1 = path := by
    intro path
    constructor
    · rintro h ⟨p, w⟩ hmem hprefix
      have := h _ (mem_below.1 hmem) (List.cons_prefix_cons.2 ⟨rfl, hprefix⟩)
      exact (List.cons.inj this).2
    · rintro h ⟨p, w⟩ hmem hprefix
      cases p with
      | nil => exact absurd rfl (hroot _ hmem)
      | cons t p =>
        obtain ⟨rfl, hp⟩ := List.cons_prefix_cons.1 hprefix
        have hpath : p = path := h _ (mem_below.2 hmem) hp
        rw [hpath]
  unfold outermost
  rw [below_filter token (q := fun g => decide (∀ other ∈ below token grafts,
    other.1 <+: g.1 → other.1 = g.1))]
  intro path w
  exact decide_eq_decide.2 (hsame path)

theorem replaceAll_object {grafts : Grafts} (hroot : ∀ g ∈ grafts, g.1 ≠ []) :
    ∀ members : Map, replaceAll grafts (.object members) =
      .object (members.map fun m => (m.1, replaceAll (below m.1 grafts) m.2)) := by
  induction grafts with
  | nil => intro members; simp [replaceAll, below]
  | cons g grafts ih =>
    intro members
    obtain ⟨path, w⟩ := g
    cases path with
    | nil => exact absurd rfl (hroot _ (List.mem_cons_self ..))
    | cons t path =>
      have hstep : replaceAll ((t :: path, w) :: grafts) (.object members) =
          replaceAll grafts (.object (members.map fun m =>
            if m.1 == t then (m.1, m.2.modifyAt path fun _ => w) else m)) := rfl
      rw [hstep, ih (fun g hg => hroot g (List.mem_cons_of_mem _ hg)), List.map_map]
      congr 1
      apply List.map_congr_left
      intro m _
      rw [Function.comp_apply, below_cons]
      by_cases hm : m.1 = t
      · simp [hm, replaceAll]
      · simp [hm, Ne.symm hm]

theorem replaceAll_array {grafts : Grafts} (hroot : ∀ g ∈ grafts, g.1 ≠ []) :
    ∀ items : List Value, replaceAll grafts (.array items) =
      .array (items.mapIdx fun i v => replaceAll (below (toString i) grafts) v) := by
  induction grafts with
  | nil =>
    intro items
    simp only [replaceAll, below, List.filterMap_nil, List.foldl_nil]
    rw [List.mapIdx_eq_iff.2 (fun i => Option.map_id'.symm)]
  | cons g grafts ih =>
    intro items
    obtain ⟨path, w⟩ := g
    cases path with
    | nil => exact absurd rfl (hroot _ (List.mem_cons_self ..))
    | cons t path =>
      have hroot' : ∀ g ∈ grafts, g.1 ≠ [] := fun g hg => hroot g (List.mem_cons_of_mem _ hg)
      have hstep : replaceAll ((t :: path, w) :: grafts) (.array items) =
          replaceAll grafts (Value.modifyChild (.array items) t fun v => v.modifyAt path fun _ => w) :=
        rfl
      rw [hstep]
      unfold Value.modifyChild
      dsimp only
      cases hindex : parseIndex t with
      | none =>
        -- no item has this token
        rw [ih hroot']
        congr 1
        apply List.mapIdx_eq_mapIdx_iff.2
        intro i _
        have ht : t ≠ toString i := by
          rintro rfl
          rw [parseIndex_eq_some_iff.2 rfl] at hindex
          cases hindex
        rw [below_cons, if_neg ht]
      | some j =>
        obtain rfl := parseIndex_eq_some_iff.1 hindex
        dsimp only
        rw [ih hroot']
        congr 1
        apply List.ext_getElem?
        intro i
        rw [List.getElem?_mapIdx, List.getElem?_mapIdx, List.getElem?_modify, below_cons]
        by_cases hij : j = i
        · subst hij
          simp [replaceAll, Function.comp_def]
        · have hne : toString j ≠ toString i := fun he => hij (Nat.repr_injective he)
          simp [if_neg hij]

theorem replaceAll_leaf {grafts : Grafts} (hroot : ∀ g ∈ grafts, g.1 ≠ []) {v : Value}
    (harray : v.asArray = none) (hobject : v.asObject = none) : replaceAll grafts v = v := by
  induction grafts with
  | nil => rfl
  | cons g grafts ih =>
    obtain ⟨path, w⟩ := g
    cases path with
    | nil => exact absurd rfl (hroot _ (List.mem_cons_self ..))
    | cons t path =>
      have hstep : v.modifyAt (t :: path) (fun _ => w) = v := by
        cases v <;> simp_all [Value.modifyAt, Value.modifyChild, Value.asArray, Value.asObject]
      unfold replaceAll
      rw [List.foldl_cons, hstep]
      exact ih fun g hg => hroot g (List.mem_cons_of_mem _ hg)

theorem ne_nil_of_lookup {grafts : Grafts} (h : grafts.lookup [] = none) : ∀ g ∈ grafts, g.1 ≠ [] := by
  intro g hg hnil
  have := List.lookup_eq_none_iff.1 h g hg
  simp [hnil] at this

theorem ne_nil_outermost {grafts : Grafts} (h : ∀ g ∈ grafts, g.1 ≠ []) :
    ∀ g ∈ outermost grafts, g.1 ≠ [] :=
  fun g hg => h g (List.mem_of_mem_filter hg)

theorem replaceAll_const {grafts : Grafts} {w : Value} (hne : grafts ≠ [])
    (hall : ∀ g ∈ grafts, g = ([], w)) : ∀ v, replaceAll grafts v = w := by
  induction grafts with
  | nil => exact absurd rfl hne
  | cons g grafts ih =>
    intro v
    obtain rfl := hall g (List.mem_cons_self ..)
    have hstep : replaceAll (([], w) :: grafts) v = replaceAll grafts w := rfl
    rw [hstep]
    by_cases hnil : grafts = []
    · rw [hnil]; rfl
    · exact ih hnil (fun g hg => hall g (List.mem_cons_of_mem _ hg)) w

/-- Where the root is replaced, every other graft is inside it. -/
theorem replaceAll_outermost_root {grafts : Grafts} (hnodup : (grafts.map Prod.fst).Nodup)
    {w : Value} (h : grafts.lookup [] = some w) (v : Value) :
    replaceAll (outermost grafts) v = w := by
  have hmem : (([] : List String), w) ∈ grafts := by
    obtain ⟨before, after, rfl, -⟩ := List.lookup_eq_some_iff.1 h
    simp
  refine replaceAll_const ?_ ?_ v
  · refine List.ne_nil_of_mem (List.mem_filter.2 ⟨hmem, ?_⟩)
    simp only [decide_eq_true_eq, List.prefix_nil]
    exact fun other _ he => he
  · intro g hg
    obtain ⟨hin, hout⟩ := List.mem_filter.1 hg
    have hpath := of_decide_eq_true hout _ hmem (List.nil_prefix ..)
    exact List.inj_on_of_nodup_map hnodup hin hmem hpath.symm

theorem replaceAll_outermost_leaf {v : Value} {grafts : Grafts}
    (hnodup : (grafts.map Prod.fst).Nodup) (harray : v.asArray = none)
    (hobject : v.asObject = none) :
    replaceAll (outermost grafts) v = graft (fun path => grafts.lookup path) v := by
  cases hroot : grafts.lookup [] with
  | some w => rw [replaceAll_outermost_root hnodup hroot, graft_of_some hroot]
  | none =>
    have hne := ne_nil_of_lookup hroot
    rw [replaceAll_leaf (ne_nil_outermost hne) harray hobject]
    unfold graft
    rw [hroot]
    cases v with
    | array items => cases harray
    | object members => cases hobject
    | null | bool | number | string => rfl

/-- **Setting the outermost nodes one after the other is one walk over the value.** -/
theorem replaceAll_outermost (v : Value) : ∀ {grafts : Grafts}, (grafts.map Prod.fst).Nodup →
    replaceAll (outermost grafts) v = graft (fun path => grafts.lookup path) v := by
  induction v using Value.induction with
  | null => exact fun h => replaceAll_outermost_leaf h rfl rfl
  | bool b => exact fun h => replaceAll_outermost_leaf h rfl rfl
  | number s => exact fun h => replaceAll_outermost_leaf h rfl rfl
  | string s => exact fun h => replaceAll_outermost_leaf h rfl rfl
  | array items ih =>
    intro grafts h
    cases hroot : grafts.lookup [] with
    | some w => rw [replaceAll_outermost_root h hroot, graft_of_some hroot]
    | none =>
      have hne := ne_nil_of_lookup hroot
      rw [replaceAll_array (ne_nil_outermost hne)]
      unfold graft
      simp only [hroot, graftItems_eq, Nat.zero_add]
      congr 1
      apply List.mapIdx_eq_mapIdx_iff.2
      intro i hi
      rw [below_outermost hne, ih _ (List.getElem_mem hi) (nodup_below h _)]
      simp only [lookup_below]
  | object members ih =>
    intro grafts h
    cases hroot : grafts.lookup [] with
    | some w => rw [replaceAll_outermost_root h hroot, graft_of_some hroot]
    | none =>
      have hne := ne_nil_of_lookup hroot
      rw [replaceAll_object (ne_nil_outermost hne)]
      unfold graft
      simp only [hroot, graftMembers_eq]
      congr 1
      apply List.map_congr_left
      intro m hm
      rw [below_outermost hne, ih m hm (nodup_below h _)]
      simp only [lookup_below]

end Json
