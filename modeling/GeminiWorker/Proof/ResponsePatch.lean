import GeminiWorker.Lib.JsonShape
import GeminiWorker.Spec.ResponseMaterialize

/-!
# Collecting and patching the images of a response

Where a pair of a mime type and data is held in a document, and what the two walks of
`response_materialize.rs` make of it.

* `mem_scan_iff`: the scan finds the pairs held anywhere in the document.
* `patchNode_object`: the patch in the order of the source.
* `shapeAt_patchNode`: patching changes nothing but the data and the mime type of the
  objects that hold a pair.
* `holdsInlineData_patchNode`: such an object holds what is written over its pair.
-/

namespace GeminiWorker

open Json (Value Map)

theorem inlineDataEntry_eq_some {inlineData : Map} {entry : InlineDataEntry} :
    inlineDataEntry inlineData = some entry ↔
      Map.get inlineData "data" = some (.string entry.data) ∧
        Map.get inlineData "mimeType" = some (.string entry.mimeType) := by
  unfold inlineDataEntry
  constructor
  · intro h
    split at h
    · rename_i data mimeType hdata hmime
      obtain rfl := Option.some.inj h
      exact ⟨hdata, hmime⟩
    · cases h
  · rintro ⟨hdata, hmime⟩
    rw [hdata, hmime]

/-! ## Where a pair is held -/

/-- The object under `inlineData` of the value at a path holds the pair. -/
def HoldsInlineData (v : Value) (path : List String) (entry : InlineDataEntry) : Prop :=
  ∃ inlineData, v.at? (path ++ ["inlineData"]) = some (.object inlineData) ∧
    inlineDataEntry inlineData = some entry

variable {v : Value} {entry : InlineDataEntry}

theorem holdsInlineData_nil : HoldsInlineData v [] entry ↔
    ∃ inlineData, v.child "inlineData" = some (.object inlineData) ∧
      inlineDataEntry inlineData = some entry := by
  unfold HoldsInlineData
  simp only [List.nil_append, Value.at?, Option.bind_eq_some_iff, Option.some.injEq,
    exists_eq_right]

theorem holdsInlineData_cons {token : String} {path : List String} :
    HoldsInlineData v (token :: path) entry ↔
      ∃ child, v.child token = some child ∧ HoldsInlineData child path entry := by
  unfold HoldsInlineData
  rw [List.cons_append, Value.at?]
  constructor
  · rintro ⟨inlineData, hat, hentry⟩
    obtain ⟨child, hchild, hat⟩ := Option.bind_eq_some_iff.1 hat
    exact ⟨child, hchild, inlineData, hat, hentry⟩
  · rintro ⟨child, hchild, inlineData, hat, hentry⟩
    exact ⟨inlineData, by rw [hchild, Option.bind_some, hat], hentry⟩

/-- The two strings of a pair, where it is held. -/
theorem at?_held {holder : List String} (h : HoldsInlineData v holder entry) :
    v.at? (holder ++ ["inlineData", "data"]) = some (.string entry.data) ∧
      v.at? (holder ++ ["inlineData", "mimeType"]) = some (.string entry.mimeType) := by
  obtain ⟨inlineData, hat, hentry⟩ := h
  obtain ⟨hdata, hmime⟩ := inlineDataEntry_eq_some.1 hentry
  have hbelow : ∀ key, v.at? (holder ++ ["inlineData", key]) = Map.get inlineData key := by
    intro key
    rw [show holder ++ ["inlineData", key] = (holder ++ ["inlineData"]) ++ [key] by simp, Value.at?_append,
      hat, Option.bind_some, Value.at?_singleton]
    rfl
  rw [hbelow, hbelow]
  exact ⟨hdata, hmime⟩

/-- A pair is held where its two strings stand. -/
theorem holdsInlineData_iff {holder : List String} : HoldsInlineData v holder entry ↔
    v.at? (holder ++ ["inlineData", "data"]) = some (.string entry.data) ∧
      v.at? (holder ++ ["inlineData", "mimeType"]) = some (.string entry.mimeType) := by
  refine ⟨at?_held, fun ⟨hdata, hmime⟩ => ?_⟩
  have hbelow : ∀ key, v.at? (holder ++ ["inlineData", key]) =
      (v.at? (holder ++ ["inlineData"])).bind fun inlineData => inlineData.child key := by
    intro key
    rw [show holder ++ ["inlineData", key] = (holder ++ ["inlineData"]) ++ [key] by simp, Value.at?_append]
    simp only [Value.at?_singleton]
  rw [hbelow] at hdata hmime
  cases hat : v.at? (holder ++ ["inlineData"]) with
  | none => rw [hat] at hdata; cases hdata
  | some inlineData =>
    rw [hat, Option.bind_some] at hdata hmime
    cases inlineData with
    | object inlineData => exact ⟨inlineData, hat, inlineDataEntry_eq_some.2 ⟨hdata, hmime⟩⟩
    | null | bool | number | string | array => cases hdata

/-- A pair is held at the root or below a token. -/
theorem exists_holdsInlineData :
    (∃ path, HoldsInlineData v path entry) ↔ HoldsInlineData v [] entry ∨
      ∃ token child, v.child token = some child ∧ ∃ path, HoldsInlineData child path entry := by
  constructor
  · rintro ⟨path, h⟩
    cases path with
    | nil => exact Or.inl h
    | cons token path =>
      obtain ⟨child, hchild, h⟩ := holdsInlineData_cons.1 h
      exact Or.inr ⟨token, child, hchild, path, h⟩
  · rintro (h | ⟨token, child, hchild, path, h⟩)
    · exact ⟨[], h⟩
    · exact ⟨token :: path, holdsInlineData_cons.2 ⟨child, hchild, h⟩⟩

/-! ## The scan -/

theorem walkInlineDataMembers_eq (map : Map) : ∀ entries, walkInlineDataMembers map entries =
    (map.map Prod.snd).foldl (fun entries child => walkInlineData child entries) entries := by
  induction map with
  | nil => exact fun _ => rfl
  | cons m map ih => exact fun entries => ih (walkInlineData m.2 entries)

theorem walkInlineDataItems_eq (items : List Value) : ∀ entries, walkInlineDataItems items entries =
    items.foldl (fun entries child => walkInlineData child entries) entries := by
  induction items with
  | nil => exact fun _ => rfl
  | cons child items ih => exact fun entries => ih (walkInlineData child entries)

theorem mem_pushInlineData {map : Map} {entries : List InlineDataEntry} :
    entry ∈ pushInlineData map entries ↔
      entry ∈ entries ∨ HoldsInlineData (.object map) [] entry ∧ isUrlLike entry.data = false := by
  have hheld : HoldsInlineData (.object map) [] entry ↔
      ((Map.get map "inlineData").bind Value.asObject).bind inlineDataEntry = some entry := by
    rw [holdsInlineData_nil]
    cases hget : Map.get map "inlineData" with
    | none => simp [Value.child, hget]
    | some child => cases child <;> simp [Value.child, hget, Value.asObject]
  rw [hheld]
  unfold pushInlineData
  split
  · rename_i entry' hentry
    rw [hentry, Option.some.injEq]
    split
    · rename_i hskip
      rw [Bool.or_eq_true, List.contains_iff_mem] at hskip
      constructor
      · exact Or.inl
      · rintro (h | ⟨rfl, hurl⟩)
        · exact h
        · rcases hskip with hskip | hskip
          · rw [hurl] at hskip; cases hskip
          · exact hskip
    · rename_i hpush
      rw [Bool.or_eq_true, not_or, Bool.not_eq_true] at hpush
      rw [List.mem_append, List.mem_singleton]
      constructor
      · rintro (h | rfl)
        · exact Or.inl h
        · exact Or.inr ⟨rfl, hpush.1⟩
      · rintro (h | ⟨rfl, -⟩)
        · exact Or.inl h
        · exact Or.inr rfl
  · rename_i hnone
    rw [hnone]
    simp

theorem nodup_pushInlineData {map : Map} {entries : List InlineDataEntry} (h : entries.Nodup) :
    (pushInlineData map entries).Nodup := by
  unfold pushInlineData
  split
  · split
    · exact h
    · rename_i hpush
      rw [Bool.or_eq_true, not_or, List.contains_iff_mem] at hpush
      exact List.nodup_append.2 ⟨h, List.nodup_singleton _, fun a ha b hb => by
        rw [List.mem_singleton.1 hb]
        exact fun heq => hpush.2 (heq ▸ ha)⟩
  · exact h

/-- What each step of a walk over children adds, the walk adds. -/
theorem mem_foldl_walk {held : Value → Prop} {children : List Value}
    (hstep : ∀ child ∈ children, ∀ entries, entry ∈ walkInlineData child entries ↔
      entry ∈ entries ∨ held child) : ∀ entries,
    entry ∈ children.foldl (fun entries child => walkInlineData child entries) entries ↔
      entry ∈ entries ∨ ∃ child ∈ children, held child := by
  induction children with
  | nil => intro entries; simp
  | cons child children ih =>
    intro entries
    have hrest := ih (fun c hc => hstep c (List.mem_cons_of_mem _ hc)) (walkInlineData child entries)
    rw [List.foldl_cons, hrest, hstep child List.mem_cons_self, List.exists_mem_cons_iff, or_assoc]

theorem nodup_foldl_walk {children : List Value}
    (hstep : ∀ child ∈ children, ∀ entries, entries.Nodup → (walkInlineData child entries).Nodup) :
    ∀ entries : List InlineDataEntry, entries.Nodup →
      (children.foldl (fun entries child => walkInlineData child entries) entries).Nodup := by
  induction children with
  | nil => exact fun _ h => h
  | cons child children ih =>
    intro entries h
    have hchild := hstep child List.mem_cons_self entries h
    exact ih (fun c hc => hstep c (List.mem_cons_of_mem _ hc)) _ hchild

theorem walkInlineData_eq (v : Value) (entries : List InlineDataEntry) : walkInlineData v entries =
    v.children.foldl (fun entries child => walkInlineData child entries)
      (match v with
      | .object map => pushInlineData map entries
      | _ => entries) := by
  cases v with
  | null | bool b | number s | string s => rfl
  | array items => exact walkInlineDataItems_eq items entries
  | object members => exact walkInlineDataMembers_eq members _

theorem nodup_walkInlineData (v : Value) : ∀ entries : List InlineDataEntry, entries.Nodup →
    (walkInlineData v entries).Nodup := by
  induction v using Value.children_induction with
  | step v ih =>
    intro entries h
    rw [walkInlineData_eq]
    refine nodup_foldl_walk ih _ ?_
    cases v with
    | null | bool b | number s | string s | array items => exact h
    | object members => exact nodup_pushInlineData h

theorem mem_walkInlineData (v : Value) : v.Distinct → ∀ entries, entry ∈ walkInlineData v entries ↔
    entry ∈ entries ∨ (∃ path, HoldsInlineData v path entry) ∧ isUrlLike entry.data = false := by
  induction v using Value.children_induction with
  | step v ih =>
    intro hv entries
    have hchildren : ∀ child ∈ v.children, ∀ entries, entry ∈ walkInlineData child entries ↔
        entry ∈ entries ∨ (∃ path, HoldsInlineData child path entry) ∧ isUrlLike entry.data = false := by
      intro child hchild
      obtain ⟨token, htoken⟩ := (Value.mem_children hv).1 hchild
      exact ih child hchild (hv.child htoken)
    have hroot : entry ∈ (match v with
        | .object map => pushInlineData map entries
        | _ => entries) ↔
        entry ∈ entries ∨ HoldsInlineData v [] entry ∧ isUrlLike entry.data = false := by
      cases v with
      | object members => exact mem_pushInlineData
      | null | bool b | number s | string s | array items =>
        -- nothing stands under a key here
        rw [holdsInlineData_nil]
        refine ⟨Or.inl, fun h => h.elim id fun h => ?_⟩
        obtain ⟨⟨inlineData, hchild, -⟩, -⟩ := h
        cases hchild
    have hbelow : (∃ child ∈ v.children,
        (∃ path, HoldsInlineData child path entry) ∧ isUrlLike entry.data = false) ↔
        (∃ token child, v.child token = some child ∧ ∃ path, HoldsInlineData child path entry) ∧
          isUrlLike entry.data = false := by
      constructor
      · rintro ⟨child, hchild, hheld, hurl⟩
        obtain ⟨token, htoken⟩ := (Value.mem_children hv).1 hchild
        exact ⟨⟨token, child, htoken, hheld⟩, hurl⟩
      · rintro ⟨⟨token, child, htoken, hheld⟩, hurl⟩
        exact ⟨child, (Value.mem_children hv).2 ⟨token, htoken⟩, hheld, hurl⟩
    rw [walkInlineData_eq, mem_foldl_walk hchildren, hroot, exists_holdsInlineData, hbelow, or_assoc,
      ← or_and_right]

/-- **The scan finds the pairs held anywhere, other than URLs.** -/
theorem mem_scan_iff (hv : v.Distinct) : entry ∈ scanInlineDataBase64Entries v ↔
    (∃ path, HoldsInlineData v path entry) ∧ isUrlLike entry.data = false := by
  rw [scanInlineDataBase64Entries, mem_walkInlineData v hv]
  simp

theorem nodup_scan (v : Value) : (scanInlineDataBase64Entries v).Nodup :=
  nodup_walkInlineData v [] List.nodup_nil

/-! ## The writes into one object -/

section

variable {inlineData : Map}

theorem get_insertString {key key' : String} (h : key' ≠ key) (value : Option String) :
    Map.get (insertString key value inlineData) key' = Map.get inlineData key' := by
  cases value with
  | none => rfl
  | some value => rw [insertString, Map.get_insert, if_neg h]

theorem get_insertString_self {key old : String} (h : Map.get inlineData key = some (.string old))
    (value : Option String) :
    Map.get (insertString key value inlineData) key = some (.string (value.getD old)) := by
  cases value with
  | none => exact h
  | some value => rw [insertString, Map.get_insert, if_pos rfl]; rfl

theorem keys_insertString {key old : String} (h : Map.get inlineData key = some (.string old))
    (value : Option String) :
    Map.keys (insertString key value inlineData) = Map.keys inlineData := by
  have hmem : key ∈ Map.keys inlineData := Map.get_isSome_iff.1 (by rw [h]; rfl)
  cases value with
  | none => rfl
  | some value => rw [insertString, Map.keys_insert, if_pos hmem]

theorem InlineDataWrite.get_apply (write : InlineDataWrite) {key : String} (hdata : key ≠ "data")
    (hmime : key ≠ "mimeType") : Map.get (write.apply inlineData) key = Map.get inlineData key := by
  unfold InlineDataWrite.apply
  rw [get_insertString hdata, get_insertString hmime]

theorem InlineDataWrite.get_apply_mimeType (write : InlineDataWrite)
    (h : inlineDataEntry inlineData = some entry) :
    Map.get (write.apply inlineData) "mimeType" = some (.string (write.mimeType.getD entry.mimeType)) := by
  have hmime := (inlineDataEntry_eq_some.1 h).2
  unfold InlineDataWrite.apply
  rw [get_insertString (by decide)]
  exact get_insertString_self hmime write.mimeType

theorem InlineDataWrite.get_apply_data (write : InlineDataWrite)
    (h : inlineDataEntry inlineData = some entry) :
    Map.get (write.apply inlineData) "data" = some (.string (write.data.getD entry.data)) := by
  have hdata := (inlineDataEntry_eq_some.1 h).1
  have hkept : Map.get (insertString "mimeType" write.mimeType inlineData) "data" =
      some (.string entry.data) := by
    rw [get_insertString (by decide), hdata]
  exact get_insertString_self hkept write.data

theorem InlineDataWrite.keys_apply (write : InlineDataWrite)
    (h : inlineDataEntry inlineData = some entry) :
    Map.keys (write.apply inlineData) = Map.keys inlineData := by
  obtain ⟨hdata, hmime⟩ := inlineDataEntry_eq_some.1 h
  have hkept : Map.get (insertString "mimeType" write.mimeType inlineData) "data" =
      some (.string entry.data) := by
    rw [get_insertString (by decide), hdata]
  unfold InlineDataWrite.apply
  rw [keys_insertString hkept, keys_insertString hmime]

end

/-! ## The patch -/

section

variable {writes : InlineDataEntry → InlineDataWrite}

theorem patchMembers_eq (map : Map) : patchMembers writes map =
    map.map fun m => (m.1, patchMember writes m.1 (patchNode writes m.2)) := by
  induction map with
  | nil => rfl
  | cons m map ih => rw [patchMembers, ih]; rfl

theorem patchItems_eq (items : List Value) : patchItems writes items = items.map (patchNode writes) := by
  induction items with
  | nil => rfl
  | cons child items ih => rw [patchItems, ih]; rfl

theorem patchMember_of_ne {key : String} (h : key ≠ "inlineData") (child : Value) :
    patchMember writes key child = child := if_neg h

/-- What stands one token below a patched value. -/
theorem child_patchNode (v : Value) (token : String) : (patchNode writes v).child token =
    (v.child token).map fun child => patchMember writes token (patchNode writes child) := by
  cases v with
  | null | bool b | number s | string s => rfl
  | object members =>
    rw [patchNode, patchMembers_eq]
    exact Map.get_map members (fun key child => patchMember writes key (patchNode writes child)) token
  | array items =>
    rw [patchNode, patchItems_eq]
    unfold Value.child
    cases hindex : Json.parseIndex token with
    | none => rfl
    | some i =>
      -- an index is not the key
      have hne : token ≠ "inlineData" := by
        rintro rfl
        cases hindex
      simp only [Option.bind_some, List.getElem?_map, patchMember_of_ne hne]

theorem patchNode_eq_string {s : String} : patchNode writes v = .string s ↔ v = .string s := by
  cases v <;> simp [patchNode]

/-- A walk below an object leaves its pair. -/
theorem inlineDataEntry_patchMembers (inlineData : Map) :
    inlineDataEntry (patchMembers writes inlineData) = inlineDataEntry inlineData := by
  have hget : ∀ {key s : String}, key ≠ "inlineData" →
      (Map.get (patchMembers writes inlineData) key = some (.string s) ↔
        Map.get inlineData key = some (.string s)) := by
    intro key s hkey
    rw [patchMembers_eq, Map.get_map inlineData (fun key child => patchMember writes key (patchNode writes child)),
      Option.map_eq_some_iff]
    simp only [patchMember_of_ne hkey, patchNode_eq_string, exists_eq_right]
  refine Option.ext fun entry => ?_
  rw [inlineDataEntry_eq_some, inlineDataEntry_eq_some, hget (by decide), hget (by decide)]

/-- The object under `inlineData` after the patch. -/
theorem patchInlineData_patchNode (inlineData : Map) (h : inlineDataEntry inlineData = some entry) :
    patchInlineData writes (patchNode writes (.object inlineData)) =
      .object ((writes entry).apply (patchMembers writes inlineData)) := by
  rw [patchNode, patchInlineData, inlineDataEntry_patchMembers, h]

theorem pair_cases (v : Value) :
    (∀ inlineData, v = .object inlineData → inlineDataEntry inlineData = none) ∨
      ∃ inlineData entry, v = .object inlineData ∧ inlineDataEntry inlineData = some entry := by
  cases v with
  | null | bool b | number s | string s | array items => exact Or.inl fun _ h => by cases h
  | object inlineData =>
    cases hentry : inlineDataEntry inlineData with
    | none => exact Or.inl (by rintro _ ⟨⟩; exact hentry)
    | some entry => exact Or.inr ⟨inlineData, entry, rfl, hentry⟩

/-- A value under `inlineData` that holds no pair is left to the walk. -/
theorem patchInlineData_of_none (h : ∀ inlineData, v = .object inlineData → inlineDataEntry inlineData = none) :
    patchInlineData writes (patchNode writes v) = patchNode writes v := by
  cases v with
  | null | bool b | number s | string s | array items => rfl
  | object inlineData =>
    rw [patchNode, patchInlineData, inlineDataEntry_patchMembers, h inlineData rfl]

theorem patchMembers_insertString {key : String} (h : key ≠ "inlineData") (value : Option String)
    (map : Map) : patchMembers writes (insertString key value map) =
      insertString key value (patchMembers writes map) := by
  cases value with
  | none => rfl
  | some value =>
    have hkeys : Map.keys (patchMembers writes map) = Map.keys map := by
      rw [patchMembers_eq]
      exact Map.keys_map map fun key child => patchMember writes key (patchNode writes child)
    unfold insertString
    dsimp only
    by_cases hmem : key ∈ Map.keys map
    · rw [Map.insert_of_mem hmem, Map.insert_of_mem (by rwa [hkeys]), patchMembers_eq, patchMembers_eq,
        List.map_map, List.map_map]
      refine List.map_congr_left fun m _ => ?_
      by_cases hm : m.1 = key
      · simp [hm, patchMember_of_ne h, patchNode]
      · simp [hm]
    · rw [Map.insert_of_not_mem hmem, Map.insert_of_not_mem (by rwa [hkeys]), patchMembers_eq,
        patchMembers_eq, List.map_append]
      simp [patchMember_of_ne h, patchNode]

/-- The order of the source: first the object under `inlineData`, then every member. -/
theorem patchNode_object (map : Map) : patchNode writes (.object map) =
    .object ((map.map fun m =>
      if m.1 == "inlineData" then (m.1, patchInlineData writes m.2) else m).map fun m =>
        (m.1, patchNode writes m.2)) := by
  have hcomm : ∀ child : Value, patchNode writes (patchInlineData writes child) =
      patchInlineData writes (patchNode writes child) := by
    intro child
    rcases pair_cases child with hnone | ⟨inlineData, entry, rfl, hentry⟩
    · have hsame : patchInlineData writes child = child := by
        cases child with
        | null | bool b | number s | string s | array items => rfl
        | object inlineData => rw [patchInlineData, hnone inlineData rfl]
      rw [patchInlineData_of_none hnone, hsame]
    · rw [patchInlineData_patchNode inlineData hentry, patchInlineData, hentry]
      unfold InlineDataWrite.apply
      rw [patchNode, patchMembers_insertString (by decide), patchMembers_insertString (by decide)]
  rw [patchNode, patchMembers_eq, List.map_map]
  refine congrArg _ (List.map_congr_left fun m _ => ?_)
  by_cases hm : m.1 = "inlineData"
  · simp [hm, patchMember, hcomm]
  · simp [hm, patchMember]

theorem shape_patchNode (v : Value) : (patchNode writes v).shape = v.shape := by
  cases v with
  | null | bool b | number s | string s => rfl
  | array items => simp [patchNode, patchItems_eq, Value.shape]
  | object members =>
    rw [patchNode, patchMembers_eq]
    exact congrArg Json.Shape.object
      (Map.keys_map members fun key child => patchMember writes key (patchNode writes child))

/-- Below a value under `inlineData`, only the data and the mime type of a pair are written. -/
theorem at?_patchInlineData (child : Value) {key : String} {path : List String}
    (hout : ∀ inlineData entry, child = .object inlineData → inlineDataEntry inlineData = some entry →
      key :: path ≠ ["data"] ∧ key :: path ≠ ["mimeType"]) :
    (patchInlineData writes (patchNode writes child)).at? (key :: path) =
      (patchNode writes child).at? (key :: path) := by
  rcases pair_cases child with hnone | ⟨inlineData, entry, rfl, hentry⟩
  · rw [patchInlineData_of_none hnone]
  obtain ⟨hdata, hmime⟩ := hout inlineData entry rfl hentry
  have hpatched : inlineDataEntry (patchMembers writes inlineData) = some entry := by
    rw [inlineDataEntry_patchMembers, hentry]
  -- nothing stands below a string
  have hstring : ∀ {s : String}, path ≠ [] → (Value.string s).at? path = none := by
    intro s hne
    cases path with
    | nil => exact absurd rfl hne
    | cons token path => rfl
  rw [patchInlineData_patchNode inlineData hentry, patchNode, Value.at?, Value.at?]
  unfold Value.child
  dsimp only
  by_cases hkdata : key = "data"
  · subst hkdata
    have hne : path ≠ [] := fun hnil => hdata (by rw [hnil])
    rw [InlineDataWrite.get_apply_data _ hpatched, (inlineDataEntry_eq_some.1 hpatched).1,
      Option.bind_some, Option.bind_some, hstring hne, hstring hne]
  · by_cases hkmime : key = "mimeType"
    · subst hkmime
      have hne : path ≠ [] := fun hnil => hmime (by rw [hnil])
      rw [InlineDataWrite.get_apply_mimeType _ hpatched, (inlineDataEntry_eq_some.1 hpatched).2,
        Option.bind_some, Option.bind_some, hstring hne, hstring hne]
    · rw [InlineDataWrite.get_apply _ hkdata hkmime]

theorem shape_patchInlineData (child : Value) :
    (patchInlineData writes (patchNode writes child)).shape = (patchNode writes child).shape := by
  rcases pair_cases child with hnone | ⟨inlineData, entry, rfl, hentry⟩
  · rw [patchInlineData_of_none hnone]
  · have hpatched : inlineDataEntry (patchMembers writes inlineData) = some entry := by
      rw [inlineDataEntry_patchMembers, hentry]
    rw [patchInlineData_patchNode inlineData hentry, patchNode, Value.shape, Value.shape,
      InlineDataWrite.keys_apply _ hpatched]

/-- **Patching changes nothing but the data and the mime type of the objects that hold a pair.** -/
theorem shapeAt_patchNode (path : List String) : ∀ v : Value,
    (∀ holder entry, HoldsInlineData v holder entry → path ≠ holder ++ ["inlineData", "data"] ∧
      path ≠ holder ++ ["inlineData", "mimeType"]) →
    (patchNode writes v).shapeAt path = v.shapeAt path := by
  induction path with
  | nil =>
    intro v _
    rw [Value.shapeAt_nil, Value.shapeAt_nil, shape_patchNode]
  | cons token path ih =>
    intro v h
    rw [Value.shapeAt_cons, Value.shapeAt_cons, child_patchNode]
    cases hchild : v.child token with
    | none => rfl
    | some child =>
      have hbelow : (patchNode writes child).shapeAt path = child.shapeAt path := by
        refine ih child fun holder entry hheld => ?_
        have hout := h (token :: holder) entry (holdsInlineData_cons.2 ⟨child, hchild, hheld⟩)
        exact ⟨fun hp => hout.1 (by rw [hp]; rfl), fun hp => hout.2 (by rw [hp]; rfl)⟩
      rw [Option.map_some, Option.bind_some, Option.bind_some, ← hbelow]
      by_cases htoken : token = "inlineData"
      · subst htoken
        rw [patchMember, if_pos rfl]
        cases path with
        | nil => rw [Value.shapeAt_nil, Value.shapeAt_nil, shape_patchInlineData]
        | cons key path =>
          unfold Value.shapeAt
          rw [at?_patchInlineData child]
          rintro inlineData entry rfl hentry
          have hout := h [] entry (holdsInlineData_nil.2 ⟨inlineData, hchild, hentry⟩)
          exact ⟨fun hp => hout.1 (by rw [hp]; rfl), fun hp => hout.2 (by rw [hp]; rfl)⟩
      · rw [patchMember_of_ne htoken]

/-- **An object that holds a pair holds what is written over it.** -/
theorem at?_patchNode_held (writes : InlineDataEntry → InlineDataWrite) (holder : List String) : ∀ v : Value, HoldsInlineData v holder entry →
    (patchNode writes v).at? (holder ++ ["inlineData", "data"]) =
        some (.string ((writes entry).data.getD entry.data)) ∧
      (patchNode writes v).at? (holder ++ ["inlineData", "mimeType"]) =
        some (.string ((writes entry).mimeType.getD entry.mimeType)) := by
  induction holder with
  | nil =>
    intro v h
    obtain ⟨inlineData, hchild, hentry⟩ := holdsInlineData_nil.1 h
    have hpatched : inlineDataEntry (patchMembers writes inlineData) = some entry := by
      rw [inlineDataEntry_patchMembers, hentry]
    have hobject : (patchNode writes v).child "inlineData" =
        some (.object ((writes entry).apply (patchMembers writes inlineData))) := by
      rw [child_patchNode, hchild, Option.map_some, patchMember, if_pos rfl,
        patchInlineData_patchNode inlineData hentry]
    have hbelow : ∀ key, (patchNode writes v).at? ["inlineData", key] =
        Map.get ((writes entry).apply (patchMembers writes inlineData)) key := by
      intro key
      rw [Value.at?, hobject, Option.bind_some, Value.at?_singleton]
      rfl
    rw [List.nil_append, List.nil_append, hbelow, hbelow]
    exact ⟨InlineDataWrite.get_apply_data _ hpatched, InlineDataWrite.get_apply_mimeType _ hpatched⟩
  | cons token holder ih =>
    intro v h
    obtain ⟨child, hchild, hheld⟩ := holdsInlineData_cons.1 h
    obtain ⟨hdata, hmime⟩ := ih child hheld
    -- the pair is not one of the strings of the child itself
    have hbelow : ∀ key, (patchNode writes v).at? (token :: holder ++ ["inlineData", key]) =
        (patchNode writes child).at? (holder ++ ["inlineData", key]) := by
      intro key
      rw [List.cons_append, Value.at?, child_patchNode, hchild, Option.map_some, Option.bind_some]
      by_cases htoken : token = "inlineData"
      · subst htoken
        rw [patchMember, if_pos rfl]
        cases holder with
        | nil => exact at?_patchInlineData child fun _ _ _ _ => by simp
        | cons t holder => exact at?_patchInlineData child fun _ _ _ _ => by simp
      · rw [patchMember_of_ne htoken]
    rw [hbelow, hbelow]
    exact ⟨hdata, hmime⟩

theorem holdsInlineData_patchNode (writes : InlineDataEntry → InlineDataWrite) {holder : List String}
    (h : HoldsInlineData v holder entry) :
    HoldsInlineData (patchNode writes v) holder
      ⟨(writes entry).mimeType.getD entry.mimeType, (writes entry).data.getD entry.data⟩ :=
  holdsInlineData_iff.2 (at?_patchNode_held writes holder v h)

end

end GeminiWorker
