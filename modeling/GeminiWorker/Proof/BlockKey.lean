import GeminiWorker.Lib.Hex
import GeminiWorker.Lib.JsonOrder
import GeminiWorker.Lib.JsonLayout
import GeminiWorker.Spec.BlockCache

/-!
# The key of a blocked request

* `canonicalizeJson_object`: the members of a canonical object, with their keys sorted.
* `canonicalizeJson_eq_iff`: the canonical form forgets the order of keys and nothing else.
* `blockCacheKey_eq_iff`: so does the key, which keeps the path and the base URL apart.
-/

namespace GeminiWorker

open Json (Value Map Document)

/-! ## The canonical form -/

theorem canonicalizeItems_eq (items : List Value) : canonicalizeItems items = items.map canonicalizeJson := by
  induction items with
  | nil => rfl
  | cons v items ih => rw [canonicalizeItems, ih, List.map_cons]

theorem get_canonicalizeMembers (members : Map) (key : String) :
    Map.get (canonicalizeMembers members) key = (Map.get members key).map canonicalizeJson := by
  induction members with
  | nil => rfl
  | cons member members ih =>
    obtain ⟨k, v⟩ := member
    rw [canonicalizeMembers, Map.get_cons, Map.get_cons, ih]
    split <;> rfl

/-- The members of a canonical object. -/
def sortedMembers (members : Map) : Map :=
  (Json.sortKeys (Map.keys members)).filterMap fun key =>
    (Map.get members key).map fun v => (key, canonicalizeJson v)

theorem canonicalizeJson_object {members : Map} (hkeys : (Map.keys members).Nodup) :
    canonicalizeJson (.object members) = .object (sortedMembers members) := by
  have hsorted : (Json.sortKeys (Map.keys members)).Nodup := (Json.sortKeys_perm _).nodup_iff.mpr hkeys
  have hfold := Map.foldl_insert_get (canonicalizeMembers members) hsorted [] fun _ _ => List.not_mem_nil
  have hvalues : (Json.sortKeys (Map.keys members)).filterMap (fun key =>
      (Map.get (canonicalizeMembers members) key).map fun v => (key, v)) = sortedMembers members := by
    simp only [get_canonicalizeMembers, Option.map_map]
    rfl
  rw [List.nil_append, hvalues] at hfold
  rw [canonicalizeJson]
  exact congrArg Value.object hfold

theorem keys_sortedMembers (members : Map) :
    Map.keys (sortedMembers members) = Json.sortKeys (Map.keys members) := by
  rw [sortedMembers, Map.keys, List.map_filterMap]
  have hall : ∀ key ∈ Json.sortKeys (Map.keys members),
      ((Map.get members key).map fun v => (key, canonicalizeJson v)).map (·.1) = some key := by
    intro key hkey
    have hmem : key ∈ Map.keys members := (Json.sortKeys_perm _).mem_iff.mp hkey
    obtain ⟨v, hv⟩ := Option.isSome_iff_exists.mp (Map.get_isSome_iff.mpr hmem)
    rw [hv]
    rfl
  rw [List.filterMap_congr hall, List.filterMap_some]

theorem nodup_keys_sortedMembers {members : Map} (hkeys : (Map.keys members).Nodup) :
    (Map.keys (sortedMembers members)).Nodup := by
  rw [keys_sortedMembers]
  exact (Json.sortKeys_perm _).nodup_iff.mpr hkeys

theorem mem_sortedMembers {members : Map} {e : String × Value} (he : e ∈ sortedMembers members) :
    ∃ v, Map.get members e.1 = some v ∧ e.2 = canonicalizeJson v := by
  obtain ⟨key, -, hkey⟩ := List.mem_filterMap.mp he
  obtain ⟨v, hv, rfl⟩ := Option.map_eq_some_iff.mp hkey
  exact ⟨v, hv, rfl⟩

theorem get_sortedMembers (members : Map) (key : String) :
    Map.get (sortedMembers members) key = (Map.get members key).map canonicalizeJson := by
  have hmem : key ∈ Map.keys (sortedMembers members) ↔ key ∈ Map.keys members := by
    rw [keys_sortedMembers]
    exact (Json.sortKeys_perm _).mem_iff
  rcases hget : Map.get (sortedMembers members) key with _ | w
  · have habsent : Map.get members key = none :=
      Map.get_eq_none_iff.mpr fun h => Map.get_eq_none_iff.mp hget (hmem.mpr h)
    rw [habsent]
    rfl
  · obtain ⟨v, hv, hw⟩ := mem_sortedMembers (Map.mem_of_get hget)
    have hw' : w = canonicalizeJson v := hw
    have hv' : Map.get members key = some v := hv
    rw [hv', hw']
    rfl

/-- A canonical object is one of each key and what it leads to. -/
theorem sortedMembers_eq_iff {members members' : Map} (hkeys : (Map.keys members).Nodup)
    (hkeys' : (Map.keys members').Nodup) :
    sortedMembers members = sortedMembers members' ↔
      ∀ key, (Map.get members key).map canonicalizeJson = (Map.get members' key).map canonicalizeJson := by
  constructor
  · intro h key
    rw [← get_sortedMembers, h, get_sortedMembers]
  · intro h
    apply Map.ext (nodup_keys_sortedMembers hkeys)
    · rw [keys_sortedMembers, keys_sortedMembers, Json.sortKeys_eq_iff hkeys hkeys']
      intro key
      have hsome := congrArg Option.isSome (h key)
      rw [Option.isSome_map, Option.isSome_map] at hsome
      rw [← Map.get_isSome_iff, ← Map.get_isSome_iff, hsome]
    · intro key
      rw [get_sortedMembers, get_sortedMembers, h]

/-- The canonical form of a document is a document. -/
theorem canonicalizeJson_wellFormed {v : Value} : v.WellFormed → (canonicalizeJson v).WellFormed := by
  induction v using Value.induction with
  | null | bool | number | string => exact id
  | array items ih =>
    rintro ⟨hdistinct, hnumeric⟩
    rw [canonicalizeJson, canonicalizeItems_eq]
    refine Value.wellFormed_array fun w hw => ?_
    obtain ⟨v, hv, rfl⟩ := List.mem_map.mp hw
    exact ih v hv ⟨Json.Value.distinct_array.mp hdistinct v hv, Json.Value.numeric_array.mp hnumeric v hv⟩
  | object members ih =>
    rintro ⟨hdistinct, hnumeric⟩
    obtain ⟨hkeys, hmembers⟩ := Json.Value.distinct_object.mp hdistinct
    rw [Json.Value.numeric_object] at hnumeric
    rw [canonicalizeJson_object hkeys]
    have hmember : ∀ e ∈ sortedMembers members, e.2.WellFormed := by
      intro e he
      obtain ⟨v, hv, hvalue⟩ := mem_sortedMembers he
      have hmem := Map.mem_of_get hv
      rw [hvalue]
      exact ih _ hmem ⟨hmembers _ hmem, hnumeric _ hmem⟩
    exact ⟨Json.Value.distinct_object.mpr ⟨nodup_keys_sortedMembers hkeys, fun e he => (hmember e he).1⟩,
      Json.Value.numeric_object.mpr fun e he => (hmember e he).2⟩

/-- Documents of one canonical form differ in the order of keys only. -/
theorem sameUpToOrder_of_canonicalizeJson {v w : Value} (hv : v.Distinct) (hw : w.Distinct)
    (h : canonicalizeJson v = canonicalizeJson w) : v.SameUpToOrder w := by
  induction v using Value.induction generalizing w with
  | array items ih =>
    rcases w with _ | _ | _ | _ | items' | members'
    case array =>
      simp only [canonicalizeJson, canonicalizeItems_eq, Value.array.injEq] at h
      rw [Json.Value.distinct_array] at hv hw
      refine .array (by simpa using congrArg List.length h) fun i x x' hx hx' => ?_
      have hitem := congrArg (fun items : List Value => items[i]?) h
      simp only [List.getElem?_map, hx, hx', Option.map_some, Option.some.injEq] at hitem
      exact ih x (List.mem_of_getElem? hx) (hv x (List.mem_of_getElem? hx))
        (hw x' (List.mem_of_getElem? hx')) hitem
    all_goals simp only [canonicalizeJson, reduceCtorEq] at h
  | object members ih =>
    rcases w with _ | _ | _ | _ | items' | members'
    case object =>
      obtain ⟨hkeys, hmembers⟩ := Json.Value.distinct_object.mp hv
      obtain ⟨hkeys', hmembers'⟩ := Json.Value.distinct_object.mp hw
      rw [canonicalizeJson_object hkeys, canonicalizeJson_object hkeys'] at h
      have hget := (sortedMembers_eq_iff hkeys hkeys').mp (Value.object.inj h)
      refine .object (fun key => ?_) fun key x x' hx hx' => ?_
      · have hsome := congrArg Option.isSome (hget key)
        rw [Option.isSome_map, Option.isSome_map] at hsome
        rw [← Map.get_isSome_iff, ← Map.get_isSome_iff, hsome]
      · have hvalue := hget key
        rw [hx, hx', Option.map_some, Option.map_some, Option.some.injEq] at hvalue
        exact ih _ (Map.mem_of_get hx) (hmembers _ (Map.mem_of_get hx)) (hmembers' _ (Map.mem_of_get hx'))
          hvalue
    all_goals simp only [canonicalizeJson, reduceCtorEq] at h
  | null =>
    rcases w with _ | _ | _ | _ | _ | _ <;> simp only [canonicalizeJson, reduceCtorEq] at h
    exact .null
  | bool b =>
    rcases w with _ | b' | _ | _ | _ | _ <;>
      simp only [canonicalizeJson, reduceCtorEq, Value.bool.injEq] at h
    exact h ▸ .bool b
  | number spelling =>
    rcases w with _ | _ | spelling' | _ | _ | _ <;>
      simp only [canonicalizeJson, reduceCtorEq, Value.number.injEq] at h
    exact h ▸ .number spelling
  | string s =>
    rcases w with _ | _ | _ | s' | _ | _ <;>
      simp only [canonicalizeJson, reduceCtorEq, Value.string.injEq] at h
    exact h ▸ .string s

theorem canonicalizeJson_of_sameUpToOrder {v w : Value} (h : v.SameUpToOrder w) (hv : v.Distinct)
    (hw : w.Distinct) : canonicalizeJson v = canonicalizeJson w := by
  induction h with
  | null | bool | number | string => rfl
  | @array items items' hlength _ ih =>
    rw [Json.Value.distinct_array] at hv hw
    rw [canonicalizeJson, canonicalizeJson, canonicalizeItems_eq, canonicalizeItems_eq]
    congr 1
    apply List.ext_getElem (by rw [List.length_map, List.length_map, hlength])
    intro i hi hi'
    rw [List.length_map] at hi hi'
    rw [List.getElem_map, List.getElem_map]
    exact ih i _ _ (List.getElem?_eq_getElem hi) (List.getElem?_eq_getElem hi')
      (hv _ (List.getElem_mem hi)) (hw _ (List.getElem_mem hi'))
  | @object members members' hkeySet _ ih =>
    obtain ⟨hkeys, hmembers⟩ := Json.Value.distinct_object.mp hv
    obtain ⟨hkeys', hmembers'⟩ := Json.Value.distinct_object.mp hw
    rw [canonicalizeJson_object hkeys, canonicalizeJson_object hkeys']
    congr 1
    rw [sortedMembers_eq_iff hkeys hkeys']
    intro key
    rcases hget : Map.get members key with _ | x
    · have habsent : Map.get members' key = none :=
        Map.get_eq_none_iff.mpr fun h => Map.get_eq_none_iff.mp hget ((hkeySet key).mpr h)
      rw [habsent]
    · have hpresent : key ∈ Map.keys members' :=
        (hkeySet key).mp (Map.get_isSome_iff.mp (by rw [hget]; rfl))
      obtain ⟨x', hx'⟩ := Option.isSome_iff_exists.mp (Map.get_isSome_iff.mpr hpresent)
      rw [hx', Option.map_some, Option.map_some, ih key x x' hget hx'
        (hmembers _ (Map.mem_of_get hget)) (hmembers' _ (Map.mem_of_get hx'))]

/-- The canonical form forgets the order of keys and nothing else. -/
theorem canonicalizeJson_eq_iff {v w : Value} (hv : v.Distinct) (hw : w.Distinct) :
    canonicalizeJson v = canonicalizeJson w ↔ v.SameUpToOrder w :=
  ⟨sameUpToOrder_of_canonicalizeJson hv hw, fun h => canonicalizeJson_of_sameUpToOrder h hv hw⟩

/-! ## The key -/

/-- The compact form of a document determines it. -/
theorem print_inj {v w : Value} (hv : v.WellFormed) (hw : w.WellFormed)
    (h : Json.print v = Json.print w) : v = w := by
  have hread := Json.parse_print hv.1 hv.2
  rw [h, Json.parse_print hw.1 hw.2] at hread
  exact (Option.some.inj hread).symm

/-- A list is split at the first occurrence of an element in one way. -/
theorem append_cons_inj {α : Type} {x : α} {l l' r r' : List α} (hl : x ∉ l) (hl' : x ∉ l')
    (h : l ++ x :: r = l' ++ x :: r') : l = l' ∧ r = r' := by
  induction l generalizing l' with
  | nil =>
    rcases l' with _ | ⟨y, l'⟩
    · exact ⟨rfl, (List.cons.inj h).2⟩
    · exact absurd (List.cons.inj h).1 fun hy => hl' (hy ▸ List.mem_cons_self)
  | cons y l ih =>
    rcases l' with _ | ⟨y', l'⟩
    · exact absurd (List.cons.inj h).1.symm fun hy => hl (hy ▸ List.mem_cons_self)
    · obtain ⟨hhead, htail⟩ := List.cons.inj h
      obtain ⟨hlist, hrest⟩ := ih (fun hx => hl (List.mem_cons_of_mem _ hx))
        (fun hx => hl' (List.mem_cons_of_mem _ hx)) htail
      exact ⟨by rw [hhead, hlist], hrest⟩

/-- Three texts on lines of their own, where neither the first nor the last has a line break. -/
theorem lines_inj {a a' b b' c c' : String} (ha : '\n' ∉ a.toList) (ha' : '\n' ∉ a'.toList)
    (hc : '\n' ∉ c.toList) (hc' : '\n' ∉ c'.toList)
    (h : a ++ "\n" ++ b ++ "\n" ++ c = a' ++ "\n" ++ b' ++ "\n" ++ c') : a = a' ∧ b = b' ∧ c = c' := by
  have hlist : a.toList ++ '\n' :: (b.toList ++ '\n' :: c.toList) =
      a'.toList ++ '\n' :: (b'.toList ++ '\n' :: c'.toList) := by
    simpa [String.toList_append] using congrArg String.toList h
  obtain ⟨hfirst, hrest⟩ := append_cons_inj ha ha' hlist
  -- the last line break is the first one from the end
  have hreverse : c.toList.reverse ++ '\n' :: b.toList.reverse =
      c'.toList.reverse ++ '\n' :: b'.toList.reverse := by
    simpa using congrArg List.reverse hrest
  obtain ⟨hlast, hmiddle⟩ := append_cons_inj (by rwa [List.mem_reverse]) (by rwa [List.mem_reverse]) hreverse
  exact ⟨String.toList_inj.mp hfirst, String.toList_inj.mp (List.reverse_injective hmiddle),
    String.toList_inj.mp (List.reverse_injective hlast)⟩

theorem newline_not_mem_hex (bytes : List UInt8) : '\n' ∉ (Hex.encode bytes).toList := by
  intro h
  have halphanum := Hex.isAlphanum_of_mem_encode h
  exact absurd halphanum (by decide)

/-- **The key of a blocked request is exact.** Two requests have one key exactly if they have
one path, one upstream and one body, up to the order of keys. -/
theorem blockCacheKey_eq_iff {sha256 : List UInt8 → List UInt8} (hsha256 : Function.Injective sha256)
    {path path' : String} (hpath : '\n' ∉ path.toList) (hpath' : '\n' ∉ path'.toList)
    (baseUrl baseUrl' : String) (body body' : Document) :
    UpstreamBlockCacheKey.new (fun bytes => Hex.encode (sha256 bytes)) path baseUrl body =
        UpstreamBlockCacheKey.new (fun bytes => Hex.encode (sha256 bytes)) path' baseUrl' body' ↔
      path = path' ∧ baseUrl = baseUrl' ∧ body.val.SameUpToOrder body'.val := by
  rw [← canonicalizeJson_eq_iff body.property.1 body'.property.1]
  constructor
  · intro h
    obtain ⟨hpaths, hbaseUrls, hhash⟩ :=
      lines_inj hpath hpath' (newline_not_mem_hex _) (newline_not_mem_hex _) h
    have hprint := hsha256 (Hex.encode_injective hhash)
    exact ⟨hpaths, hbaseUrls, print_inj (canonicalizeJson_wellFormed body.property)
      (canonicalizeJson_wellFormed body'.property) hprint⟩
  · rintro ⟨rfl, rfl, hbody⟩
    simp only [UpstreamBlockCacheKey.new, hbody]

/-- A digest that is SHA-256 on the body of the example, and collides nowhere. -/
def exampleDigest (bytes : List UInt8) : List UInt8 :=
  if bytes = Text.bytes "\x7b\"model\":\"gpt-image-2\",\"prompt\":\"blocked\"\x7d" then
    [163, 17, 156, 218, 177, 59, 135, 142, 190, 148, 136, 78, 29, 61, 46, 93, 92, 205, 225, 36, 94, 138,
      182, 52, 202, 6, 64, 156, 83, 98, 203, 129]
  else 0 :: bytes

theorem exampleDigest_injective : Function.Injective exampleDigest := by
  intro bytes bytes' h
  unfold exampleDigest at h
  split at h <;> split at h
  · rename_i hbytes hbytes'
    rw [hbytes, hbytes']
  · exact absurd (List.cons.inj h).1 (by decide)
  · exact absurd (List.cons.inj h).1 (by decide)
  · exact (List.cons.inj h).2

def exampleBody : Document :=
  ⟨.object [("model", .string "gpt-image-2"), ("prompt", .string "blocked")], by
    simp [Json.Map.keys]⟩

def exampleBodyReordered : Document :=
  ⟨.object [("prompt", .string "blocked"), ("model", .string "gpt-image-2")], by
    simp [Json.Map.keys]⟩

theorem blockCacheKey_example :
    UpstreamBlockCacheKey.new (fun bytes => Hex.encode (exampleDigest bytes)) "/v1/images/generations"
        "https://upstream.example" exampleBody =
      UpstreamBlockCacheKey.new (fun bytes => Hex.encode (exampleDigest bytes)) "/v1/images/generations"
        "https://upstream.example" exampleBodyReordered := by
  have hpath : '\n' ∉ "/v1/images/generations".toList := by decide
  have hbody : exampleBody.val.SameUpToOrder exampleBodyReordered.val := by
    apply Value.SameUpToOrder.object
    · intro key
      simp only [Map.keys, List.map_cons, List.map_nil, List.mem_cons, List.not_mem_nil, or_false]
      exact or_comm
    · intro key v v' hv hv'
      simp only [Map.get_cons, Map.get_nil] at hv hv'
      by_cases hmodel : key = "model"
      · subst hmodel
        cases hv
        cases hv'
        exact .string _
      · rw [if_neg hmodel] at hv hv'
        split at hv
        · rename_i hprompt
          rw [if_pos hprompt] at hv'
          cases hv
          cases hv'
          exact .string _
        · cases hv
  exact (blockCacheKey_eq_iff exampleDigest_injective hpath hpath "https://upstream.example"
    "https://upstream.example" exampleBody exampleBodyReordered).mpr ⟨rfl, rfl, hbody⟩

end GeminiWorker
