import GeminiWorker.Proof.AiapidevRewrite

/-!
# What a body loses on its way to aiapidev

Each value is to be found where its path leads after the keys were renamed. An object with inline data is
replaced by them, and of two members that get one name the later stays.

* `occursAs_iff`: an object is found with all its members if they are apart.
* `carried_iff`: so is all of a value if the members of each of its objects are.
* `losesNothing_iff`: and all of a body, but for the output directive.
-/

namespace GeminiWorker

open Json (Value Map)

/-- The key of the inline data that take the place of an object. -/
def convertedKey (v : Value) : Option String :=
  v.asObject.bind fun map =>
    if hasInlineData map then some (if (map.get "inlineData").isSome then "inlineData" else "inline_data") else none

/-- A path that does not lead into inline data that are converted. -/
def Unconverted (v : Value) (path : List String) : Prop :=
  ∀ above key below, path = above ++ key :: below → (v.at? above).bind convertedKey ≠ some key

/-- A value is found as another one: a primitive as it is, an array with its items, an object with a member
for each of these keys. -/
def OccursAs (v : Value) (keys : List String) (w : Value) : Prop :=
  w.outline = v.outline ∧ w.keys.length = keys.length

/-- The keys of a value that are not taken out. -/
def leftKeys (path : List String) (v : Value) : List String := v.keys.filter fun key => !isStripped (path ++ [key])

/-- **Nothing is lost**: what is neither taken out nor in inline data that are converted is found at its path,
with the keys renamed. -/
def LosesNothing (body result : Value) : Prop :=
  ∀ path v, isStripped path = false → Unconverted body path → body.at? path = some v →
    ∃ w, result.at? (path.map rewriteAiapidevKey) = some w ∧ OccursAs v (leftKeys path v) w

/-- There is nothing next to inline data that are converted, and no two keys have one name. -/
structure KeysApart (v : Value) (keys : List String) : Prop where
  alone : ∀ key, convertedKey v = some key → ∀ k ∈ keys, k = key
  apart : convertedKey v = none → ∀ k ∈ keys, ∀ k' ∈ keys, rewriteAiapidevKey k = rewriteAiapidevKey k' → k = k'

/-- The members of each object of a body are apart. -/
def Preservable (body : Value) : Prop :=
  ∀ path v, isStripped path = false → Unconverted body path → body.at? path = some v →
    KeysApart v (leftKeys path v)

/-! ## One value -/

section

variable {parse : String → Option FileUrl} {externalProxyPrefix : String} {externalProxyDomains : List String}

theorem rewriteItems_eq (path : String) (items : List Value) : ∀ index,
    rewriteItems parse externalProxyPrefix externalProxyDomains path index items =
      items.mapIdx fun i item => rewriteAiapidevValue parse externalProxyPrefix externalProxyDomains
        (path ++ "/" ++ toString (index + i)) item := by
  induction items with
  | nil =>
    intro index
    rfl
  | cons item items ih =>
    intro index
    rw [rewriteItems, ih, List.mapIdx_cons]
    refine congrArg (_ :: ·) (List.mapIdx_eq_mapIdx_iff.mpr fun i _ => ?_)
    rw [Nat.add_assoc, Nat.add_comm 1]

/-- The order in which the members are inserted does not add to them. -/
theorem insertionOrder_perm (path : String) (members : List (String × Value)) :
    (insertionOrder path members).Perm members := by
  unfold insertionOrder
  split
  · have hparts : members.filter (fun e => e.1 == "parts") =
        (members.filter fun e => !(e.1 == "role")).filter fun e => e.1 == "parts" := by
      rw [List.filter_filter]
      refine List.filter_congr fun e _ => ?_
      by_cases h : e.1 = "parts"
      · simp [h]
      · simp [h]
    have hothers : members.filter (fun e => !(e.1 == "role" || e.1 == "parts")) =
        (members.filter fun e => !(e.1 == "role")).filter fun e => !(e.1 == "parts") := by
      rw [List.filter_filter]
      refine List.filter_congr fun e _ => ?_
      rw [Bool.not_or, Bool.and_comm]
    rw [hparts, hothers, List.append_assoc]
    exact ((List.filter_append_perm _ _).append_left _).trans (List.filter_append_perm _ _)
  · exact List.Perm.refl _

theorem mem_keys_insertAll (members : List (String × Value)) (name : String) :
    name ∈ Map.keys (insertAll members) ↔ name ∈ members.map Prod.fst := by
  rw [← Map.get_isSome_iff, get_insertAll, Option.isSome_map, List.find?_isSome]
  constructor
  · rintro ⟨e, he, hname⟩
    exact List.mem_map.mpr ⟨e, List.mem_reverse.mp he, eq_of_beq hname⟩
  · intro h
    obtain ⟨e, he, hname⟩ := List.mem_map.mp h
    exact ⟨e, List.mem_reverse.mpr he, beq_iff_eq.mpr hname⟩

theorem nodup_insertAll (members : List (String × Value)) : (Map.keys (insertAll members)).Nodup := by
  unfold insertAll
  have hfold : ∀ (members : List (String × Value)) (out : Map), (Map.keys out).Nodup →
      (Map.keys (members.foldl (fun out e => out.insert e.1 e.2) out)).Nodup := by
    intro members
    induction members with
    | nil => exact fun _ h => h
    | cons e members ih => exact fun out h => ih _ (Map.nodup_insert h e.1 e.2)
  exact hfold members [] List.nodup_nil

/-- Each member has a place of its own exactly if no two have one name. -/
theorem length_insertAll_iff (members : List (String × Value)) :
    (Map.keys (insertAll members)).length = members.length ↔ (members.map Prod.fst).Nodup := by
  have hmem : ∀ name, name ∈ Map.keys (insertAll members) ↔ name ∈ members.map Prod.fst := mem_keys_insertAll members
  constructor
  · intro hlength
    have hsub : (Map.keys (insertAll members)).Subperm (members.map Prod.fst) :=
      List.subperm_of_subset (nodup_insertAll members) fun name h => (hmem name).mp h
    have hperm := hsub.perm_of_length_le (by rw [List.length_map, hlength])
    exact hperm.nodup (nodup_insertAll members)
  · intro hnodup
    have hperm := (List.perm_ext_iff_of_nodup (nodup_insertAll members) hnodup).mpr hmem
    rw [hperm.length_eq, List.length_map]

/-- A member that has no name with another is found under its name. -/
theorem get_insertAll_of_nodup {members : List (String × Value)} (hnodup : (members.map Prod.fst).Nodup)
    {e : String × Value} (he : e ∈ members) : Map.get (insertAll members) e.1 = some e.2 := by
  rw [get_insertAll]
  have hsome : (members.reverse.find? fun e' => e'.1 == e.1).isSome = true :=
    List.find?_isSome.mpr ⟨e, List.mem_reverse.mpr he, beq_self_eq_true _⟩
  obtain ⟨e', hfound⟩ := Option.isSome_iff_exists.mp hsome
  have hmem : e' ∈ members := List.mem_reverse.mp (List.mem_of_find?_eq_some hfound)
  have hname : e'.1 = e.1 := by simpa using List.find?_some hfound
  obtain rfl : e' = e := List.inj_on_of_nodup_map hnodup hmem he hname
  rw [hfound, Option.map_some]

/-- What is written for an object without inline data. -/
theorem rewriteAiapidevValue_object {map : Map} (hdata : hasInlineData map = false) (path : String) :
    rewriteAiapidevValue parse externalProxyPrefix externalProxyDomains path (.object map) =
      .object (insertAll (insertionOrder path
        (rewriteMembers parse externalProxyPrefix externalProxyDomains path map))) := by
  have hnone := @hasInlineData_eq parse externalProxyPrefix externalProxyDomains map
  rw [hdata, Option.isSome_eq_false_iff, Option.isNone_iff_eq_none] at hnone
  rw [rewriteAiapidevValue, hnone]

/-- What is written for an object with inline data. -/
theorem rewriteAiapidevValue_inlineData {map : Map} (hdata : hasInlineData map = true) (path : String) :
    ∃ name payload, rewriteAiapidevValue parse externalProxyPrefix externalProxyDomains path (.object map) =
      .object [(name, payload)] := by
  have hsome := @hasInlineData_eq parse externalProxyPrefix externalProxyDomains map
  rw [hdata] at hsome
  obtain ⟨⟨name, payload⟩, hpayload⟩ := Option.isSome_iff_exists.mp hsome
  refine ⟨name, payload, ?_⟩
  rw [rewriteAiapidevValue, hpayload]

theorem convertedKey_object (map : Map) : convertedKey (.object map) =
    if hasInlineData map then some (if (map.get "inlineData").isSome then "inlineData" else "inline_data") else none :=
  rfl

/-- The inline data are there. -/
theorem convertedKey_mem {v : Value} {key : String} (h : convertedKey v = some key) : key ∈ v.keys := by
  obtain ⟨map, hmap, -⟩ := Option.bind_eq_some_iff.mp h
  obtain rfl : v = .object map := by
    cases v with
    | object members => exact congrArg Value.object (Option.some.inj hmap)
    | null | bool | number | string | array => cases hmap
  rw [convertedKey_object] at h
  split at h
  · rename_i hdata
    have hkey := Option.some.inj h
    have hpresent : ((map.get "inlineData").or (map.get "inline_data")).isSome = true := by
      obtain ⟨e, he⟩ := Option.isSome_iff_exists.mp hdata
      obtain ⟨inlineData, hinline, -⟩ := Option.bind_eq_some_iff.mp he
      obtain ⟨x, hx, -⟩ := Option.bind_eq_some_iff.mp hinline
      rw [hx]
      rfl
    refine Map.get_isSome_iff.mp ?_
    by_cases hcamel : (map.get "inlineData").isSome = true
    · rw [if_pos hcamel] at hkey
      rw [← hkey]
      exact hcamel
    · rw [if_neg hcamel] at hkey
      rw [Option.isSome_or, Bool.or_eq_true] at hpresent
      rw [← hkey]
      exact hpresent.resolve_left hcamel
  · cases h

/-- The names under which the members are written. -/
theorem names_perm (path : String) (map : Map) :
    ((insertionOrder path (rewriteMembers parse externalProxyPrefix externalProxyDomains path map)).map Prod.fst).Perm
      ((Map.keys map).map rewriteAiapidevKey) := by
  have hnames : (rewriteMembers parse externalProxyPrefix externalProxyDomains path map).map Prod.fst =
      (Map.keys map).map rewriteAiapidevKey := by
    rw [rewriteMembers_eq, Map.keys, List.map_map, List.map_map]
    rfl
  rw [← hnames]
  exact (insertionOrder_perm path _).map Prod.fst

/-- The names are different if the keys are apart. -/
theorem nodup_names_iff {map : Map} (hkeys : (Map.keys map).Nodup) (path : String) :
    ((insertionOrder path (rewriteMembers parse externalProxyPrefix externalProxyDomains path map)).map
      Prod.fst).Nodup ↔
      ∀ k ∈ Map.keys map, ∀ k' ∈ Map.keys map, rewriteAiapidevKey k = rewriteAiapidevKey k' → k = k' := by
  rw [(names_perm path map).nodup_iff, List.nodup_map_iff_inj_on hkeys]

/-- Values without members have none that could be lost. -/
theorem keysApart_nil (v : Value) : KeysApart v [] :=
  ⟨fun _ _ _ hk => absurd hk List.not_mem_nil, fun _ _ hk => absurd hk List.not_mem_nil⟩

/-- One key is all there is. -/
theorem length_eq_one_iff_alone {keys : List String} (hnodup : keys.Nodup) {key : String} (hkey : key ∈ keys) :
    1 = keys.length ↔ ∀ k ∈ keys, k = key := by
  constructor
  · intro hone k hk
    obtain ⟨only, rfl⟩ := List.length_eq_one_iff.mp hone.symm
    rw [List.mem_singleton.mp hk, List.mem_singleton.mp hkey]
  · intro halone
    have hmem : ∀ k, k ∈ keys ↔ k ∈ [key] := by
      intro k
      rw [List.mem_singleton]
      exact ⟨halone k, fun h => h ▸ hkey⟩
    exact ((List.perm_ext_iff_of_nodup hnodup (List.nodup_singleton key)).mpr hmem).length_eq.symm

theorem occursAs_object_iff {map : Map} (hkeys : (Map.keys map).Nodup) (path : String) :
    OccursAs (.object map) (Map.keys map)
      (rewriteAiapidevValue parse externalProxyPrefix externalProxyDomains path (.object map)) ↔
        KeysApart (.object map) (Map.keys map) := by
  have hconverted := convertedKey_object map
  rcases hdata : hasInlineData map with _ | _
  · rw [hdata, if_neg Bool.false_ne_true] at hconverted
    have hlength : (insertionOrder path
        (rewriteMembers parse externalProxyPrefix externalProxyDomains path map)).length = (Map.keys map).length := by
      rw [(insertionOrder_perm path _).length_eq, rewriteMembers_eq, List.length_map, Map.keys, List.length_map]
    rw [rewriteAiapidevValue_object hdata]
    constructor
    · rintro ⟨-, hall⟩
      have hnames := (length_insertAll_iff _).mp (hall.trans hlength.symm)
      refine ⟨fun key h => ?_, fun _ => (nodup_names_iff hkeys path).mp hnames⟩
      rw [hconverted] at h
      cases h
    · intro hapart
      have hnames := (@nodup_names_iff parse externalProxyPrefix externalProxyDomains map hkeys path).mpr
        (hapart.apart hconverted)
      exact ⟨rfl, ((length_insertAll_iff _).mpr hnames).trans hlength⟩
  · rw [hdata, if_pos rfl] at hconverted
    have hone := length_eq_one_iff_alone hkeys (convertedKey_mem hconverted)
    obtain ⟨name, payload, hresult⟩ :=
      @rewriteAiapidevValue_inlineData parse externalProxyPrefix externalProxyDomains map hdata path
    rw [hresult]
    constructor
    · rintro ⟨-, hall⟩
      refine ⟨fun key h => ?_, fun h => ?_⟩
      · obtain rfl := Option.some.inj (hconverted.symm.trans h)
        exact hone.mp hall
      · rw [hconverted] at h
        cases h
    · intro hapart
      exact ⟨rfl, hone.mpr (hapart.alone _ hconverted)⟩

/-- **A value is found with all its members** exactly if they are apart. -/
theorem occursAs_iff {v : Value} (hv : v.Distinct) (path : String) :
    OccursAs v v.keys (rewriteAiapidevValue parse externalProxyPrefix externalProxyDomains path v) ↔
      KeysApart v v.keys := by
  cases v with
  | null | bool | number | string =>
    refine ⟨fun _ => keysApart_nil _, fun _ => ?_⟩
    simp [rewriteAiapidevValue, OccursAs]
  | array items =>
    refine ⟨fun _ => keysApart_nil _, fun _ => ?_⟩
    rw [rewriteAiapidevValue, rewriteItems_eq]
    exact ⟨congrArg Json.Shape.array List.length_mapIdx, rfl⟩
  | object map => exact occursAs_object_iff (Value.distinct_object.mp hv).1 path

/-! ## The values below -/

/-- The key of an item is not one that is renamed. -/
theorem rewriteAiapidevKey_index {token : String} {i : ℕ} (h : Json.parseIndex token = some i) :
    rewriteAiapidevKey token = token := by
  have hne : ∀ key, Json.parseIndex key = none → token ≠ key := by
    rintro key hkey rfl
    rw [hkey] at h
    cases h
  unfold rewriteAiapidevKey
  rw [if_neg (hne _ (by decide +kernel)), if_neg (hne _ (by decide +kernel)), if_neg (hne _ (by decide +kernel)),
    if_neg (hne _ (by decide +kernel)), if_neg (hne _ (by decide +kernel))]

/-- **What lies below a token** is rewritten below its name. -/
theorem child_rewriteAiapidevValue {v : Value} (hv : v.Distinct) (hapart : KeysApart v v.keys) {token : String}
    {child : Value} (hchild : v.child token = some child) (hconverted : convertedKey v ≠ some token) (path : String) :
    ∃ path', (rewriteAiapidevValue parse externalProxyPrefix externalProxyDomains path v).child
      (rewriteAiapidevKey token) =
        some (rewriteAiapidevValue parse externalProxyPrefix externalProxyDomains path' child) := by
  cases v with
  | null | bool | number | string => cases hchild
  | array items =>
    obtain ⟨i, hi, hitem⟩ := Option.bind_eq_some_iff.mp hchild
    refine ⟨path ++ "/" ++ toString (0 + i), ?_⟩
    rw [rewriteAiapidevKey_index hi, rewriteAiapidevValue, rewriteItems_eq]
    show (Json.parseIndex token).bind _ = _
    rw [hi, Option.bind_some, List.getElem?_mapIdx, hitem, Option.map_some]
  | object map =>
    have hkeys : (Map.keys map).Nodup := (Value.distinct_object.mp hv).1
    have hmem : (token, child) ∈ map := Map.mem_of_get hchild
    have htoken : token ∈ Map.keys map := List.mem_map_of_mem (f := Prod.fst) hmem
    rcases hkey : convertedKey (.object map) with _ | key
    · have hdata : hasInlineData map = false := by
        rw [convertedKey_object] at hkey
        by_contra hdata
        rw [Bool.not_eq_false] at hdata
        rw [hdata, if_pos rfl] at hkey
        cases hkey
      have hnames := (@nodup_names_iff parse externalProxyPrefix externalProxyDomains map hkeys path).mpr
        (hapart.apart hkey)
      refine ⟨path ++ "/" ++ escapeJsonPointerToken (rewriteAiapidevKey token), ?_⟩
      rw [rewriteAiapidevValue_object hdata]
      refine get_insertAll_of_nodup hnames (e := (rewriteAiapidevKey token, _)) ?_
      rw [(insertionOrder_perm path _).mem_iff, rewriteMembers_eq]
      exact List.mem_map.mpr ⟨(token, child), hmem, rfl⟩
    · -- there is no other member
      have halone := hapart.alone key hkey token htoken
      exact absurd (halone ▸ hkey) hconverted

/-! ## All of a value -/

/-- What is not in inline data that are converted is found in another value. -/
def Carried (v result : Value) : Prop :=
  ∀ path u, Unconverted v path → v.at? path = some u →
    ∃ w, result.at? (path.map rewriteAiapidevKey) = some w ∧ OccursAs u u.keys w

def AllApart (v : Value) : Prop := ∀ path u, Unconverted v path → v.at? path = some u → KeysApart u u.keys

theorem unconverted_nil (v : Value) : Unconverted v [] := by
  intro above key below h
  cases above <;> cases h

theorem unconverted_cons {v child : Value} {token : String} (hchild : v.child token = some child)
    (path : List String) :
    Unconverted v (token :: path) ↔ convertedKey v ≠ some token ∧ Unconverted child path := by
  constructor
  · intro h
    refine ⟨h [] token path rfl, fun above key below hpath => ?_⟩
    have hbelow := h (token :: above) key below (by rw [hpath]; rfl)
    rwa [Value.at?, hchild, Option.bind_some] at hbelow
  · rintro ⟨hroot, hbelow⟩ above key below hpath
    rcases above with _ | ⟨token', above⟩
    · obtain ⟨rfl, -⟩ := List.cons.inj hpath
      exact hroot
    · obtain ⟨rfl, htail⟩ := List.cons.inj hpath
      rw [Value.at?, hchild, Option.bind_some]
      exact hbelow above key below htail

theorem carried_iff_children (v result : Value) :
    Carried v result ↔ OccursAs v v.keys result ∧
      ∀ token child, v.child token = some child → convertedKey v ≠ some token →
        ∃ w, result.child (rewriteAiapidevKey token) = some w ∧ Carried child w := by
  constructor
  · intro h
    refine ⟨?_, fun token child hchild hconverted => ?_⟩
    · obtain ⟨w, hw, hoccurs⟩ := h [] v (unconverted_nil v) rfl
      obtain rfl := Option.some.inj hw
      exact hoccurs
    · -- the member itself is found, and what lies below it is found there
      have hbelow : ∀ path u, Unconverted child path → child.at? path = some u →
          ∃ w, (result.child (rewriteAiapidevKey token)).bind (fun x => x.at? (path.map rewriteAiapidevKey)) = some w ∧
            OccursAs u u.keys w := by
        intro path u hpath hu
        exact h (token :: path) u ((unconverted_cons hchild path).mpr ⟨hconverted, hpath⟩) (by
          rw [Value.at?, hchild, Option.bind_some, hu])
      obtain ⟨w, hw, -⟩ := hbelow [] child (unconverted_nil child) rfl
      obtain ⟨x, hx, -⟩ := Option.bind_eq_some_iff.mp hw
      refine ⟨x, hx, fun path u hpath hu => ?_⟩
      have hfound := hbelow path u hpath hu
      rwa [hx, Option.bind_some] at hfound
  · rintro ⟨hroot, hchildren⟩ path u hpath hu
    rcases path with _ | ⟨token, path⟩
    · obtain rfl := Option.some.inj hu
      exact ⟨result, rfl, hroot⟩
    · obtain ⟨child, hchild, hu⟩ := Option.bind_eq_some_iff.mp hu
      obtain ⟨hconverted, hbelow⟩ := (unconverted_cons hchild path).mp hpath
      obtain ⟨w, hw, hcarried⟩ := hchildren token child hchild hconverted
      obtain ⟨x, hx, hoccurs⟩ := hcarried path u hbelow hu
      refine ⟨x, ?_, hoccurs⟩
      rw [List.map_cons, Value.at?, hw, Option.bind_some, hx]

theorem allApart_iff_children (v : Value) :
    AllApart v ↔ KeysApart v v.keys ∧
      ∀ token child, v.child token = some child → convertedKey v ≠ some token → AllApart child := by
  constructor
  · intro h
    refine ⟨h [] v (unconverted_nil v) rfl, fun token child hchild hconverted path u hpath hu => ?_⟩
    refine h (token :: path) u ((unconverted_cons hchild path).mpr ⟨hconverted, hpath⟩) ?_
    rw [Value.at?, hchild, Option.bind_some, hu]
  · rintro ⟨hroot, hchildren⟩ path u hpath hu
    rcases path with _ | ⟨token, path⟩
    · obtain rfl := Option.some.inj hu
      exact hroot
    · obtain ⟨child, hchild, hu⟩ := Option.bind_eq_some_iff.mp hu
      obtain ⟨hconverted, hbelow⟩ := (unconverted_cons hchild path).mp hpath
      exact hchildren token child hchild hconverted path u hbelow hu

/-- **All of a value is found** exactly if the members of its objects are apart. -/
theorem carried_iff (v : Value) : v.Distinct → ∀ path,
    (Carried v (rewriteAiapidevValue parse externalProxyPrefix externalProxyDomains path v) ↔ AllApart v) := by
  -- induction over the children, whatever the container is
  induction v using Value.children_induction with
  | step v ih =>
    intro hv path
    rw [carried_iff_children, allApart_iff_children, occursAs_iff hv]
    refine and_congr_right fun hapart => ?_
    constructor
    · intro h token child hchild hconverted
      obtain ⟨w, hw, hcarried⟩ := h token child hchild hconverted
      obtain ⟨path', hbelow⟩ := child_rewriteAiapidevValue hv hapart hchild hconverted path
      obtain rfl := Option.some.inj (hbelow.symm.trans hw)
      exact (ih child ((Value.mem_children hv).mpr ⟨token, hchild⟩) (hv.child hchild) path').mp hcarried
    · intro h token child hchild hconverted
      obtain ⟨path', hbelow⟩ := child_rewriteAiapidevValue hv hapart hchild hconverted path
      exact ⟨_, hbelow, (ih child ((Value.mem_children hv).mpr ⟨token, hchild⟩) (hv.child hchild) path').mpr
        (h token child hchild hconverted)⟩

end

/-! ## What is taken out -/

theorem isStripped_of_prefix {above path : List String} (habove : above <+: path) (h : isStripped path = false) :
    isStripped above = false := by
  rw [isStripped, List.any_eq_false] at h ⊢
  intro field hfield hprefix
  exact h field hfield (decide_eq_true ((of_decide_eq_true hprefix).trans habove))

/-- Below a key that leads to no field nothing is taken out. -/
theorem isStripped_append {path : List String} (h : isStripped path = false) {key : String}
    (hkey : ∀ field ∈ strippedFields, key ∉ field) (below : List String) : isStripped (path ++ key :: below) = false := by
  rw [isStripped, List.any_eq_false] at h ⊢
  intro field hfield hprefix
  have hbelow : field <+: path ++ key :: below := of_decide_eq_true hprefix
  rcases List.prefix_or_prefix_of_prefix hbelow (List.prefix_append path _) with hshort | ⟨rest, rfl⟩
  · exact h field hfield (decide_eq_true hshort)
  · rw [List.prefix_append_right_inj] at hbelow
    rcases rest with _ | ⟨token, rest⟩
    · rw [List.append_nil] at hfield
      exact h path hfield (decide_eq_true List.prefix_rfl)
    · obtain ⟨rfl, -⟩ := List.cons_prefix_cons.mp hbelow
      exact hkey _ hfield (List.mem_append_right _ (List.mem_cons_self ..))

variable {body : Value}

theorem hasInlineData_eq_isSome (map : Map) : hasInlineData map =
    ((((map.get "inlineData").or (map.get "inline_data")).bind fun x => x.get "data").bind Value.asStr).isSome := by
  unfold hasInlineData rewriteInlineDataPayload
  rcases (map.get "inlineData").or (map.get "inline_data") with _ | x
  · rfl
  · cases x with
    | null | bool | number | string | array => rfl
    | object inlineData =>
      show Option.isSome (((Map.get inlineData "data").bind Value.asStr).bind _) =
        ((Map.get inlineData "data").bind Value.asStr).isSome
      rcases (Map.get inlineData "data").bind Value.asStr with _ | data
      · rfl
      · rw [Option.bind_some]
        split <;> rfl

theorem outlineAt_data (v : Value) {key : String} (hkey : Json.parseIndex key = none) :
    (v.outlineAt [key, "data"]).bind Json.Shape.asStr =
      ((v.get key).bind fun x => x.get "data").bind Value.asStr := by
  have hat : v.at? [key, "data"] = (v.get key).bind fun x => x.get "data" := by
    rw [Value.at?, child_eq_get hkey]
    refine Option.bind_congr fun x _ => ?_
    rw [Value.at?_singleton, child_eq_get (by decide +kernel)]
  rw [Value.outlineAt, hat, Option.bind_map]
  exact Option.bind_congr fun x _ => Value.asStr_outline x

/-- The outline shows what is converted. -/
theorem convertedKey_eq (v : Value) : convertedKey v =
    if (v.outlineAt ["inlineData"]).isSome then
      if ((v.outlineAt ["inlineData", "data"]).bind Json.Shape.asStr).isSome then some "inlineData" else none
    else if ((v.outlineAt ["inline_data", "data"]).bind Json.Shape.asStr).isSome then some "inline_data" else none := by
  have hcamel : v.outlineAt ["inlineData"] = (v.get "inlineData").map Value.outline := by
    rw [Value.outlineAt, Value.at?_singleton, child_eq_get (by decide +kernel)]
  rw [hcamel, Option.isSome_map, outlineAt_data v (by decide +kernel), outlineAt_data v (by decide +kernel)]
  cases v with
  | null | bool | number | string | array => rfl
  | object map =>
    show convertedKey (.object map) = if (Map.get map "inlineData").isSome then
      if (((Map.get map "inlineData").bind fun x => x.get "data").bind Value.asStr).isSome then some "inlineData" else none
      else if (((Map.get map "inline_data").bind fun x => x.get "data").bind Value.asStr).isSome then some "inline_data"
      else none
    rw [convertedKey_object, hasInlineData_eq_isSome]
    rcases Map.get map "inlineData" with _ | x
    · rfl
    · rfl

theorem inlineData_notMem : ∀ field ∈ strippedFields, "inlineData" ∉ field := by decide

theorem inline_data_notMem : ∀ field ∈ strippedFields, "inline_data" ∉ field := by decide

theorem convertedKey_at? (hbody : body.Distinct) {path : List String} (hpath : isStripped path = false)
    {u u' : Value} (hu : body.at? path = some u) (hu' : (stripOutputFromValue body).at? path = some u') :
    convertedKey u' = convertedKey u := by
  have hsame : ∀ key below, (∀ field ∈ strippedFields, key ∉ field) →
      u'.outlineAt (key :: below) = u.outlineAt (key :: below) := by
    intro key below hkey
    have hleft := outlineAt_stripOutputFromValue hbody (path ++ key :: below)
    rw [isStripped_append hpath hkey, if_neg Bool.false_ne_true, Value.outlineAt_append, Value.outlineAt_append, hu,
      hu'] at hleft
    exact hleft
  rw [convertedKey_eq u', convertedKey_eq u, hsame _ _ inlineData_notMem, hsame _ _ inlineData_notMem,
    hsame _ _ inline_data_notMem]

/-- Where nothing is taken out there is the same as before, -/
theorem at?_stripOutputFromValue (hbody : body.Distinct) {path : List String} (hpath : isStripped path = false)
    {u : Value} (hu : body.at? path = some u) :
    ∃ u', (stripOutputFromValue body).at? path = some u' ∧ u'.outline = u.outline := by
  have hleft := outlineAt_stripOutputFromValue hbody path
  rw [hpath, if_neg Bool.false_ne_true, Value.outlineAt_of_at? hu] at hleft
  exact Value.exists_of_outlineAt hleft

/-- and there is nothing else. -/
theorem exists_of_at?_stripOutputFromValue (hbody : body.Distinct) {path : List String} {u' : Value}
    (hu' : (stripOutputFromValue body).at? path = some u') :
    isStripped path = false ∧ ∃ u, body.at? path = some u ∧ u.outline = u'.outline := by
  have hleft := outlineAt_stripOutputFromValue hbody path
  rw [Value.outlineAt_of_at? hu'] at hleft
  split at hleft
  · cases hleft
  · rename_i hpath
    exact ⟨Bool.not_eq_true _ ▸ hpath, Value.exists_of_outlineAt hleft.symm⟩

/-- An object has the members that are not taken out. -/
theorem keys_stripOutputFromValue (hbody : body.Distinct) {path : List String} {u u' : Value}
    (hu : body.at? path = some u) (hu' : (stripOutputFromValue body).at? path = some u')
    (houtline : u'.outline = u.outline) : u'.keys.Perm (leftKeys path u) := by
  cases u with
  | null | bool | number | string | array =>
    cases u' with
    | null | bool | number | string | array => exact List.Perm.nil
    | object => cases houtline
  | object map =>
    obtain ⟨map', rfl⟩ := Value.eq_object_of_outline houtline
    have hnodup := Value.nodup_keys (Value.distinct_at? hbody hu)
    have hnodup' := Value.nodup_keys (Value.distinct_at? (distinct_stripOutputFromValue hbody) hu')
    refine (List.perm_ext_iff_of_nodup hnodup' (hnodup.filter _)).mpr fun key => ?_
    have hleft := outlineAt_stripOutputFromValue hbody (path ++ [key])
    have hsome := congrArg Option.isSome hleft
    rw [Value.outlineAt_append, Value.outlineAt_append, hu, hu', Option.bind_some, Option.bind_some, Value.outlineAt,
      Value.at?_singleton, Option.isSome_map] at hsome
    rw [List.mem_filter, Value.mem_keys_of_child, Value.mem_keys_of_child, hsome]
    rcases isStripped (path ++ [key]) with _ | _
    · simp [Value.outlineAt, Value.at?_singleton]
    · simp

theorem unconverted_stripOutputFromValue (hbody : body.Distinct) {path : List String} (hpath : isStripped path = false) :
    Unconverted (stripOutputFromValue body) path ↔ Unconverted body path := by
  have hsame : ∀ above, above <+: path →
      ((stripOutputFromValue body).at? above).bind convertedKey = (body.at? above).bind convertedKey := by
    intro above habove
    have hkept : isStripped above = false := isStripped_of_prefix habove hpath
    rcases hu : body.at? above with _ | u
    · rcases hu' : (stripOutputFromValue body).at? above with _ | u'
      · rfl
      · obtain ⟨-, u, hu'', -⟩ := exists_of_at?_stripOutputFromValue hbody hu'
        rw [hu] at hu''
        cases hu''
    · obtain ⟨u', hu', -⟩ := at?_stripOutputFromValue hbody hkept hu
      rw [hu', Option.bind_some, Option.bind_some, convertedKey_at? hbody hkept hu hu']
  constructor
  · intro h above key below hsplit
    rw [← hsame above ⟨key :: below, hsplit.symm⟩]
    exact h above key below hsplit
  · intro h above key below hsplit
    rw [hsame above ⟨key :: below, hsplit.symm⟩]
    exact h above key below hsplit

/-- What holds of all that is left of a body holds of the body where nothing is taken out. -/
theorem forall_left_iff (hbody : body.Distinct) {P : List String → Value → List String → Prop}
    (hP : ∀ path u u' keys keys', u'.outline = u.outline → convertedKey u' = convertedKey u → keys'.Perm keys →
      (P path u' keys' ↔ P path u keys)) :
    (∀ path u, isStripped path = false → Unconverted body path → body.at? path = some u →
        P path u (leftKeys path u)) ↔
      ∀ path u, Unconverted (stripOutputFromValue body) path → (stripOutputFromValue body).at? path = some u →
        P path u u.keys := by
  constructor
  · intro h path u' hunconverted hu'
    obtain ⟨hpath, u, hu, houtline⟩ := exists_of_at?_stripOutputFromValue hbody hu'
    have hkeys := keys_stripOutputFromValue hbody hu hu' houtline.symm
    refine (hP path u u' _ _ houtline.symm (convertedKey_at? hbody hpath hu hu') hkeys).mpr ?_
    exact h path u hpath ((unconverted_stripOutputFromValue hbody hpath).mp hunconverted) hu
  · intro h path u hpath hunconverted hu
    obtain ⟨u', hu', houtline⟩ := at?_stripOutputFromValue hbody hpath hu
    have hkeys := keys_stripOutputFromValue hbody hu hu' houtline
    refine (hP path u u' _ _ houtline (convertedKey_at? hbody hpath hu hu') hkeys).mp ?_
    exact h path u' ((unconverted_stripOutputFromValue hbody hpath).mpr hunconverted) hu'

theorem losesNothing_iff_carried (hbody : body.Distinct) (result : Value) :
    LosesNothing body result ↔ Carried (stripOutputFromValue body) result := by
  refine forall_left_iff hbody (P := fun path u keys =>
    ∃ w, result.at? (path.map rewriteAiapidevKey) = some w ∧ OccursAs u keys w) ?_
  intro path u u' keys keys' houtline _ hkeys
  unfold OccursAs
  rw [houtline, hkeys.length_eq]

theorem preservable_iff (hbody : body.Distinct) : Preservable body ↔ AllApart (stripOutputFromValue body) := by
  refine forall_left_iff hbody (P := fun _ u keys => KeysApart u keys) ?_
  intro path u u' keys keys' _ hconverted hkeys
  constructor
  · intro h
    refine ⟨fun key hkey k hk => ?_, fun hnone k hk k' hk' => ?_⟩
    · exact h.alone key (hconverted.trans hkey) k (hkeys.mem_iff.mpr hk)
    · exact h.apart (hconverted.trans hnone) k (hkeys.mem_iff.mpr hk) k' (hkeys.mem_iff.mpr hk')
  · intro h
    refine ⟨fun key hkey k hk => ?_, fun hnone k hk k' hk' => ?_⟩
    · exact h.alone key (hconverted.symm.trans hkey) k (hkeys.mem_iff.mp hk)
    · exact h.apart (hconverted.symm.trans hnone) k (hkeys.mem_iff.mp hk) k' (hkeys.mem_iff.mp hk')

/-- **Nothing of a body is lost** exactly if the members of its objects are apart. -/
theorem losesNothing_iff (parse : String → Option FileUrl) (externalProxyPrefix : String)
    (externalProxyDomains : List String) (body : Json.Document) :
    LosesNothing body.val
        (rewriteAiapidevRequestBody parse externalProxyPrefix externalProxyDomains body.val) ↔
      Preservable body.val := by
  have hbody : body.val.Distinct := body.property.1
  rw [losesNothing_iff_carried hbody, preservable_iff hbody, rewriteAiapidevRequestBody, stripOutputFields_eq,
    carried_iff _ (distinct_stripOutputFromValue hbody)]

/-- A part with an image and a caption. -/
def captionedImage : Json.Document :=
  ⟨.object [("contents", .array [.object [("parts", .array [.object
      [("text", .string "a cat"), ("inlineData", .object [("data", .string "iVBORw0KGgo=")])]])]])], by
    simp [Map.keys]⟩

/-- The caption is lost. -/
theorem captionedImage_lost :
    ¬ LosesNothing captionedImage.val (rewriteAiapidevRequestBody (fun _ => none) "" [] captionedImage.val) := by
  intro h
  have hpath : Unconverted captionedImage.val ["contents", "0", "parts", "0", "text"] := by
    refine (unconverted_cons rfl _).mpr ⟨by decide +kernel, ?_⟩
    refine (unconverted_cons rfl _).mpr ⟨by decide +kernel, ?_⟩
    refine (unconverted_cons rfl _).mpr ⟨by decide +kernel, ?_⟩
    refine (unconverted_cons rfl _).mpr ⟨by decide +kernel, ?_⟩
    exact (unconverted_cons rfl _).mpr ⟨by decide +kernel, unconverted_nil _⟩
  obtain ⟨w, hw, -⟩ := h ["contents", "0", "parts", "0", "text"] (.string "a cat") (by decide) hpath rfl
  have hnone : ((rewriteAiapidevRequestBody (fun _ => none) "" [] captionedImage.val).at?
      (["contents", "0", "parts", "0", "text"].map rewriteAiapidevKey)).isSome = false := by
    decide +kernel
  rw [hw] at hnone
  cases hnone

end GeminiWorker
