import GeminiWorker.Lib.JsonParse
import GeminiWorker.Proof.RequestScan

/-!
# Replacing the images of a pruned body

The images are found in the request, and replaced in the request without its output
fields. The paths mean the same in both.

* `pruned_stripOutputFromValue`: what is left keeps its place and stays what it was.
* `graft_eq_replaceImages`: grafting the images found in a value onto a pruned form of
  it replaces the outermost images of that form.
* `imageNodes_replaceImages`: no image given by its URL is left.
-/

namespace GeminiWorker

open Json (Value Map)

/-! ## Pruning -/

/-- Two values that the scanner and the encoder treat alike: of one kind, and the same
image if they are one. -/
structure SameNode (x y : Value) : Prop where
  imageUrl_eq : imageUrl x = imageUrl y
  object_iff : x.asObject.isSome = y.asObject.isSome
  array_iff : x.asArray.isSome = y.asArray.isSome

/-- Every node of `s` is in `v` at the same path, and alike. -/
def Pruned (s v : Value) : Prop :=
  ∀ path x, s.at? path = some x → ∃ y, v.at? path = some y ∧ SameNode x y

theorem Pruned.refl (v : Value) : Pruned v v :=
  fun _ x hx => ⟨x, hx, rfl, rfl, rfl⟩

theorem Pruned.trans {s t v : Value} (h : Pruned s t) (h' : Pruned t v) : Pruned s v := by
  intro path x hx
  obtain ⟨y, hy, hxy⟩ := h path x hx
  obtain ⟨z, hz, hyz⟩ := h' path y hy
  exact ⟨z, hz, hxy.imageUrl_eq.trans hyz.imageUrl_eq, hxy.object_iff.trans hyz.object_iff,
    hxy.array_iff.trans hyz.array_iff⟩

theorem Pruned.root {s v : Value} (h : Pruned s v) : SameNode s v := by
  obtain ⟨y, hy, hsame⟩ := h [] s rfl
  obtain rfl := Option.some.inj hy
  exact hsame

theorem Pruned.child {s v x : Value} {token : String} (h : Pruned s v)
    (hx : s.child token = some x) : ∃ y, v.child token = some y ∧ Pruned x y := by
  obtain ⟨y, hy, -⟩ := h [token] x (by simp [Value.at?, hx])
  have hchild : v.child token = some y := by
    cases hv : v.child token with
    | none => simp [Value.at?, hv] at hy
    | some w => simpa [Value.at?, hv] using hy
  refine ⟨y, hchild, fun path z hz => ?_⟩
  obtain ⟨w, hw, hsame⟩ := h (token :: path) z (by simp [Value.at?, hx, hz])
  refine ⟨w, ?_, hsame⟩
  simpa [Value.at?, hchild] using hw

/-- A value is pruned if it is alike and its children are. -/
theorem Pruned.of_child {s v : Value} (hroot : SameNode s v)
    (hchild : ∀ token x, s.child token = some x → ∃ y, v.child token = some y ∧ Pruned x y) :
    Pruned s v := by
  intro path x hx
  cases path with
  | nil =>
    obtain rfl := Option.some.inj hx
    exact ⟨v, rfl, hroot⟩
  | cons token path =>
    obtain ⟨w, hw, hx⟩ := Option.bind_eq_some_iff.1 hx
    obtain ⟨y, hy, hpruned⟩ := hchild token w hw
    obtain ⟨z, hz, hsame⟩ := hpruned path x hx
    exact ⟨z, by simp [Value.at?, hy, hz], hsame⟩

theorem distinct_removeKey (key : String) {v : Value} (hv : v.Distinct) :
    (v.removeKey key).Distinct := by
  cases v with
  | object members => exact Value.Distinct.remove hv key
  | null | bool | number | string | array => exact hv

theorem asStr_modifyAt_removeKey (key : String) (path : List String) (v : Value) :
    (v.modifyAt path (Value.removeKey key)).asStr = v.asStr := by
  cases path with
  | nil => cases v <;> rfl
  | cons token path =>
    cases v with
    | array items =>
      unfold Value.modifyAt Value.modifyChild
      dsimp only
      split <;> rfl
    | null | bool | number | string | object => rfl

/-- Removing a key other than `data`, anywhere inside, leaves a node alike. -/
theorem sameNode_modifyAt_removeKey {key : String} (hkey : key ≠ "data") (path : List String)
    {v : Value} (hv : v.Distinct) : SameNode (v.modifyAt path (Value.removeKey key)) v := by
  cases v with
  | object members =>
    have hkeys := (Value.distinct_object.1 hv).1
    cases path with
    | nil =>
      refine ⟨?_, rfl, rfl⟩
      have hdata : Map.get (Map.remove members key) "data" = Map.get members "data" := by
        rw [Map.get_remove hkeys, if_neg (Ne.symm hkey)]
      simp only [imageUrl, Value.modifyAt, Value.removeKey, Value.get, Value.asObject,
        Option.bind_some, hdata]
    | cons token path =>
      refine ⟨?_, rfl, rfl⟩
      have hdata := Value.get_modify members token (Value.modifyAt path (Value.removeKey key)) "data"
      simp only [imageUrl, Value.modifyAt, Value.modifyChild, Value.get, Value.asObject,
        Option.bind_some, hdata, Option.bind_map]
      congr 2
      funext w
      rw [Function.comp_apply]
      split
      · exact asStr_modifyAt_removeKey key path w
      · rfl
  | array items =>
    cases path with
    | nil => exact ⟨rfl, rfl, rfl⟩
    | cons token path =>
      unfold Value.modifyAt Value.modifyChild
      dsimp only
      split <;> exact ⟨rfl, rfl, rfl⟩
  | null | bool | number | string => cases path <;> exact ⟨rfl, rfl, rfl⟩

/-- **Removing a key other than `data` prunes.** -/
theorem pruned_modifyAt_removeKey {key : String} (hkey : key ≠ "data") (path : List String) :
    ∀ {v : Value}, v.Distinct → Pruned (v.modifyAt path (Value.removeKey key)) v := by
  induction path with
  | nil =>
    intro v hv
    refine Pruned.of_child (sameNode_modifyAt_removeKey hkey [] hv) fun token x hx => ?_
    refine ⟨x, ?_, Pruned.refl x⟩
    cases v with
    | object members =>
      have hkeys := (Value.distinct_object.1 hv).1
      have hget : Map.get (Map.remove members key) token = some x := hx
      rw [Map.get_remove hkeys] at hget
      split at hget
      · cases hget
      · exact hget
    | null | bool | number | string | array => exact hx
  | cons token path ih =>
    intro v hv
    refine Pruned.of_child (sameNode_modifyAt_removeKey hkey _ hv) fun token' x hx => ?_
    obtain ⟨y, hy, rfl | rfl⟩ := Value.child_modifyChild hx
    · exact ⟨_, hy, Pruned.refl _⟩
    · exact ⟨y, hy, ih (hv.child hy)⟩

theorem stripOutputFromValue_eq (body : Value) : stripOutputFromValue body =
    (((body.modifyAt [] (Value.removeKey "output")).modifyAt ["generationConfig", "imageConfig"]
      (Value.removeKey "output")).modifyAt ["generation_config", "image_config"]
        (Value.removeKey "output")) := by
  have hcamel : Json.pointerTokens "/generationConfig/imageConfig" =
      some ["generationConfig", "imageConfig"] := by decide +kernel
  have hsnake : Json.pointerTokens "/generation_config/image_config" =
      some ["generation_config", "image_config"] := by decide +kernel
  simp only [stripOutputFromValue, Value.modifyPointer, hcamel, hsnake]
  rfl

theorem distinct_modifyAt_removeKey (key : String) (path : List String) {v : Value}
    (hv : v.Distinct) : (v.modifyAt path (Value.removeKey key)).Distinct :=
  Value.modifyAt_induction (P := Value.Distinct) (fun _ => distinct_removeKey key)
    (fun _ token _ h hg => h.modifyChild hg token) path v hv

theorem distinct_stripOutputFromValue {body : Value} (h : body.Distinct) :
    (stripOutputFromValue body).Distinct := by
  rw [stripOutputFromValue_eq]
  exact distinct_modifyAt_removeKey _ _ (distinct_modifyAt_removeKey _ _
    (distinct_modifyAt_removeKey _ _ h))

theorem numeric_removeKey (key : String) {v : Value} (hv : v.Numeric) : (v.removeKey key).Numeric := by
  cases v with
  | object members =>
    refine Value.numeric_object.2 fun m hm => Value.numeric_object.1 hv m ?_
    exact Map.mem_of_mem_remove hm
  | null | bool | number | string | array => exact hv

theorem numeric_stripOutputFromValue {body : Value} (h : body.Numeric) :
    (stripOutputFromValue body).Numeric := by
  have hmodify : ∀ (path : List String) (v : Value), v.Numeric →
      (v.modifyAt path (Value.removeKey "output")).Numeric := fun path =>
    Value.modifyAt_induction (P := Value.Numeric) (fun _ => numeric_removeKey "output")
      (fun _ token _ h hg => h.modifyChild hg token) path
  rw [stripOutputFromValue_eq]
  exact hmodify _ _ (hmodify _ _ (hmodify _ _ h))

/-- **Stripping the output fields prunes the body.** -/
theorem pruned_stripOutputFromValue {body : Value} (h : body.Distinct) :
    Pruned (stripOutputFromValue body) body := by
  have hne : "output" ≠ "data" := by decide
  have h1 := distinct_modifyAt_removeKey "output" [] h
  have h2 := distinct_modifyAt_removeKey "output" ["generationConfig", "imageConfig"] h1
  rw [stripOutputFromValue_eq]
  exact (pruned_modifyAt_removeKey hne _ h2).trans
    ((pruned_modifyAt_removeKey hne _ h1).trans (pruned_modifyAt_removeKey hne _ h))

/-! ## Grafting onto a pruned value -/

/-- A lookup that finds the images of a value, as the nodes of their URLs. -/
def FindsImages (node : String → Value) (v : Value) (f : List String → Option Value) : Prop :=
  ∀ path w, f path = some w ↔ ∃ url, (path, url) ∈ imageNodes v ∧ w = node url

variable {node : String → Value}

theorem FindsImages.nil {v : Value} {f : List String → Option Value} (h : FindsImages node v f) :
    f [] = none := by
  cases hf : f [] with
  | none => rfl
  | some w =>
    obtain ⟨url, hmem, -⟩ := (h [] w).1 hf
    exact absurd hmem (nil_notMem_imageNodes v url)

theorem FindsImages.item {items : List Value} {f : List String → Option Value} {i : ℕ} {y : Value}
    (h : FindsImages node (.array items) f) (hy : items[i]? = some y) :
    FindsImages node y fun path => f (toString i :: path) := by
  intro path w
  rw [h]
  constructor
  · rintro ⟨url, hmem, rfl⟩
    obtain ⟨j, v, hv, htoken, hmem⟩ := mem_imageNodes_array.1 hmem
    obtain rfl := Nat.repr_injective htoken
    obtain rfl := Option.some.inj (hy.symm.trans hv)
    exact ⟨url, hmem, rfl⟩
  · rintro ⟨url, hmem, rfl⟩
    exact ⟨url, mem_imageNodes_array.2 ⟨i, y, hy, rfl, hmem⟩, rfl⟩

theorem FindsImages.member {members : Map} (hkeys : members.keys.Nodup)
    {f : List String → Option Value} {key : String} {y : Value}
    (h : FindsImages node (.object members) f) (hy : members.get key = some y) :
    (∀ url, imageUrlUnder key y = some url → f [key] = some (node url)) ∧
      (imageUrlUnder key y = none → FindsImages node y fun path => f (key :: path)) := by
  refine ⟨fun url hurl => ?_, fun hnone path w => ?_⟩
  · exact (h _ _).2 ⟨url, (mem_imageNodes_object hkeys).2 ⟨y, hy, Or.inl ⟨rfl, hurl⟩⟩, rfl⟩
  · rw [h]
    constructor
    · rintro ⟨url, hmem, rfl⟩
      obtain ⟨v, hv, ⟨-, hurl⟩ | hmem⟩ := (mem_imageNodes_object hkeys).1 hmem
      · obtain rfl := Option.some.inj (hy.symm.trans hv)
        rw [hnone] at hurl
        cases hurl
      · obtain rfl := Option.some.inj (hy.symm.trans hv)
        exact ⟨url, hmem, rfl⟩
    · rintro ⟨url, hmem, rfl⟩
      exact ⟨url, (mem_imageNodes_object hkeys).2 ⟨y, hy, Or.inr hmem⟩, rfl⟩

theorem replaceImagesItems_eq (items : List Value) :
    replaceImagesItems node items = items.map (replaceImages node) := by
  induction items with
  | nil => rfl
  | cons v vs ih => rw [replaceImagesItems, ih]; rfl

/-- The member a member becomes. -/
def replacedMember (node : String → Value) (m : String × Value) : String × Value :=
  (m.1, match imageUrlUnder m.1 m.2 with
    | some url => node url
    | none => replaceImages node m.2)

theorem replaceImagesMembers_eq (members : Map) :
    replaceImagesMembers node members = members.map (replacedMember node) := by
  induction members with
  | nil => rfl
  | cons m ms ih => rw [replaceImagesMembers, ih]; rfl

theorem graft_leaf {s : Value} {f : List String → Option Value} (hf : f [] = none)
    (harray : s.asArray = none) (hobject : s.asObject = none) : Json.graft f s = s := by
  unfold Json.graft
  rw [hf]
  cases s with
  | array items => cases harray
  | object members => cases hobject
  | null | bool | number | string => rfl

/-- **Grafting the images of a value onto a pruned form of it** replaces the outermost
images of that form. -/
theorem graft_eq_replaceImages {s : Value} :
    ∀ {v : Value} {f : List String → Option Value}, s.Distinct → v.Distinct → Pruned s v →
      FindsImages node v f → Json.graft f s = replaceImages node s := by
  induction s using Value.induction with
  | null | bool | number | string => intro v f _ _ _ hf; exact graft_leaf hf.nil rfl rfl
  | array items ih =>
    intro v f hs hv hpruned hf
    obtain ⟨items', rfl⟩ : ∃ items', v = .array items' := by
      have harray := hpruned.root.array_iff
      cases v with
      | array items' => exact ⟨items', rfl⟩
      | null | bool | number | string | object => cases harray
    unfold Json.graft
    rw [hf.nil]
    simp only [replaceImages, replaceImagesItems_eq, Json.graftItems_eq, Nat.zero_add]
    congr 1
    apply List.ext_getElem?
    intro i
    rw [List.getElem?_mapIdx, List.getElem?_map]
    cases hi : items[i]? with
    | none => rfl
    | some x =>
      have hmem := List.mem_of_getElem? hi
      have hx : (Value.array items).child (toString i) = some x := by rw [Json.child_index, hi]
      obtain ⟨y, hy, hxy⟩ := hpruned.child hx
      have hyi : items'[i]? = some y := by rw [← Json.child_index, hy]
      rw [Option.map_some, Option.map_some, ih x hmem (Value.distinct_array.1 hs x hmem) (hv.child hy)
        hxy (hf.item hyi)]
  | object members ih =>
    intro v f hs hv hpruned hf
    obtain ⟨members', rfl⟩ : ∃ members', v = .object members' := by
      have hobject := hpruned.root.object_iff
      cases v with
      | object members' => exact ⟨members', rfl⟩
      | null | bool | number | string | array => cases hobject
    obtain ⟨hkeys, hmembers⟩ := Value.distinct_object.1 hs
    have hkeys' := (Value.distinct_object.1 hv).1
    unfold Json.graft
    rw [hf.nil]
    simp only [replaceImages, replaceImagesMembers_eq, Json.graftMembers_eq]
    congr 1
    apply List.map_congr_left
    intro m hm
    have hx : (Value.object members).child m.1 = some m.2 := (Map.get_eq_some_iff hkeys).2 hm
    obtain ⟨y, hy, hxy⟩ := hpruned.child hx
    obtain ⟨himage, hinside⟩ := hf.member hkeys' hy
    have hsame : imageUrlUnder m.1 m.2 = imageUrlUnder m.1 y := by
      unfold imageUrlUnder
      rw [hxy.root.imageUrl_eq]
    unfold replacedMember
    cases hurl : imageUrlUnder m.1 m.2 with
    | some url =>
      -- the member is an image: the walk stops here
      rw [Json.graft_of_some (himage url (hsame.symm.trans hurl))]
    | none =>
      rw [ih m hm (hmembers m hm) (hv.child hy) hxy (hinside (hsame.symm.trans hurl))]

/-! ## The replaced body -/

theorem keys_replacedMember (members : Map) :
    Map.keys (members.map (replacedMember node)) = Map.keys members := by
  unfold Map.keys
  rw [List.map_map]
  rfl

/-- What holds of the nodes and is kept by replacing inside holds of every replaced member. -/
theorem replacedMember_induction {P : Value → Prop} (hnode : ∀ url, P (node url))
    {m : String × Value} (hm : P (replaceImages node m.2)) : P (replacedMember node m).2 := by
  unfold replacedMember
  split
  · exact hnode _
  · exact hm

theorem distinct_replaceImages (hnode : ∀ url, (node url).Distinct) {v : Value} :
    v.Distinct → (replaceImages node v).Distinct := by
  induction v using Value.induction with
  | null | bool | number | string => exact id
  | array items ih =>
    intro h
    rw [Value.distinct_array] at h
    rw [replaceImages, replaceImagesItems_eq, Value.distinct_array]
    intro w hw
    obtain ⟨v, hv, rfl⟩ := List.mem_map.1 hw
    exact ih v hv (h v hv)
  | object members ih =>
    intro h
    rw [Value.distinct_object] at h
    rw [replaceImages, replaceImagesMembers_eq, Value.distinct_object, keys_replacedMember]
    refine ⟨h.1, fun e he => ?_⟩
    obtain ⟨m, hm, rfl⟩ := List.mem_map.1 he
    exact replacedMember_induction hnode (ih m hm (h.2 m hm))

theorem numeric_replaceImages (hnode : ∀ url, (node url).Numeric) {v : Value} :
    v.Numeric → (replaceImages node v).Numeric := by
  induction v using Value.induction with
  | null | bool | number | string => exact id
  | array items ih =>
    intro h
    rw [Value.numeric_array] at h
    rw [replaceImages, replaceImagesItems_eq, Value.numeric_array]
    intro w hw
    obtain ⟨v, hv, rfl⟩ := List.mem_map.1 hw
    exact ih v hv (h v hv)
  | object members ih =>
    intro h
    rw [Value.numeric_object] at h
    rw [replaceImages, replaceImagesMembers_eq, Value.numeric_object]
    intro e he
    obtain ⟨m, hm, rfl⟩ := List.mem_map.1 he
    exact replacedMember_induction hnode (ih m hm (h m hm))

theorem get_replacedMember (members : Map) (key : String) :
    Map.get (members.map (replacedMember node)) key =
      (Map.get members key).map fun v => (replacedMember node (key, v)).2 := by
  induction members with
  | nil => rfl
  | cons m ms ih =>
    obtain ⟨k, v⟩ := m
    have hmember : replacedMember node (k, v) = (k, (replacedMember node (k, v)).2) := rfl
    rw [List.map_cons, hmember, Map.get_cons, Map.get_cons, ih]
    split
    · rename_i hk
      subst hk
      rfl
    · rfl

/-- Replacing images inside a node makes no new image of it. -/
theorem imageUrl_replaceImages (v : Value) : imageUrl (replaceImages node v) = imageUrl v := by
  cases v with
  | object members =>
    have hasStr : ∀ w : Value, (replacedMember node ("data", w)).2.asStr = w.asStr := by
      intro w
      have hkey : imageUrlUnder "data" w = none := by simp [imageUrlUnder]
      unfold replacedMember
      simp only [hkey]
      cases w <;> rfl
    rw [replaceImages, replaceImagesMembers_eq]
    simp only [imageUrl, Value.get, Value.asObject, Option.bind_some, get_replacedMember,
      Option.bind_map]
    congr 2
    funext w
    exact hasStr w
  | null | bool | number | string | array => rfl

/-- **No image given by its URL is left**, if the nodes hold none. -/
theorem imageNodes_replaceImages (hurl : ∀ url, imageUrl (node url) = none)
    (hinside : ∀ url, imageNodes (node url) = []) (v : Value) :
    imageNodes (replaceImages node v) = [] := by
  induction v using Value.induction with
  | null | bool | number | string => rfl
  | array items ih =>
    have hitems : ∀ index, imageNodesItems index (items.map (replaceImages node)) = [] := by
      induction items with
      | nil => intro index; rfl
      | cons v vs ihs =>
        intro index
        rw [List.map_cons, imageNodesItems, ih v (List.mem_cons_self ..),
          ihs fun w hw => ih w (List.mem_cons_of_mem _ hw)]
        rfl
    rw [replaceImages, replaceImagesItems_eq]
    exact hitems 0
  | object members ih =>
    rw [replaceImages, replaceImagesMembers_eq]
    have hunfold : imageNodes (.object (members.map (replacedMember node))) =
        imageNodesMembers (members.map (replacedMember node)) := rfl
    rw [hunfold, imageNodesMembers_eq, List.flatMap_eq_nil_iff]
    intro e he
    obtain ⟨m, hm, rfl⟩ := List.mem_map.1 he
    have hnone : imageUrlUnder m.1 (replacedMember node m).2 = none := by
      unfold replacedMember
      cases h : imageUrlUnder m.1 m.2 with
      | some url => simp [imageUrlUnder, hurl]
      | none =>
        unfold imageUrlUnder at h ⊢
        rw [imageUrl_replaceImages]
        exact h
    have hnodes : imageNodes (replacedMember node m).2 = [] :=
      replacedMember_induction (P := fun w => imageNodes w = []) hinside (ih m hm)
    have hkey : (replacedMember node m).1 = m.1 := rfl
    rw [hkey, hnone, hnodes]
    rfl

end GeminiWorker
