import GeminiWorker.Lib.Text

/-!
# JSON values

The value type of an insertion-ordered JSON library, with the operations that
programs use on it: object lookup, insertion and swap-removal, JSON pointers
and the compact printer.

* `Value.induction`: structural induction with a hypothesis for each element.
* `Value.Distinct`: every object of the tree has distinct keys, the invariant of
  a map type; `Document` carries it.
* `Map.get_insert`, `Map.get_remove`: the two update laws of lookup.
-/

namespace Json

/-- A JSON value. A number is the spelling the library prints for it. -/
inductive Value where
  | null
  | bool (b : Bool)
  | number (spelling : String)
  | string (s : String)
  | array (items : List Value)
  | object (members : List (String × Value))

/-- The members of an object, in insertion order. -/
abbrev Map := List (String × Value)

namespace Value

/-- Induction over a value, its array items and its object members. -/
theorem induction {motive : Value → Prop} (null : motive .null) (bool : ∀ b, motive (.bool b))
    (number : ∀ s, motive (.number s)) (string : ∀ s, motive (.string s))
    (array : ∀ items : List Value, (∀ v ∈ items, motive v) → motive (.array items))
    (object : ∀ members : Map, (∀ m ∈ members, motive m.2) → motive (.object members)) (v : Value) :
    motive v :=
  @Value.rec motive (fun items => ∀ v ∈ items, motive v)
    (fun members => ∀ m ∈ members, motive m.2) (fun m => motive m.2)
    null bool number string array object (by simp)
    (fun _ _ hv hs => by simpa using ⟨hv, hs⟩) (by simp)
    (fun _ _ hm hms => by
      intro m hmem
      rcases List.mem_cons.1 hmem with h | h
      · subst h; exact hm
      · exact hms m h)
    (fun _ _ h => h) v

def asStr : Value → Option String
  | .string s => some s
  | _ => none

def asArray : Value → Option (List Value)
  | .array items => some items
  | _ => none

def asObject : Value → Option Map
  | .object members => some members
  | _ => none

end Value

/-! ## Objects -/

namespace Map

/-- `Map::get`. -/
def get (m : Map) (key : String) : Option Value := m.lookup key

/-- `Map::contains_key`. -/
def containsKey (m : Map) (key : String) : Bool := m.any (·.1 == key)

/-- `Map::insert`: the value of a present key is replaced in place, an absent key goes last. -/
def insert (m : Map) (key : String) (v : Value) : Map :=
  if containsKey m key then m.map (fun e => if e.1 == key then (key, v) else e)
  else m ++ [(key, v)]

/-- `Map::remove` of the insertion-ordered map: the last member takes the removed one's place. -/
def remove (m : Map) (key : String) : Map :=
  if containsKey m key then
    match m.getLast? with
    | some last => if last.1 == key then m.dropLast
        else m.dropLast.map (fun e => if e.1 == key then last else e)
    | none => m
  else m

def keys (m : Map) : List String := m.map (·.1)

theorem containsKey_iff {m : Map} {key : String} : containsKey m key = true ↔ key ∈ keys m := by
  simp [containsKey, keys]

theorem get_cons (k : String) (v : Value) (m : Map) (key : String) :
    get ((k, v) :: m) key = if key = k then some v else get m key := by
  unfold get
  by_cases h : key = k
  · rw [if_pos h, List.lookup_cons, beq_iff_eq.2 h]
  · rw [if_neg h, List.lookup_cons, beq_false_of_ne h]

@[simp] theorem get_nil (key : String) : get [] key = none := rfl

theorem get_isSome_iff {m : Map} {key : String} : (get m key).isSome = true ↔ key ∈ keys m := by
  induction m with
  | nil => simp [keys]
  | cons e m ih =>
    obtain ⟨k, v⟩ := e
    rw [get_cons]
    by_cases h : key = k
    · simp [h, keys]
    · rw [if_neg h, ih]; simp [keys, h]

theorem get_eq_none_iff {m : Map} {key : String} : get m key = none ↔ key ∉ keys m := by
  rw [← get_isSome_iff]; simp

theorem get_append (m n : Map) (key : String) : get (m ++ n) key = (get m key).or (get n key) := by
  induction m with
  | nil => simp
  | cons e m ih =>
    obtain ⟨k, v⟩ := e
    rw [List.cons_append, get_cons, get_cons, ih]
    split <;> simp

theorem mem_of_get {m : Map} {key : String} {v : Value} (h : get m key = some v) : (key, v) ∈ m := by
  induction m with
  | nil => simp at h
  | cons e m ih =>
    obtain ⟨k, w⟩ := e
    rw [get_cons] at h
    split at h
    · rename_i hk; subst hk; simp only [Option.some.injEq] at h; subst h; exact List.mem_cons_self
    · exact List.mem_cons_of_mem _ (ih h)

/-- With distinct keys, lookup finds exactly the members. -/
theorem get_eq_some_iff {m : Map} (hm : (keys m).Nodup) {key : String} {v : Value} :
    get m key = some v ↔ (key, v) ∈ m := by
  refine ⟨mem_of_get, fun hmem => ?_⟩
  induction m with
  | nil => simp at hmem
  | cons e m ih =>
    obtain ⟨k, w⟩ := e
    simp only [keys, List.map_cons, List.nodup_cons] at hm
    rw [get_cons]
    rcases List.mem_cons.1 hmem with h | h
    · obtain ⟨rfl, rfl⟩ := Prod.mk.inj h; simp
    · have hne : key ≠ k := fun hk => hm.1 (hk ▸ List.mem_map_of_mem h)
      rw [if_neg hne]; exact ih hm.2 h

theorem get_map_replace (m : Map) (key : String) (v : Value) (key' : String) :
    get (m.map (fun e => if e.1 == key then (key, v) else e)) key' =
      if key' = key ∧ key ∈ keys m then some v else get m key' := by
  induction m with
  | nil => simp [keys]
  | cons e m ih =>
    obtain ⟨k, w⟩ := e
    simp only [List.map_cons, keys, List.mem_cons] at ih ⊢
    by_cases hk : k = key
    · subst hk
      simp only [beq_self_eq_true, if_true]
      rw [get_cons, get_cons, ih]
      by_cases hkk : key' = k <;> simp [hkk]
    · rw [if_neg (by simpa using hk), get_cons, get_cons, ih]
      by_cases hkk : key' = k
      · simp [hkk, hk]
      · have hk' : key ≠ k := Ne.symm hk
        simp only [hk', hkk, false_or, if_false]
        exact if_congr Iff.rfl rfl rfl

theorem insert_of_mem {m : Map} {key : String} (h : key ∈ keys m) (v : Value) :
    insert m key v = m.map (fun e => if e.1 == key then (key, v) else e) := by
  unfold insert; rw [if_pos (containsKey_iff.2 h)]

theorem insert_of_not_mem {m : Map} {key : String} (h : key ∉ keys m) (v : Value) :
    insert m key v = m ++ [(key, v)] := by
  unfold insert; rw [if_neg (by rwa [containsKey_iff])]

/-- Lookup after insertion. -/
theorem get_insert (m : Map) (key : String) (v : Value) (key' : String) :
    get (insert m key v) key' = if key' = key then some v else get m key' := by
  by_cases h : key ∈ keys m
  · rw [insert_of_mem h, get_map_replace]
    simp [h]
  · have hn : get m key = none := get_eq_none_iff.2 h
    rw [insert_of_not_mem h, get_append, get_cons]
    by_cases hk : key' = key
    · subst hk; simp [hn]
    · simp [hk]

theorem keys_insert (m : Map) (key : String) (v : Value) :
    keys (insert m key v) = if key ∈ keys m then keys m else keys m ++ [key] := by
  by_cases h : key ∈ keys m
  · rw [insert_of_mem h, if_pos h]
    simp only [keys, List.map_map]
    apply List.map_congr_left
    intro e _
    simp only [Function.comp]
    split <;> simp_all
  · rw [insert_of_not_mem h, if_neg h]; simp [keys]

theorem nodup_insert {m : Map} (hm : (keys m).Nodup) (key : String) (v : Value) :
    (keys (insert m key v)).Nodup := by
  rw [keys_insert]
  split
  · exact hm
  · rename_i h; simpa [List.nodup_append] using ⟨hm, fun a ha hk => h (hk ▸ ha)⟩

/-- A member after an insertion is the new one or an old one under another key. -/
theorem mem_insert {m : Map} {key : String} {v : Value} {e : String × Value}
    (he : e ∈ insert m key v) : e = (key, v) ∨ e ∈ m := by
  by_cases h : key ∈ keys m
  · rw [insert_of_mem h, List.mem_map] at he
    obtain ⟨d, hd, rfl⟩ := he
    split
    · exact Or.inl rfl
    · exact Or.inr hd
  · rw [insert_of_not_mem h, List.mem_append, List.mem_singleton] at he
    exact he.symm

/-- Inserting twice at one key is inserting the second time. -/
theorem insert_insert (m : Map) (key : String) (v w : Value) :
    insert (insert m key v) key w = insert m key w := by
  have hc : key ∈ keys (insert m key v) := by
    rw [keys_insert]; split <;> simp_all
  rw [insert_of_mem hc]
  by_cases h : key ∈ keys m
  · rw [insert_of_mem h, insert_of_mem h, List.map_map]
    apply List.map_congr_left
    intro e _
    simp only [Function.comp]
    split <;> simp_all
  · have hid : m.map (fun e => if e.1 == key then (key, w) else e) = m := by
      conv_rhs => rw [← List.map_id m]
      apply List.map_congr_left
      intro e he
      have hne : e.1 ≠ key := fun hk => h (hk ▸ List.mem_map_of_mem he)
      simp [hne]
    rw [insert_of_not_mem h, insert_of_not_mem h, List.map_append, hid]; simp

/-- A removal permutes the members without the removed one. -/
theorem remove_perm {m : Map} (hm : (keys m).Nodup) (key : String) :
    (remove m key).Perm (m.filter (fun e => e.1 != key)) := by
  unfold remove
  split
  · rename_i hc
    obtain ⟨l, last, rfl⟩ : ∃ l last, m = l ++ [last] := by
      rcases List.eq_nil_or_concat m with h | ⟨l, a, h⟩
      · subst h; simp [containsKey] at hc
      · exact ⟨l, a, by simpa using h⟩
    simp only [List.getLast?_append, List.getLast?_singleton, Option.some_or, List.dropLast_concat]
    simp only [keys, List.map_append, List.map_cons, List.map_nil, List.nodup_append] at hm
    obtain ⟨hl, -, hdis⟩ := hm
    by_cases hk : last.1 = key
    · -- the removed member is the last one
      subst hk
      rw [if_pos (by simp), List.filter_append]
      have hall : l.filter (fun e => e.1 != last.1) = l := by
        rw [List.filter_eq_self]
        intro e he
        have hne := hdis e.1 (List.mem_map_of_mem he) last.1 (by simp)
        simpa using hne
      rw [hall]; simp
    · rw [if_neg (by simpa using hk)]
      have hmem : key ∈ l.map (·.1) := by
        rw [containsKey_iff] at hc; simp only [keys, List.map_append, List.mem_append] at hc
        rcases hc with h | h
        · exact h
        · simp at h; exact absurd h.symm hk
      rw [List.filter_append, show [last].filter (fun e => e.1 != key) = [last] by simp [hk]]
      clear hc hdis
      induction l with
      | nil => simp at hmem
      | cons e l ih =>
        simp only [List.map_cons, List.nodup_cons] at hl
        rw [List.map_cons]
        by_cases he : e.1 = key
        · have hnl : ∀ x ∈ l, x.1 ≠ key := fun x hx hxk => hl.1 (by
            rw [he, ← hxk]; exact List.mem_map_of_mem hx)
          have hid : l.map (fun x => if x.1 == key then last else x) = l := by
            conv_rhs => rw [← List.map_id l]
            exact List.map_congr_left (fun x hx => by simp [hnl x hx])
          have hf : l.filter (fun x => x.1 != key) = l := by
            rw [List.filter_eq_self]; intro x hx; simpa using hnl x hx
          rw [hid, List.filter_cons_of_neg (by simp [he]), hf, if_pos (by simp [he])]
          exact (List.perm_append_singleton last l).symm
        · rw [List.filter_cons_of_pos (by simpa using he), if_neg (by simpa using he)]
          have hml : key ∈ l.map (·.1) := by
            rcases List.mem_cons.1 hmem with h | h
            · exact absurd h.symm he
            · exact h
          exact (ih hl.2 hml).cons e
  · rename_i hc
    have hall : m.filter (fun e => e.1 != key) = m := by
      rw [List.filter_eq_self]
      intro e he
      have hne : e.1 ≠ key := fun hk => hc (containsKey_iff.2 (hk ▸ List.mem_map_of_mem he))
      simpa using hne
    rw [hall]

theorem keys_remove_perm {m : Map} (hm : (keys m).Nodup) (key : String) :
    (keys (remove m key)).Perm ((keys m).filter (· != key)) := by
  have h := (remove_perm hm key).map (·.1)
  rwa [show (m.filter (fun e => e.1 != key)).map (·.1) = (keys m).filter (· != key) by
    rw [keys, List.filter_map]; rfl] at h

theorem nodup_remove {m : Map} (hm : (keys m).Nodup) (key : String) : (keys (remove m key)).Nodup :=
  (keys_remove_perm hm key).nodup_iff.2 (hm.filter _)

/-- Membership after a removal. -/
theorem mem_remove {m : Map} (hm : (keys m).Nodup) (key : String) {e : String × Value} :
    e ∈ remove m key ↔ e ∈ m ∧ e.1 ≠ key := by
  rw [(remove_perm hm key).mem_iff]; simp

theorem mem_of_mem_remove {m : Map} {key : String} {e : String × Value} (h : e ∈ remove m key) :
    e ∈ m := by
  unfold remove at h
  split at h
  · split at h
    · rename_i last hlast
      split at h
      · exact List.mem_of_mem_dropLast h
      · obtain ⟨d, hd, rfl⟩ := List.mem_map.1 h
        split
        · exact List.mem_of_getLast? hlast
        · exact List.mem_of_mem_dropLast hd
    · exact h
  · exact h

/-- Lookup after a removal. -/
theorem get_remove {m : Map} (hm : (keys m).Nodup) (key key' : String) :
    get (remove m key) key' = if key' = key then none else get m key' := by
  split
  · rename_i h; subst h
    rw [get_eq_none_iff, (keys_remove_perm hm key').mem_iff]; simp
  · rename_i h
    cases hg : get m key' with
    | none =>
      rw [get_eq_none_iff] at hg ⊢
      rw [(keys_remove_perm hm key).mem_iff]; simp [hg]
    | some v =>
      rw [get_eq_some_iff hm] at hg
      rw [get_eq_some_iff (nodup_remove hm key), mem_remove hm]
      exact ⟨hg, h⟩

end Map

/-! ## Distinct keys -/

namespace Value

mutual
/-- Every object of the tree has distinct keys. -/
def Distinct : Value → Prop
  | .array items => DistinctItems items
  | .object members => (Map.keys members).Nodup ∧ DistinctMembers members
  | _ => True
def DistinctItems : List Value → Prop
  | [] => True
  | v :: vs => Distinct v ∧ DistinctItems vs
def DistinctMembers : List (String × Value) → Prop
  | [] => True
  | (_, v) :: ms => Distinct v ∧ DistinctMembers ms
end

theorem distinctItems_iff {items : List Value} : DistinctItems items ↔ ∀ v ∈ items, Distinct v := by
  induction items with
  | nil => simp [DistinctItems]
  | cons v vs ih => simp [DistinctItems, ih]

theorem distinctMembers_iff {members : Map} :
    DistinctMembers members ↔ ∀ m ∈ members, Distinct m.2 := by
  induction members with
  | nil => simp [DistinctMembers]
  | cons m ms ih => obtain ⟨k, v⟩ := m; simp [DistinctMembers, ih]

@[simp] theorem distinct_array {items : List Value} :
    Distinct (.array items) ↔ ∀ v ∈ items, Distinct v := by
  rw [Distinct, distinctItems_iff]

@[simp] theorem distinct_object {members : Map} :
    Distinct (.object members) ↔ (Map.keys members).Nodup ∧ ∀ m ∈ members, Distinct m.2 := by
  rw [Distinct, distinctMembers_iff]

@[simp] theorem distinct_string (s : String) : Distinct (.string s) := trivial

@[simp] theorem distinct_number (spelling : String) : Distinct (.number spelling) := trivial

theorem Distinct.insert {m : Map} (hm : Distinct (.object m)) {v : Value} (hv : Distinct v)
    (key : String) : Distinct (.object (Map.insert m key v)) := by
  rw [distinct_object] at hm ⊢
  refine ⟨Map.nodup_insert hm.1 key v, fun e he => ?_⟩
  rcases Map.mem_insert he with h | h
  · subst h; exact hv
  · exact hm.2 e h

theorem Distinct.remove {m : Map} (hm : Distinct (.object m)) (key : String) :
    Distinct (.object (Map.remove m key)) := by
  rw [distinct_object] at hm ⊢
  exact ⟨Map.nodup_remove hm.1 key, fun e he => hm.2 e ((Map.mem_remove hm.1 key).1 he).1⟩

theorem Distinct.get {m : Map} (hm : Distinct (.object m)) {key : String} {v : Value}
    (h : Map.get m key = some v) : Distinct v :=
  (distinct_object.1 hm).2 _ (Map.mem_of_get h)

end Value

/-! ## Pointers -/

/-- Decodes `~1`, one pass over the token. -/
def unescapeSlash : List Char → List Char
  | '~' :: '1' :: cs => '/' :: unescapeSlash cs
  | c :: cs => c :: unescapeSlash cs
  | [] => []

/-- Decodes `~0`, one pass over the token. -/
def unescapeTilde : List Char → List Char
  | '~' :: '0' :: cs => '~' :: unescapeTilde cs
  | c :: cs => c :: unescapeTilde cs
  | [] => []

/-- `token.replace("~1", "/").replace("~0", "~")`. -/
def unescapeToken (token : String) : String :=
  String.ofList (unescapeTilde (unescapeSlash token.toList))

/-- The reference tokens of a JSON pointer; a pointer is empty or starts with a slash. -/
def pointerTokens (pointer : String) : Option (List String) :=
  if pointer = "" then some []
  else if Text.startsWith "/" pointer then
    some ((Text.split '/' pointer).tail.map unescapeToken)
  else none

/-- The decimal value of digits, `none` on anything else. -/
def parseDigits : List Char → ℕ → Option ℕ
  | [], n => some n
  | c :: cs, n => if c.isDigit then parseDigits cs (n * 10 + (c.toNat - '0'.toNat)) else none

/-- An array index token: decimal digits without a leading zero or sign. (An index past
machine range is past the end of every array.) -/
def parseIndex (token : String) : Option ℕ :=
  if token = "" || (Text.startsWith "0" token && token.length != 1) then none
  else parseDigits token.toList 0

namespace Value

/-- `Value::get` with a key. -/
def get (v : Value) (key : String) : Option Value := v.asObject.bind (Map.get · key)

/-- The value one token below. -/
def child (v : Value) (token : String) : Option Value :=
  match v with
  | .object members => Map.get members token
  | .array items => (parseIndex token).bind (items[·]?)
  | _ => none

/-- The value at a path of tokens. -/
def at? : Value → List String → Option Value
  | v, [] => some v
  | v, t :: ts => (v.child t).bind (·.at? ts)

/-- `Value::pointer`. -/
def pointer (v : Value) (p : String) : Option Value := (pointerTokens p).bind v.at?

/-- Applies `f` to the value one token below, in place. -/
def modifyChild (v : Value) (token : String) (f : Value → Value) : Value :=
  match v with
  | .object members => .object (members.map fun m => if m.1 == token then (m.1, f m.2) else m)
  | .array items =>
    match parseIndex token with
    | some i => .array (items.modify i f)
    | none => v
  | _ => v

/-- Applies `f` to the value at a path of tokens, in place. -/
def modifyAt : List String → (Value → Value) → Value → Value
  | [], f, v => f v
  | t :: ts, f, v => v.modifyChild t (modifyAt ts f)

/-- Applies `f` through `Value::pointer_mut`, if the pointer leads somewhere. -/
def modifyPointer (v : Value) (p : String) (f : Value → Value) : Value :=
  match pointerTokens p with
  | some path => v.modifyAt path f
  | none => v

/-- `Map::remove` on an object, nothing on another value. -/
def removeKey (key : String) : Value → Value
  | .object members => .object (Map.remove members key)
  | v => v

/-! ### Modifying in place -/

theorem keys_modify (members : Map) (key : String) (f : Value → Value) :
    Map.keys (members.map fun m => if m.1 == key then (m.1, f m.2) else m) = Map.keys members := by
  unfold Map.keys
  rw [List.map_map]
  apply List.map_congr_left
  intro m _
  rw [Function.comp_apply]
  split <;> rfl

theorem get_modify (members : Map) (key : String) (f : Value → Value) (key' : String) :
    Map.get (members.map fun m => if m.1 == key then (m.1, f m.2) else m) key' =
      (Map.get members key').map fun v => if key' = key then f v else v := by
  induction members with
  | nil => rfl
  | cons m ms ih =>
    obtain ⟨k, v⟩ := m
    rw [List.map_cons, Map.get_cons, Map.get_cons, ih]
    by_cases hk : k = key
    · subst hk
      simp only [beq_self_eq_true, if_true]
      split <;> simp [*]
    · simp only [beq_iff_eq, hk, if_false]
      split
      · rename_i hkey
        subst hkey
        simp [hk]
      · rfl

theorem Distinct.child {v w : Value} {token : String} (hv : v.Distinct)
    (h : v.child token = some w) : w.Distinct := by
  cases v with
  | object members => exact Distinct.get hv h
  | array items =>
    obtain ⟨i, -, hi⟩ := Option.bind_eq_some_iff.1 h
    exact distinct_array.1 hv w (List.mem_of_getElem? hi)
  | null | bool | number | string => cases h

/-- What lies one token below a modified value is there unmodified, or was modified. -/
theorem child_modifyChild {v x : Value} {token token' : String} {f : Value → Value}
    (h : (v.modifyChild token f).child token' = some x) :
    ∃ y, v.child token' = some y ∧ (x = y ∨ x = f y) := by
  cases v with
  | object members =>
    have hget : (Map.get members token').map (fun v => if token' = token then f v else v) = some x := by
      rw [← get_modify]
      exact h
    obtain ⟨y, hy, rfl⟩ := Option.map_eq_some_iff.1 hget
    refine ⟨y, hy, ?_⟩
    split
    · exact Or.inr rfl
    · exact Or.inl rfl
  | array items =>
    unfold modifyChild at h
    dsimp only at h
    split at h
    · rename_i i hi
      obtain ⟨j, hj, hx⟩ := Option.bind_eq_some_iff.1 h
      rw [List.getElem?_modify] at hx
      obtain ⟨y, hy, rfl⟩ := Option.map_eq_some_iff.1 hx
      refine ⟨y, by simp [child, hj, hy], ?_⟩
      split
      · exact Or.inr rfl
      · exact Or.inl rfl
    · exact ⟨x, h, Or.inl rfl⟩
  | null | bool | number | string => exact ⟨x, h, Or.inl rfl⟩

/-- The nodes of a modified child are those of the value, or modified ones. -/
theorem mem_items_modify {items : List Value} {i : ℕ} {f : Value → Value} {w : Value}
    (h : w ∈ items.modify i f) : ∃ v ∈ items, w = v ∨ w = f v := by
  obtain ⟨j, hj⟩ := List.getElem?_of_mem h
  rw [List.getElem?_modify] at hj
  obtain ⟨v, hv, rfl⟩ := Option.map_eq_some_iff.1 hj
  refine ⟨v, List.mem_of_getElem? hv, ?_⟩
  split
  · exact Or.inr rfl
  · exact Or.inl rfl

theorem mem_members_modify {members : Map} {key : String} {f : Value → Value} {e : String × Value}
    (h : e ∈ members.map fun m => if m.1 == key then (m.1, f m.2) else m) :
    ∃ m ∈ members, e.2 = m.2 ∨ e.2 = f m.2 := by
  obtain ⟨m, hm, rfl⟩ := List.mem_map.1 h
  refine ⟨m, hm, ?_⟩
  split
  · exact Or.inr rfl
  · exact Or.inl rfl

/-- What modifying a child keeps, modifying at a path keeps. -/
theorem modifyAt_induction {P : Value → Prop} {f : Value → Value} (hf : ∀ w, P w → P (f w))
    (hchild : ∀ (v : Value) (token : String) (g : Value → Value), P v → (∀ w, P w → P (g w)) →
      P (v.modifyChild token g))
    (path : List String) : ∀ v, P v → P (v.modifyAt path f) := by
  induction path with
  | nil => exact hf
  | cons token path ih => exact fun v hv => hchild v token _ hv ih

theorem Distinct.modifyChild {v : Value} (hv : v.Distinct) {f : Value → Value}
    (hf : ∀ w : Value, w.Distinct → (f w).Distinct) (token : String) :
    (v.modifyChild token f).Distinct := by
  cases v with
  | object members =>
    obtain ⟨hkeys, hmembers⟩ := distinct_object.1 hv
    refine distinct_object.2 ⟨by rw [keys_modify]; exact hkeys, fun e he => ?_⟩
    obtain ⟨m, hm, h | h⟩ := mem_members_modify he
    · rw [h]; exact hmembers m hm
    · rw [h]; exact hf _ (hmembers m hm)
  | array items =>
    unfold Value.modifyChild
    dsimp only
    split
    · rw [distinct_array] at hv ⊢
      intro w hw
      obtain ⟨u, hu, rfl | rfl⟩ := mem_items_modify hw
      · exact hv _ hu
      · exact hf _ (hv _ hu)
    · exact hv
  | null | bool | number | string => exact hv

end Value

/-! ## The compact printer -/

/-- A hexadecimal digit in lower case. -/
def hexDigit (n : ℕ) : Char := Char.ofNat (if n < 10 then 48 + n else 87 + n)

/-- A character inside a JSON string. -/
def escapeChar (c : Char) : List Char :=
  match c with
  | '"' => ['\\', '"']
  | '\\' => ['\\', '\\']
  | '\x08' => ['\\', 'b']
  | '\t' => ['\\', 't']
  | '\n' => ['\\', 'n']
  | '\x0C' => ['\\', 'f']
  | '\r' => ['\\', 'r']
  | c => if c.toNat < 32 then ['\\', 'u', '0', '0', hexDigit (c.toNat / 16), hexDigit (c.toNat % 16)]
      else [c]

/-- `serde_json::to_vec` of a string. -/
def printString (s : String) : List UInt8 :=
  Text.bytes "\"" ++ Text.bytes (String.ofList (s.toList.flatMap escapeChar)) ++ Text.bytes "\""

mutual
/-- `serde_json::to_vec`. -/
def print : Value → List UInt8
  | .null => Text.bytes "null"
  | .bool b => Text.bytes (if b then "true" else "false")
  | .number spelling => Text.bytes spelling
  | .string s => printString s
  | .array items => Text.bytes "[" ++ printItems true items ++ Text.bytes "]"
  | .object members => Text.bytes "\x7b" ++ printMembers true members ++ Text.bytes "\x7d"
/-- The items after the opening bracket; a comma stands before every item but the first. -/
def printItems (first : Bool) : List Value → List UInt8
  | [] => []
  | v :: vs => (if first then [] else Text.bytes ",") ++ print v ++ printItems false vs
/-- The members after the opening brace. -/
def printMembers (first : Bool) : List (String × Value) → List UInt8
  | [] => []
  | (k, v) :: ms =>
    (if first then [] else Text.bytes ",") ++ printString k ++ Text.bytes ":" ++ print v ++
      printMembers false ms
end

example : print (.object [("a", .array [.null, .string "\n图"]), ("b", .number "1")]) =
    Text.bytes "\x7b\"a\":[null,\"\\n图\"],\"b\":1\x7d" := by
  decide +kernel

end Json
