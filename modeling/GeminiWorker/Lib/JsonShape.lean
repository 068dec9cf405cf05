import GeminiWorker.Lib.JsonPointer

/-!
# A document by its positions

What stands at each path of a document, without what lies below it.

* `Value.shapeAt`: the shape at a path.
* `eq_of_shapeAt`: two documents with the same shapes everywhere are the same.
* `shapeAt_cons`: the shapes below a token are those of the child there.
* `children_induction`: induction over the children of a container, whichever it is.
* `at?_modifyAt`, `shapeAt_modifyAt`: what modifying at a path does below it, and that nothing changes elsewhere.
-/

namespace Json

/-- A value without what lies below it. -/
inductive Shape where
  | null
  | bool (b : Bool)
  | number (spelling : String)
  | string (s : String)
  | array (length : ℕ)
  | object (keys : List String)
deriving DecidableEq

/-- Lookup after every member was replaced in place. -/
theorem Map.get_map (members : Map) (f : String → Value → Value) (key : String) :
    Map.get (members.map fun m => (m.1, f m.1 m.2)) key = (Map.get members key).map (f key) := by
  induction members with
  | nil => rfl
  | cons m members ih =>
    rw [List.map_cons, Map.get_cons, Map.get_cons, ih]
    by_cases h : key = m.1
    · rw [if_pos h, if_pos h, Option.map_some, h]
    · rw [if_neg h, if_neg h]

theorem Map.keys_map (members : Map) (f : String → Value → Value) :
    Map.keys (members.map fun m => (m.1, f m.1 m.2)) = Map.keys members := by
  unfold Map.keys
  rw [List.map_map]
  rfl

namespace Value

def shape : Value → Shape
  | .null => .null
  | .bool b => .bool b
  | .number spelling => .number spelling
  | .string s => .string s
  | .array items => .array items.length
  | .object members => .object (Map.keys members)

/-- The shape at a path, if it leads somewhere. -/
def shapeAt (v : Value) (path : List String) : Option Shape := (v.at? path).map shape

variable {v w : Value}

@[simp] theorem shapeAt_nil (v : Value) : v.shapeAt [] = some v.shape := rfl

theorem shapeAt_cons (v : Value) (token : String) (path : List String) :
    v.shapeAt (token :: path) = (v.child token).bind fun child => child.shapeAt path := by
  unfold shapeAt
  rw [at?, Option.map_bind]
  rfl

theorem at?_append (path path' : List String) : ∀ v : Value,
    v.at? (path ++ path') = (v.at? path).bind fun w => w.at? path' := by
  induction path with
  | nil => exact fun _ => rfl
  | cons token path ih =>
    intro v
    rw [List.cons_append, at?, at?]
    cases v.child token with
    | none => rfl
    | some child => exact ih child

theorem at?_singleton (v : Value) (token : String) : v.at? [token] = v.child token := by
  rw [at?]
  cases v.child token <;> rfl

/-- A member of an object is the child under its key. -/
theorem child_of_mem {members : Map} (hnodup : (Map.keys members).Nodup) {key : String} {x : Value}
    (h : (key, x) ∈ members) : (object members).child key = some x :=
  (Map.get_eq_some_iff hnodup).mpr h

/-- The children of a container. -/
def children : Value → List Value
  | .array items => items
  | .object members => members.map Prod.snd
  | _ => []

/-- Induction over a value and its children. -/
theorem children_induction {motive : Value → Prop}
    (step : ∀ v : Value, (∀ child ∈ v.children, motive child) → motive v) (v : Value) : motive v := by
  induction v using Value.induction with
  | null | bool b | number s | string s => exact step _ (fun _ h => by cases h)
  | array items ih => exact step _ ih
  | object members ih =>
    refine step _ fun child hchild => ?_
    obtain ⟨m, hm, rfl⟩ := List.mem_map.1 hchild
    exact ih m hm

/-- The children are what stands one token below. -/
theorem mem_children (hv : v.Distinct) {child : Value} :
    child ∈ v.children ↔ ∃ token, v.child token = some child := by
  cases v with
  | null | bool b | number s | string s =>
    constructor
    · intro h; cases h
    · rintro ⟨token, h⟩; cases h
  | array items =>
    constructor
    · intro h
      obtain ⟨i, hi⟩ : ∃ i : ℕ, items[i]? = some child := List.getElem?_of_mem h
      exact ⟨toString i, by rw [child_index, hi]⟩
    · rintro ⟨token, h⟩
      obtain ⟨i, -, hi⟩ := Option.bind_eq_some_iff.1 h
      exact List.mem_of_getElem? hi
  | object members =>
    have hnodup := (distinct_object.1 hv).1
    constructor
    · intro h
      obtain ⟨m, hm, rfl⟩ := List.mem_map.1 h
      exact ⟨m.1, child_of_mem hnodup hm⟩
    · rintro ⟨token, h⟩
      exact List.mem_map_of_mem (f := Prod.snd) (Map.mem_of_get h)

theorem child_modifyChild_eq (v : Value) (token token' : String) (f : Value → Value) :
    (v.modifyChild token f).child token' = (v.child token').map fun w => if token' = token then f w else w := by
  cases v with
  | object members => exact get_modify members token f token'
  | array items =>
    have hsame : ∀ w, w ∈ (array items).child token' → parseIndex token = none → token' ≠ token := by
      intro w hw hnone heq
      obtain ⟨i, hi, -⟩ := Option.bind_eq_some_iff.mp hw
      rw [heq, hnone] at hi
      cases hi
    unfold Value.modifyChild
    dsimp only
    rcases htoken : parseIndex token with _ | i
    · rcases hw : (array items).child token' with _ | w
      · rfl
      · rw [Option.map_some, if_neg (hsame w hw htoken)]
    · rcases htoken' : parseIndex token' with _ | j
      · simp [child, htoken']
      · have hindex : i = j ↔ token' = token := by
          rw [parseIndex_eq_some_iff.mp htoken, parseIndex_eq_some_iff.mp htoken']
          constructor
          · intro heq
            rw [heq]
          · intro heq
            have hj : parseIndex (toString i) = some j := parseIndex_eq_some_iff.mpr heq.symm
            rw [parseIndex_eq_some_iff.mpr rfl] at hj
            exact Option.some.inj hj
        simp [child, htoken', List.getElem?_modify, hindex]
  | null | bool | number | string => rfl

theorem shape_modifyChild (v : Value) (token : String) (f : Value → Value) :
    (v.modifyChild token f).shape = v.shape := by
  cases v with
  | object members => exact congrArg Shape.object (keys_modify members token f)
  | array items =>
    unfold Value.modifyChild
    dsimp only
    split
    · exact congrArg Shape.array (List.length_modify ..)
    · rfl
  | null | bool | number | string => rfl

/-- **Nothing changes elsewhere.** -/
theorem shapeAt_modifyAt {target : List String} (f : Value → Value) : ∀ (v : Value) {path : List String},
    ¬ target <+: path → (v.modifyAt target f).shapeAt path = v.shapeAt path := by
  induction target with
  | nil => exact fun _ path h => absurd List.nil_prefix h
  | cons token target ih =>
    intro v path h
    rcases path with _ | ⟨token', path⟩
    · exact congrArg some (shape_modifyChild v token _)
    · rw [modifyAt, shapeAt_cons, shapeAt_cons, child_modifyChild_eq]
      rcases v.child token' with _ | w
      · rfl
      · rw [Option.map_some, Option.bind_some, Option.bind_some]
        split
        · rename_i heq
          exact ih w fun hprefix => h (heq ▸ List.cons_prefix_cons.mpr ⟨rfl, hprefix⟩)
        · rfl

theorem at?_modifyAt (target : List String) (f : Value → Value) (path : List String) : ∀ v : Value,
    (v.modifyAt target f).at? (target ++ path) = (v.at? target).bind fun w => (f w).at? path := by
  induction target with
  | nil => exact fun _ => rfl
  | cons token target ih =>
    intro v
    rw [List.cons_append, modifyAt, at?, at?, child_modifyChild_eq]
    rcases v.child token with _ | w
    · rfl
    · rw [Option.map_some, Option.bind_some, Option.bind_some, if_pos rfl]
      exact ih w

theorem modifyChild_of_fixed (hv : v.Distinct) {token : String} {f : Value → Value}
    (h : ∀ w, v.child token = some w → f w = w) : v.modifyChild token f = v := by
  cases v with
  | object members =>
    have hnodup := (distinct_object.mp hv).1
    have hfixed : (members.map fun m => if m.1 == token then (m.1, f m.2) else m) = members.map id := by
      apply List.map_congr_left
      intro m hm
      by_cases heq : (m.1 == token) = true
      · rw [if_pos heq, h m.2 (by rw [← eq_of_beq heq]; exact child_of_mem hnodup hm)]
        rfl
      · rw [if_neg heq]
        rfl
    rw [List.map_id] at hfixed
    exact congrArg object hfixed
  | array items =>
    unfold Value.modifyChild
    dsimp only
    rcases htoken : parseIndex token with _ | i
    · rfl
    · refine congrArg array (List.ext_getElem? fun j => ?_)
      rw [List.getElem?_modify]
      rcases hj : items[j]? with _ | w
      · rfl
      · by_cases hij : i = j
        · have hw : (array items).child token = some w := by simp [child, htoken, hij, hj]
          simp [hij, h w hw]
        · simp [hij]
  | null | bool | number | string => rfl

/-- What is not changed at a path is not changed. -/
theorem modifyAt_of_fixed {f : Value → Value} (target : List String) : ∀ {v : Value}, v.Distinct →
    (∀ w, v.at? target = some w → f w = w) → v.modifyAt target f = v := by
  induction target with
  | nil => exact fun _ h => h _ rfl
  | cons token target ih =>
    intro v hv h
    refine modifyChild_of_fixed hv fun w hw => ih (hv.child hw) fun u hu => h u ?_
    rw [at?, hw, Option.bind_some, hu]

theorem modifyChild_modifyChild (v : Value) (token : String) {f : Value → Value} (hf : ∀ w, f (f w) = f w) :
    (v.modifyChild token f).modifyChild token f = v.modifyChild token f := by
  cases v with
  | object members =>
    refine congrArg object ?_
    rw [List.map_map]
    apply List.map_congr_left
    intro m _
    rw [Function.comp_apply]
    by_cases hm : (m.1 == token) = true
    · rw [if_pos hm, if_pos hm, hf]
    · rw [if_neg hm, if_neg hm]
  | array items =>
    unfold Value.modifyChild
    dsimp only
    rcases parseIndex token with _ | i
    · rfl
    · refine congrArg array (List.ext_getElem? fun j => ?_)
      rw [List.getElem?_modify, List.getElem?_modify]
      rcases items[j]? with _ | w
      · rfl
      · simp only [Option.map_eq_map, Option.map_some]
        split
        · rw [hf]
        · rfl
  | null | bool | number | string => rfl

/-- What is done at a path once is done there for good. -/
theorem modifyAt_modifyAt (target : List String) {f : Value → Value} (hf : ∀ w, f (f w) = f w) : ∀ v : Value,
    (v.modifyAt target f).modifyAt target f = v.modifyAt target f := by
  induction target with
  | nil => exact hf
  | cons token target ih => exact fun v => modifyChild_modifyChild v token ih

end Value

end Json
