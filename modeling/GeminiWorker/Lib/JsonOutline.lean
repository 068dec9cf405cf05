import GeminiWorker.Lib.JsonShape

/-!
# The outline of a document

What stands at each path of a document, where the keys of an object are only known from the paths below it.

* `outlineAt_removeAt`: what is left of it when a member is removed.
-/

namespace Json

/-- A shape without the keys of an object. -/
def Shape.outline : Shape → Shape
  | .object _ => .object []
  | s => s

def Shape.asStr : Shape → Option String
  | .string s => some s
  | _ => none

namespace Value

def outline (v : Value) : Shape := v.shape.outline

def outlineAt (v : Value) (path : List String) : Option Shape := (v.at? path).map outline

/-- The keys of an object. -/
def keys : Value → List String
  | .object members => Map.keys members
  | _ => []

variable {v w : Value}

theorem asStr_outline (v : Value) : v.outline.asStr = v.asStr := by
  cases v <;> rfl

theorem outlineAt_eq (v : Value) (path : List String) : v.outlineAt path = (v.shapeAt path).map Shape.outline := by
  unfold outlineAt shapeAt
  rw [Option.map_map]
  rfl

theorem outlineAt_append (v : Value) (path path' : List String) :
    v.outlineAt (path ++ path') = (v.at? path).bind fun w => w.outlineAt path' := by
  unfold outlineAt
  rw [at?_append, Option.map_bind]
  rfl

theorem outlineAt_of_at? {path : List String} (h : v.at? path = some w) : v.outlineAt path = some w.outline := by
  unfold outlineAt
  rw [h, Option.map_some]

theorem exists_of_outlineAt {path : List String} {s : Shape} (h : v.outlineAt path = some s) :
    ∃ w, v.at? path = some w ∧ w.outline = s :=
  Option.map_eq_some_iff.mp h

theorem nodup_keys (hv : v.Distinct) : v.keys.Nodup := by
  cases v with
  | object members => exact (distinct_object.mp hv).1
  | null | bool | number | string | array => exact List.nodup_nil

/-- The children of an object are under its keys. -/
theorem mem_keys_of_child {members : Map} {key : String} :
    key ∈ (object members).keys ↔ ((object members).child key).isSome = true :=
  Map.get_isSome_iff.symm

/-- An outline tells an object from the other values. -/
theorem eq_object_of_outline {members : Map} (h : v.outline = (object members).outline) :
    ∃ members', v = .object members' := by
  cases v with
  | object members' => exact ⟨members', rfl⟩
  | null | bool | number | string | array => cases h

/-! ## Removed members -/

theorem outline_removeKey (key : String) (v : Value) : (v.removeKey key).outline = v.outline := by
  cases v <;> rfl

theorem child_removeKey (hv : v.Distinct) {key : String} (hkey : parseIndex key = none) (token : String) :
    (v.removeKey key).child token = if token = key then none else v.child token := by
  cases v with
  | object members => exact Map.get_remove (distinct_object.mp hv).1 key token
  | array items =>
    split
    · rename_i heq
      show (parseIndex token).bind _ = none
      rw [heq, hkey]
      rfl
    · rfl
  | null | bool | number | string => exact (ite_self _).symm

theorem distinct_at? {path : List String} : ∀ {v : Value}, v.Distinct → v.at? path = some w → w.Distinct := by
  induction path with
  | nil =>
    rintro v hv h
    rwa [← Option.some.inj h]
  | cons token path ih =>
    intro v hv h
    obtain ⟨child, hchild, hw⟩ := Option.bind_eq_some_iff.mp h
    exact ih (hv.child hchild) hw

/-- **The outline after a removal** is gone below the member, and is the same elsewhere. -/
theorem outlineAt_removeAt (hv : v.Distinct) {key : String} (hkey : parseIndex key = none)
    (target path : List String) :
    (v.modifyAt target (removeKey key)).outlineAt path =
      if target ++ [key] <+: path then none else v.outlineAt path := by
  by_cases htarget : target <+: path
  · obtain ⟨rest, rfl⟩ := htarget
    have hbelow : target ++ [key] <+: target ++ rest ↔ [key] <+: rest := List.prefix_append_right_inj target
    unfold outlineAt
    rw [at?_modifyAt, at?_append]
    rcases hw : v.at? target with _ | w
    · exact (ite_self _).symm
    · have hdistinct : w.Distinct := distinct_at? hv hw
      rw [Option.bind_some, Option.bind_some]
      rcases rest with _ | ⟨token, rest⟩
      · rw [if_neg (fun h => absurd (List.prefix_nil.mp (hbelow.mp h)) (List.cons_ne_nil _ _))]
        exact congrArg some (outline_removeKey key w)
      · rw [at?, child_removeKey hdistinct hkey]
        by_cases htoken : token = key
        · have hprefix : [key] <+: token :: rest := by
            rw [htoken]
            exact ⟨rest, rfl⟩
          rw [if_pos htoken, if_pos (hbelow.mpr hprefix)]
          rfl
        · have hprefix : ¬ [key] <+: token :: rest := by
            intro h
            exact htoken (List.cons_prefix_cons.mp h).1.symm
          rw [if_neg htoken, if_neg (fun h => hprefix (hbelow.mp h))]
          rfl
  · have hlonger : ¬ target ++ [key] <+: path := fun h => htarget ((List.prefix_append _ _).trans h)
    rw [if_neg hlonger, outlineAt_eq, outlineAt_eq, shapeAt_modifyAt _ _ htarget]

end Value

end Json
