import GeminiWorker.Lib.JsonShape

/-!
# The nodes of a document

* `Value.nodes`: every value of a document, a container before what lies below it.
* `mem_nodes`: these are the values that stand at its paths.
* `Value.height`: how deep a document is.
* `Value.mapMembers`: every member rewritten under its key, the inner ones first.
* `shape_mapMembers`, `child_mapMembers`: what stands there then, and one token below.
-/

namespace Json

/-- A member rewritten in place is a member inserted. -/
theorem Map.map_member {members : Map} (hnodup : (Map.keys members).Nodup) (key : String) (f : Value → Value) :
    (members.map fun m => (m.1, if m.1 = key then f m.2 else m.2)) =
      match Map.get members key with
      | some w => Map.insert members key (f w)
      | none => members := by
  rcases hget : Map.get members key with _ | w <;> dsimp only
  · have hkey := Map.get_eq_none_iff.mp hget
    have hsame : members.map (fun m => (m.1, if m.1 = key then f m.2 else m.2)) = members.map id := by
      apply List.map_congr_left
      intro m hm
      have hne : m.1 ≠ key := by
        rintro rfl
        exact hkey (List.mem_map_of_mem hm)
      rw [if_neg hne]
      rfl
    rw [hsame, List.map_id]
  · have hkey : key ∈ Map.keys members := by
      rw [← Map.get_isSome_iff, hget]
      rfl
    rw [Map.insert_of_mem hkey]
    apply List.map_congr_left
    intro m hm
    by_cases heq : m.1 = key
    · have hw := (Map.get_eq_some_iff hnodup).mpr hm
      rw [heq, hget, Option.some.injEq] at hw
      rw [if_pos heq, if_pos (beq_iff_eq.mpr heq), heq, hw]
    · rw [if_neg heq, if_neg (by simpa using heq)]

theorem Map.insert_of_get {members : Map} (hnodup : (Map.keys members).Nodup) {key : String} {w : Value}
    (hget : Map.get members key = some w) : Map.insert members key w = members := by
  have hmap := Map.map_member hnodup key id
  simp only [id_eq, ite_self, hget] at hmap
  rw [← hmap]
  exact List.map_id members

namespace Value

mutual
/-- A value and all values below it. -/
def nodes : Value → List Value
  | .array items => .array items :: nodesItems items
  | .object members => .object members :: nodesMembers members
  | v => [v]
def nodesItems : List Value → List Value
  | [] => []
  | v :: vs => nodes v ++ nodesItems vs
def nodesMembers : List (String × Value) → List Value
  | [] => []
  | (_, v) :: members => nodes v ++ nodesMembers members
end

theorem nodesItems_eq (items : List Value) : nodesItems items = items.flatMap nodes := by
  induction items with
  | nil => rfl
  | cons v vs ih => rw [nodesItems, ih, List.flatMap_cons]

theorem nodesMembers_eq (members : Map) : nodesMembers members = (members.map Prod.snd).flatMap nodes := by
  induction members with
  | nil => rfl
  | cons m members ih => rw [nodesMembers, ih, List.map_cons, List.flatMap_cons]

theorem nodes_eq (v : Value) : v.nodes = v :: v.children.flatMap nodes := by
  cases v with
  | array items => rw [nodes, nodesItems_eq, children]
  | object members => rw [nodes, nodesMembers_eq, children]
  | null | bool | number | string => rfl

variable {v w : Value}

/-- **The nodes of a document are the values at its paths.** -/
theorem mem_nodes (hv : v.Distinct) : w ∈ v.nodes ↔ ∃ path, v.at? path = some w := by
  induction v using children_induction with
  | step v ih =>
    rw [nodes_eq, List.mem_cons, List.mem_flatMap]
    constructor
    · rintro (rfl | ⟨child, hchild, hw⟩)
      · exact ⟨[], rfl⟩
      · obtain ⟨token, htoken⟩ := (mem_children hv).mp hchild
        obtain ⟨path, hpath⟩ := (ih child hchild (hv.child htoken)).mp hw
        refine ⟨token :: path, ?_⟩
        rw [at?, htoken, Option.bind_some, hpath]
    · rintro ⟨_ | ⟨token, path⟩, hpath⟩
      · exact .inl (Option.some.inj hpath).symm
      · obtain ⟨child, htoken, hpath⟩ := Option.bind_eq_some_iff.mp hpath
        have hchild := (mem_children hv).mpr ⟨token, htoken⟩
        exact .inr ⟨child, hchild, (ih child hchild (hv.child htoken)).mpr ⟨path, hpath⟩⟩

theorem child_array_of_none {token : String} (htoken : parseIndex token = none) (items : List Value) :
    (array items).child token = none := by
  unfold child
  dsimp only
  rw [htoken, Option.bind_none]

theorem at?_eq_string_iff {path : List String} {text : String} :
    v.at? path = some (.string text) ↔ v.shapeAt path = some (.string text) := by
  unfold shapeAt
  rcases v.at? path with _ | w
  · exact ⟨nofun, nofun⟩
  · cases w with
    | string s =>
      rw [Option.map_some, Option.some.injEq, Option.some.injEq, string.injEq, shape, Shape.string.injEq]
    | null | bool | number | array | object => exact ⟨nofun, nofun⟩

/-! ## Heights -/

mutual
/-- How many containers lie one in another. -/
def height : Value → ℕ
  | .array items => heightItems items + 1
  | .object members => heightMembers members + 1
  | _ => 0
def heightItems : List Value → ℕ
  | [] => 0
  | v :: vs => max (height v) (heightItems vs)
def heightMembers : List (String × Value) → ℕ
  | [] => 0
  | (_, v) :: members => max (height v) (heightMembers members)
end

theorem heightItems_le_iff {items : List Value} {n : ℕ} :
    heightItems items ≤ n ↔ ∀ v ∈ items, v.height ≤ n := by
  induction items with
  | nil => exact ⟨fun _ v hv => absurd hv List.not_mem_nil, fun _ => Nat.zero_le n⟩
  | cons v vs ih => rw [heightItems, Nat.max_le, ih, List.forall_mem_cons]

theorem heightMembers_le_iff {members : Map} {n : ℕ} :
    heightMembers members ≤ n ↔ ∀ m ∈ members, m.2.height ≤ n := by
  induction members with
  | nil => exact ⟨fun _ m hm => absurd hm List.not_mem_nil, fun _ => Nat.zero_le n⟩
  | cons m members ih => rw [heightMembers, Nat.max_le, ih, List.forall_mem_cons]

theorem heightItems_lt (items : List Value) : heightItems items < (array items).height := by
  rw [height]
  exact Nat.lt_succ_self _

theorem heightMembers_lt (members : Map) : heightMembers members < (object members).height := by
  rw [height]
  exact Nat.lt_succ_self _

theorem height_le_cons (key : String) (v : Value) (members : Map) :
    v.height ≤ heightMembers ((key, v) :: members) ∧
      heightMembers members ≤ heightMembers ((key, v) :: members) := by
  rw [heightMembers]
  exact ⟨Nat.le_max_left _ _, Nat.le_max_right _ _⟩

theorem height_le_cons_items (v : Value) (vs : List Value) :
    v.height ≤ heightItems (v :: vs) ∧ heightItems vs ≤ heightItems (v :: vs) := by
  rw [heightItems]
  exact ⟨Nat.le_max_left _ _, Nat.le_max_right _ _⟩

/-- A member that is no higher than the object leaves it at its height or below. -/
theorem heightMembers_insert_le {members : Map} {w : Value} (hw : w.height ≤ heightMembers members)
    (key : String) : heightMembers (Map.insert members key w) ≤ heightMembers members := by
  rw [heightMembers_le_iff]
  intro m hm
  rcases Map.mem_insert hm with rfl | hm
  · exact hw
  · exact heightMembers_le_iff.mp le_rfl m hm

/-! ## Rewritten members -/

section

variable (f : String → Value → Value)

mutual
def mapMembers : Value → Value
  | .array items => .array (mapMembersItems items)
  | .object members => .object (mapMembersMembers members)
  | v => v
def mapMembersItems : List Value → List Value
  | [] => []
  | v :: vs => mapMembers v :: mapMembersItems vs
def mapMembersMembers : List (String × Value) → List (String × Value)
  | [] => []
  | (key, v) :: members => (key, f key (mapMembers v)) :: mapMembersMembers members
end

theorem mapMembers_array (items : List Value) :
    mapMembers f (.array items) = .array (items.map (mapMembers f)) := by
  rw [mapMembers]
  congr 1
  induction items with
  | nil => rfl
  | cons v vs ih => rw [mapMembersItems, ih, List.map_cons]

theorem mapMembers_object (members : Map) :
    mapMembers f (.object members) = .object (members.map fun m => (m.1, f m.1 (mapMembers f m.2))) := by
  rw [mapMembers]
  congr 1
  induction members with
  | nil => rfl
  | cons m members ih => rw [mapMembersMembers, ih, List.map_cons]

theorem shape_mapMembers (v : Value) : (mapMembers f v).shape = v.shape := by
  cases v with
  | array items =>
    rw [mapMembers_array, shape, List.length_map]
    rfl
  | object members =>
    rw [mapMembers_object]
    exact congrArg Shape.object (Map.keys_map members fun key v => f key (mapMembers f v))
  | null | bool | number | string => rfl

/-- What lies one token below, if members with the key of an array index are left alone. -/
theorem child_mapMembers (hindex : ∀ token w, (parseIndex token).isSome = true → f token w = w) (v : Value)
    (token : String) : (mapMembers f v).child token = (v.child token).map fun w => f token (mapMembers f w) := by
  cases v with
  | array items =>
    rw [mapMembers_array]
    unfold child
    dsimp only
    rcases hi : parseIndex token with _ | i
    · rfl
    · have hsame : ∀ w, f token w = w := fun w => hindex token w (by rw [hi]; rfl)
      simp only [Option.bind_some, List.getElem?_map, hsame]
  | object members =>
    rw [mapMembers_object]
    exact Map.get_map members (fun key v => f key (mapMembers f v)) token
  | null | bool | number | string => rfl

end

end Value

end Json
