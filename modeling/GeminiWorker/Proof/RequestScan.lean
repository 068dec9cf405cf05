import GeminiWorker.Proof.RequestEncode
import GeminiWorker.Spec.RequestImages
import Mathlib.Data.List.Perm.Basic

/-!
# The scanner finds every image

* `mem_imageNodes_object`, `mem_imageNodes_array`: where an image can be.
* `nodup_imageNodes`: no two images share a path.
* `scanRequestImageUrls_eq`: the scanner lists the images, or fails past seven.
-/

namespace GeminiWorker

open Json (Value Map)

/-! ## The images of a value -/

theorem mem_imageNodesItems {items : List Value} {path : List String} {url : String} :
    ∀ {index : ℕ}, (path, url) ∈ imageNodesItems index items ↔
      ∃ (i : ℕ) (v : Value) (rest : List String), items[i]? = some v ∧ (rest, url) ∈ imageNodes v ∧
        path = toString (index + i) :: rest := by
  induction items with
  | nil => intro index; simp [imageNodesItems]
  | cons v vs ih =>
    intro index
    unfold imageNodesItems
    rw [List.mem_append, ih]
    constructor
    · rintro (h | ⟨i, w, rest, hw, hmem, rfl⟩)
      · obtain ⟨⟨rest, u⟩, hmem, heq⟩ := List.mem_map.1 h
        obtain ⟨rfl, rfl⟩ := Prod.mk.inj heq
        exact ⟨0, v, rest, rfl, hmem, rfl⟩
      · exact ⟨i + 1, w, rest, hw, hmem, by rw [Nat.add_right_comm, Nat.add_assoc]⟩
    · rintro ⟨i, w, rest, hw, hmem, rfl⟩
      cases i with
      | zero =>
        obtain rfl := Option.some.inj hw
        exact Or.inl (List.mem_map.2 ⟨_, hmem, rfl⟩)
      | succ i =>
        exact Or.inr ⟨i, w, rest, hw, hmem, by rw [Nat.add_right_comm, Nat.add_assoc]⟩

theorem mem_imageNodesMembers {members : Map} {path : List String} {url : String} :
    (path, url) ∈ imageNodesMembers members ↔
      ∃ m ∈ members, (imageUrlUnder m.1 m.2 = some url ∧ path = [m.1]) ∨
        ∃ rest, (rest, url) ∈ imageNodes m.2 ∧ path = m.1 :: rest := by
  induction members with
  | nil => simp [imageNodesMembers]
  | cons m ms ih =>
    obtain ⟨key, v⟩ := m
    unfold imageNodesMembers
    rw [List.mem_append, List.mem_append, ih, List.exists_mem_cons_iff]
    apply or_congr_left
    apply or_congr
    · rw [List.mem_map]
      constructor
      · rintro ⟨u, hu, heq⟩
        obtain ⟨rfl, rfl⟩ := Prod.mk.inj heq
        exact ⟨Option.mem_toList.1 hu, rfl⟩
      · rintro ⟨hu, rfl⟩
        exact ⟨url, Option.mem_toList.2 hu, rfl⟩
    · rw [List.mem_map]
      constructor
      · rintro ⟨⟨rest, u⟩, hmem, heq⟩
        obtain ⟨rfl, rfl⟩ := Prod.mk.inj heq
        exact ⟨rest, hmem, rfl⟩
      · rintro ⟨rest, hmem, rfl⟩
        exact ⟨_, hmem, rfl⟩

theorem nil_notMem_imageNodes (v : Value) (url : String) : ([], url) ∉ imageNodes v := by
  cases v with
  | array items =>
    intro h
    obtain ⟨i, w, rest, -, -, hpath⟩ := mem_imageNodesItems.1 h
    cases hpath
  | object members =>
    intro h
    obtain ⟨m, -, ⟨-, hpath⟩ | ⟨rest, -, hpath⟩⟩ := mem_imageNodesMembers.1 h <;> cases hpath
  | null | bool | number | string => simp [imageNodes]

/-- **An image of an array** is an image of one of its items. -/
theorem mem_imageNodes_array {items : List Value} {token : String} {rest : List String}
    {url : String} : (token :: rest, url) ∈ imageNodes (.array items) ↔
      ∃ (i : ℕ) (v : Value), items[i]? = some v ∧ token = toString i ∧ (rest, url) ∈ imageNodes v := by
  have hunfold : imageNodes (.array items) = imageNodesItems 0 items := rfl
  rw [hunfold, mem_imageNodesItems]
  constructor
  · rintro ⟨i, v, rest', hv, hmem, heq⟩
    obtain ⟨rfl, rfl⟩ := List.cons.inj heq
    exact ⟨i, v, hv, by rw [Nat.zero_add], hmem⟩
  · rintro ⟨i, v, hv, rfl, hmem⟩
    exact ⟨i, v, rest, hv, hmem, by rw [Nat.zero_add]⟩

/-- **An image of an object** is one of its members or an image of one of them. -/
theorem mem_imageNodes_object {members : Map} (hkeys : members.keys.Nodup) {key : String}
    {rest : List String} {url : String} : (key :: rest, url) ∈ imageNodes (.object members) ↔
      ∃ v, members.get key = some v ∧
        ((rest = [] ∧ imageUrlUnder key v = some url) ∨ (rest, url) ∈ imageNodes v) := by
  have hunfold : imageNodes (.object members) = imageNodesMembers members := rfl
  rw [hunfold, mem_imageNodesMembers]
  constructor
  · rintro ⟨⟨k, v⟩, hm, ⟨hurl, heq⟩ | ⟨rest', hmem, heq⟩⟩
    · obtain ⟨rfl, rfl⟩ := List.cons.inj heq
      exact ⟨v, (Map.get_eq_some_iff hkeys).2 hm, Or.inl ⟨rfl, hurl⟩⟩
    · obtain ⟨rfl, rfl⟩ := List.cons.inj heq
      exact ⟨v, (Map.get_eq_some_iff hkeys).2 hm, Or.inr hmem⟩
  · rintro ⟨v, hget, ⟨rfl, hurl⟩ | hmem⟩
    · exact ⟨(key, v), Map.mem_of_get hget, Or.inl ⟨hurl, rfl⟩⟩
    · exact ⟨(key, v), Map.mem_of_get hget, Or.inr ⟨rest, hmem, rfl⟩⟩

theorem nodup_map_cons_fst {nodes : List (List String × String)} (token : String)
    (h : (nodes.map Prod.fst).Nodup) :
    ((nodes.map fun n => (token :: n.1, n.2)).map Prod.fst).Nodup := by
  have hfst : (nodes.map fun n => (token :: n.1, n.2)).map Prod.fst =
      (nodes.map Prod.fst).map (token :: ·) := by
    simp [List.map_map, Function.comp_def]
  rw [hfst]
  exact h.map fun a b hab => (List.cons.inj hab).2

/-- **No two images share a path.** -/
theorem nodup_imageNodes {v : Value} : v.Distinct → ((imageNodes v).map Prod.fst).Nodup := by
  induction v using Value.induction with
  | null | bool | number | string => intro _; exact List.nodup_nil
  | array items ih =>
    intro hdistinct
    rw [Value.distinct_array] at hdistinct
    have hitems : ∀ index, ((imageNodesItems index items).map Prod.fst).Nodup := by
      induction items with
      | nil => intro index; exact List.nodup_nil
      | cons v vs ihs =>
        intro index
        unfold imageNodesItems
        rw [List.map_append, List.nodup_append]
        refine ⟨nodup_map_cons_fst _ (ih v (List.mem_cons_self ..) (hdistinct v (List.mem_cons_self ..))),
          ihs (fun w hw => ih w (List.mem_cons_of_mem _ hw))
            (fun w hw => hdistinct w (List.mem_cons_of_mem _ hw)) _, ?_⟩
        -- the index tells the items apart
        rintro path hpath path' hpath' rfl
        obtain ⟨n, hn, rfl⟩ := List.mem_map.1 hpath
        obtain ⟨n', hn', heq⟩ := List.mem_map.1 hpath'
        obtain ⟨m, -, rfl⟩ := List.mem_map.1 hn
        obtain ⟨i, w, rest, -, -, hrest⟩ := mem_imageNodesItems.1 (show (n'.1, n'.2) ∈ _ from hn')
        have hindex := (List.cons.inj (heq.symm.trans hrest)).1
        have := Nat.repr_injective hindex
        omega
    exact hitems 0
  | object members ih =>
    intro hdistinct
    rw [Value.distinct_object] at hdistinct
    obtain ⟨hkeys, hmembers⟩ := hdistinct
    have hnodes : ((imageNodesMembers members).map Prod.fst).Nodup := by
      induction members with
      | nil => exact List.nodup_nil
      | cons m ms ihs =>
        obtain ⟨key, v⟩ := m
        obtain ⟨hkey, hkeys⟩ := List.nodup_cons.1 hkeys
        unfold imageNodesMembers
        rw [List.map_append, List.map_append, List.nodup_append, List.nodup_append]
        refine ⟨⟨?_, nodup_map_cons_fst _ (ih (key, v) (List.mem_cons_self ..)
            (hmembers (key, v) (List.mem_cons_self ..))), ?_⟩,
          ihs (fun w hw => ih w (List.mem_cons_of_mem _ hw)) hkeys
            (fun w hw => hmembers w (List.mem_cons_of_mem _ hw)), ?_⟩
        · cases imageUrlUnder key v <;> simp
        · -- an image inside the member has a longer path than the member
          rintro path hpath path' hpath' rfl
          obtain ⟨n, hn, rfl⟩ := List.mem_map.1 hpath
          obtain ⟨u, -, rfl⟩ := List.mem_map.1 hn
          obtain ⟨n', hn', heq⟩ := List.mem_map.1 hpath'
          obtain ⟨⟨rest, u'⟩, hmem, rfl⟩ := List.mem_map.1 hn'
          obtain rfl := (List.cons.inj heq).2
          exact nil_notMem_imageNodes v u' hmem
        · -- the key tells the members apart
          rintro path hpath path' hpath' rfl
          obtain ⟨n', hn', heq⟩ := List.mem_map.1 hpath'
          obtain ⟨m', hm', hrest⟩ := mem_imageNodesMembers.1 (show (n'.1, n'.2) ∈ _ from hn')
          have hhead' : path.head? = some m'.1 := by
            rcases hrest with ⟨-, hrest⟩ | ⟨rest, -, hrest⟩ <;> rw [← heq, hrest] <;> rfl
          have hhead : path.head? = some key := by
            rw [List.mem_append] at hpath
            rcases hpath with h | h
            · obtain ⟨n, hn, rfl⟩ := List.mem_map.1 h
              obtain ⟨u, -, rfl⟩ := List.mem_map.1 hn
              rfl
            · obtain ⟨n, hn, rfl⟩ := List.mem_map.1 h
              obtain ⟨u, -, rfl⟩ := List.mem_map.1 hn
              rfl
          obtain rfl := Option.some.inj (hhead.symm.trans hhead')
          exact hkey (List.mem_map.2 ⟨m', hm', rfl⟩)
    exact hnodes

/-! ## The scanner -/

mutual
/-- The images in the order the scanner meets them: the one of an object before those
inside its members. -/
def scanOrder : Value → List (List String × String)
  | .array items => scanOrderItems 0 items
  | .object members =>
    ((Map.get members "inlineData").bind imageUrl).toList.map (fun url => (["inlineData"], url)) ++
      scanOrderMembers members
  | _ => []
def scanOrderItems (index : ℕ) : List Value → List (List String × String)
  | [] => []
  | v :: vs =>
    (scanOrder v).map (fun n => (toString index :: n.1, n.2)) ++ scanOrderItems (index + 1) vs
def scanOrderMembers : List (String × Value) → List (List String × String)
  | [] => []
  | (key, v) :: members =>
    (scanOrder v).map (fun n => (key :: n.1, n.2)) ++ scanOrderMembers members
end

/-- The image of the member `inlineData`, seen from the members. -/
theorem flatMap_imageUrlUnder {members : Map} (hkeys : members.keys.Nodup) :
    (members.flatMap fun m => (imageUrlUnder m.1 m.2).toList.map fun url => ([m.1], url)) =
      ((Map.get members "inlineData").bind imageUrl).toList.map fun url => (["inlineData"], url) := by
  induction members with
  | nil => rfl
  | cons m ms ih =>
    obtain ⟨key, v⟩ := m
    obtain ⟨hkey, hkeys⟩ := List.nodup_cons.1 hkeys
    rw [List.flatMap_cons, ih hkeys, Map.get_cons]
    by_cases hk : key = "inlineData"
    · subst hk
      rw [Map.get_eq_none_iff.2 hkey]
      simp [imageUrlUnder]
    · rw [if_neg (Ne.symm hk)]
      simp [imageUrlUnder, hk]

theorem imageNodesMembers_eq (members : Map) : imageNodesMembers members =
    members.flatMap fun m => (imageUrlUnder m.1 m.2).toList.map (fun url => ([m.1], url)) ++
      (imageNodes m.2).map fun n => (m.1 :: n.1, n.2) := by
  induction members with
  | nil => rfl
  | cons m ms ih => rw [imageNodesMembers, ih]; rfl

theorem scanOrderMembers_eq (members : Map) : scanOrderMembers members =
    members.flatMap fun m => (scanOrder m.2).map fun n => (m.1 :: n.1, n.2) := by
  induction members with
  | nil => rfl
  | cons m ms ih => rw [scanOrderMembers, ih]; rfl

/-- **The scanner meets every image once.** -/
theorem scanOrder_perm {v : Value} : v.Distinct → (scanOrder v).Perm (imageNodes v) := by
  induction v using Value.induction with
  | null | bool | number | string => intro _; exact List.Perm.nil
  | array items ih =>
    intro hdistinct
    rw [Value.distinct_array] at hdistinct
    have hitems : ∀ index, (scanOrderItems index items).Perm (imageNodesItems index items) := by
      induction items with
      | nil => intro index; exact List.Perm.nil
      | cons v vs ihs =>
        intro index
        have hv := ih v (List.mem_cons_self ..) (hdistinct v (List.mem_cons_self ..))
        exact (hv.map _).append (ihs (fun w hw => ih w (List.mem_cons_of_mem _ hw))
          (fun w hw => hdistinct w (List.mem_cons_of_mem _ hw)) _)
    exact hitems 0
  | object members ih =>
    intro hdistinct
    rw [Value.distinct_object] at hdistinct
    have hmembers : (scanOrderMembers members).Perm
        (members.flatMap fun m => (imageNodes m.2).map fun n => (m.1 :: n.1, n.2)) := by
      rw [scanOrderMembers_eq]
      exact List.Perm.flatMap_left _ fun m hm => (ih m hm (hdistinct.2 m hm)).map _
    have hunfold : imageNodes (.object members) = imageNodesMembers members := rfl
    unfold scanOrder
    rw [hunfold, imageNodesMembers_eq, ← flatMap_imageUrlUnder hdistinct.1]
    exact (hmembers.append_left _).trans (List.flatMap_append_perm ..)

/-- A scanned image, seen from a path. -/
def refAt (path : List String) (n : List String × String) : RequestImageRef :=
  ⟨Json.Pointer.format (path ++ n.1), n.2⟩

theorem refAt_shift (path : List String) (token : String) (n : List String × String) :
    refAt path (token :: n.1, n.2) = refAt (path ++ [token]) n := by
  simp [refAt]

/-- What the scan does with the images below a node: it adds them, or fails past seven. -/
def ScanResult (path : List String) (found : List RequestImageRef)
    (nodes : List (List String × String)) : Except ScanError (List RequestImageRef) :=
  if found.length + nodes.length ≤ maxInlineDataUrls then .ok (found ++ nodes.map (refAt path))
  else .error .tooManyInlineDataUrls

theorem scanResult_nil {path : List String} {found : List RequestImageRef}
    (h : found.length ≤ maxInlineDataUrls) : ScanResult path found [] = .ok found := by
  unfold ScanResult
  rw [if_pos (by simpa using h), List.map_nil, List.append_nil]

/-- Scanning one child and then the others. -/
theorem scanResult_bind {path : List String} {token : String} {found : List RequestImageRef}
    {nodes others : List (List String × String)}
    {rest : List RequestImageRef → Except ScanError (List RequestImageRef)}
    (h : ∀ found', found'.length ≤ maxInlineDataUrls → rest found' = ScanResult path found' others) :
    (ScanResult (path ++ [token]) found nodes >>= rest) =
      ScanResult path found (nodes.map (fun n => (token :: n.1, n.2)) ++ others) := by
  unfold ScanResult
  by_cases hfits : found.length + nodes.length ≤ maxInlineDataUrls
  · rw [if_pos hfits]
    have hrest := h (found ++ nodes.map (refAt (path ++ [token]))) (by simpa using hfits)
    simp only [bind, Except.bind, hrest, ScanResult]
    simp [Nat.add_assoc, refAt_shift, Function.comp_def]
  · rw [if_neg hfits, if_neg]
    · rfl
    · simp only [List.length_append, List.length_map]
      omega

/-- What the scan does from a node on. -/
def ScanOK (v : Value) : Prop :=
  ∀ (path : List String) (found : List RequestImageRef), found.length ≤ maxInlineDataUrls →
    walk v (Json.Pointer.format path) found = ScanResult path found (scanOrder v)

theorem walkItems_eq {items : List Value} (hitems : ∀ v ∈ items, ScanOK v) (path : List String) :
    ∀ (index : ℕ) (found : List RequestImageRef), found.length ≤ maxInlineDataUrls →
      walkItems index items (Json.Pointer.format path) found =
        ScanResult path found (scanOrderItems index items) := by
  induction items with
  | nil => intro index found hfound; exact (scanResult_nil hfound).symm
  | cons v vs ih =>
    intro index found hfound
    unfold walkItems scanOrderItems
    rw [format_index, hitems v (List.mem_cons_self ..) _ _ hfound]
    exact scanResult_bind (ih (fun w hw => hitems w (List.mem_cons_of_mem _ hw)) _)

theorem walkMembers_eq {members : Map} (hmembers : ∀ m ∈ members, ScanOK m.2) (path : List String) :
    ∀ found : List RequestImageRef, found.length ≤ maxInlineDataUrls →
      walkMembers members (Json.Pointer.format path) found =
        ScanResult path found (scanOrderMembers members) := by
  induction members with
  | nil => intro found hfound; exact (scanResult_nil hfound).symm
  | cons m ms ih =>
    intro found hfound
    obtain ⟨key, v⟩ := m
    have hv : ScanOK v := hmembers (key, v) (List.mem_cons_self ..)
    unfold walkMembers scanOrderMembers
    rw [escapeJsonPointerToken_eq, ← Json.Pointer.format_append, hv _ _ hfound]
    exact scanResult_bind (ih fun w hw => hmembers w (List.mem_cons_of_mem _ hw))

/-- **The scan, from any node on.** -/
theorem scanOK (v : Value) : ScanOK v := by
  induction v using Value.induction with
  | null | bool | number | string => intro path found hfound; exact (scanResult_nil hfound).symm
  | array items ih => intro path found hfound; exact walkItems_eq ih path 0 found hfound
  | object members ih =>
    intro path found hfound
    have hmembers := walkMembers_eq ih path
    unfold walk scanOrder
    cases hdirect : (Map.get members "inlineData").bind imageUrl with
    | none => exact hmembers found hfound
    | some url =>
      have hpointer : Json.Pointer.format path ++ "/inlineData" =
          Json.Pointer.format (path ++ ["inlineData"]) := by
        have hescape : Json.Pointer.escape "inlineData" = "inlineData" := by decide
        rw [Json.Pointer.format_append, hescape, String.append_assoc]
        rfl
      dsimp only
      rw [hpointer]
      unfold ScanResult
      simp only [Option.toList_some, List.map_cons, List.map_nil, List.cons_append, List.nil_append,
        List.length_cons]
      split
      · -- the eighth image
        rename_i hfull
        rw [List.length_append, List.length_singleton] at hfull
        rw [if_neg (by omega)]
      · rename_i hfits
        rw [List.length_append, List.length_singleton] at hfits
        rw [hmembers _ (by simp; omega)]
        unfold ScanResult
        simp [refAt, Nat.add_assoc, Nat.add_comm 1]

theorem scanRequestImageUrls_eq (body : Value) :
    scanRequestImageUrls body =
      if (scanOrder body).length ≤ maxInlineDataUrls then .ok ((scanOrder body).map (refAt []))
      else .error .tooManyInlineDataUrls := by
  have hscan := scanOK body [] [] (Nat.zero_le _)
  have hroot : Json.Pointer.format [] = "" := rfl
  unfold ScanResult at hscan
  rw [hroot] at hscan
  simpa [scanRequestImageUrls] using hscan

end GeminiWorker
