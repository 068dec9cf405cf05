import GeminiWorker.Proof.OutputDirective
import GeminiWorker.Spec.AiapidevRewrite

/-!
# The output directive on its way to aiapidev

Keys are renamed after the directive was taken out, and of two members that get one name the later stays.

* `get_rewriteAiapidevValue`: the member under a name is the one that was renamed to it.
* `rewritten_stripped_iff`: the body has the directive if it was between a camel-case and a snake-case level.
* `directiveStripped_iff`: no upstream gets the directive, but for these bodies.
-/

namespace GeminiWorker

open Json (Value Map)

/-! ## Renamed members -/

theorem get_foldl_insert (members : List (String × Value)) : ∀ out : Map, ∀ name,
    (members.foldl (fun out e => out.insert e.1 e.2) out).get name =
      ((members.reverse.find? fun e => e.1 == name).map (·.2)).or (out.get name) := by
  induction members with
  | nil =>
    intro out name
    rfl
  | cons e members ih =>
    intro out name
    rw [List.foldl_cons, ih, List.reverse_cons, List.find?_append, Map.get_insert]
    generalize members.reverse.find? (fun e => e.1 == name) = found
    rcases found with _ | last
    · rw [Option.none_or, Option.map_none, Option.none_or]
      by_cases hname : name = e.1
      · rw [if_pos hname, List.find?_singleton, if_pos (beq_iff_eq.mpr hname.symm)]
        rfl
      · rw [if_neg hname, List.find?_singleton, if_neg (fun h => hname (beq_iff_eq.mp h).symm)]
        rfl
    · rfl

/-- Of the members with one name the last is kept. -/
theorem get_insertAll (members : List (String × Value)) (name : String) :
    Map.get (insertAll members) name = (members.reverse.find? fun e => e.1 == name).map (·.2) := by
  rw [insertAll, get_foldl_insert, Map.get_nil, Option.or_none]

section

variable {parse : String → Option FileUrl} {externalProxyPrefix : String} {externalProxyDomains : List String}

theorem rewriteMembers_eq (path : String) (map : Map) :
    rewriteMembers parse externalProxyPrefix externalProxyDomains path map =
      map.map fun e => (rewriteAiapidevKey e.1, rewriteAiapidevValue parse externalProxyPrefix externalProxyDomains
        (path ++ "/" ++ escapeJsonPointerToken (rewriteAiapidevKey e.1)) e.2) := by
  induction map with
  | nil => rfl
  | cons e map ih =>
    rw [rewriteMembers, ih]
    rfl

/-- Whether an object has inline data, which take the place of all its members. -/
def hasInlineData (map : Map) : Bool :=
  (rewriteInlineDataPayload (fun _ => none) "" [] map).isSome

theorem hasInlineData_eq (map : Map) :
    (rewriteInlineDataPayload parse externalProxyPrefix externalProxyDomains map).isSome = hasInlineData map := by
  unfold hasInlineData rewriteInlineDataPayload
  rcases ((map.get "inlineData").or (map.get "inline_data")).bind Value.asObject with _ | inlineData
  · rfl
  · show Option.isSome (((inlineData.get "data").bind Value.asStr).bind _) =
      Option.isSome (((inlineData.get "data").bind Value.asStr).bind _)
    rcases (inlineData.get "data").bind Value.asStr with _ | data
    · rfl
    · rw [Option.bind_some, Option.bind_some]
      by_cases hurl : isHttpUrl data = true
      · rw [if_pos hurl, if_pos hurl]
        rfl
      · rw [if_neg hurl, if_neg hurl]

/-- The key and the value of the member that is kept under a name. -/
def renamedChild (name : String) (v : Value) : Option (String × Value) :=
  v.asObject.bind fun map =>
    if hasInlineData map then none else map.reverse.find? fun e => rewriteAiapidevKey e.1 == name

theorem payload_key {map : Map} {key : String} {payload : Value}
    (h : rewriteInlineDataPayload parse externalProxyPrefix externalProxyDomains map = some (key, payload)) :
    key = "file_data" ∨ key = "inline_data" := by
  unfold rewriteInlineDataPayload at h
  obtain ⟨inlineData, -, h⟩ := Option.bind_eq_some_iff.mp h
  obtain ⟨data, -, h⟩ := Option.bind_eq_some_iff.mp h
  dsimp only at h
  split at h
  · exact .inl (Prod.mk.inj (Option.some.inj h)).1.symm
  · exact .inr (Prod.mk.inj (Option.some.inj h)).1.symm

/-- **The member under a name**, outside of the contents. -/
theorem get_rewriteAiapidevValue {path : String} (hpath : Text.startsWith "/contents/" path = false) {name : String}
    (hname : name ≠ "file_data" ∧ name ≠ "inline_data") (v : Value) :
    (rewriteAiapidevValue parse externalProxyPrefix externalProxyDomains path v).get name =
      (renamedChild name v).map fun e => rewriteAiapidevValue parse externalProxyPrefix externalProxyDomains
        (path ++ "/" ++ escapeJsonPointerToken name) e.2 := by
  rcases v with _ | _ | _ | _ | items | map
  · rfl
  · rfl
  · rfl
  · rfl
  · rw [rewriteAiapidevValue]
    rfl
  · have hchild : renamedChild name (.object map) =
        if hasInlineData map then none else map.reverse.find? fun e => rewriteAiapidevKey e.1 == name := rfl
    have hdata := @hasInlineData_eq parse externalProxyPrefix externalProxyDomains map
    rw [rewriteAiapidevValue, hchild]
    rcases hpayload : rewriteInlineDataPayload parse externalProxyPrefix externalProxyDomains map with
      _ | ⟨key, payload⟩
    · rw [hpayload, Option.isSome_none] at hdata
      rw [← hdata, if_neg Bool.false_ne_true, insertionOrder, if_neg (by rw [hpath]; exact Bool.false_ne_true)]
      show Map.get (insertAll _) name = _
      rw [get_insertAll, rewriteMembers_eq, ← List.map_reverse, List.find?_map, Option.map_map]
      have hfind : map.reverse.find? ((fun e : String × Value => e.1 == name) ∘ fun e => (rewriteAiapidevKey e.1,
          rewriteAiapidevValue parse externalProxyPrefix externalProxyDomains
            (path ++ "/" ++ escapeJsonPointerToken (rewriteAiapidevKey e.1)) e.2)) =
          map.reverse.find? fun e => rewriteAiapidevKey e.1 == name := rfl
      rw [hfind]
      -- the path of the member that is found is that of the name
      apply Option.map_congr
      intro e he
      have hkey : rewriteAiapidevKey e.1 = name := by simpa using List.find?_some he
      rw [Function.comp_apply, hkey]
    · rw [hpayload, Option.isSome_some] at hdata
      rw [← hdata, if_pos rfl]
      show Map.get [(key, payload)] name = none
      have hne : name ≠ key := by
        rcases payload_key hpayload with rfl | rfl
        · exact hname.1
        · exact hname.2
      rw [Map.get_cons, if_neg hne, Map.get_nil]

/-- No member is renamed to a name in camel case. -/
theorem renamedChild_camel (v : Value) : renamedChild "generationConfig" v = none := by
  have hkey : ∀ key, rewriteAiapidevKey key ≠ "generationConfig" := by
    intro key h
    unfold rewriteAiapidevKey at h
    split_ifs at h
    · exact absurd h (by decide)
    · exact absurd h (by decide)
    · exact absurd h (by decide)
    · exact absurd h (by decide)
    · exact absurd h (by decide)
    · contradiction
  rcases v with _ | _ | _ | _ | items | map
  · rfl
  · rfl
  · rfl
  · rfl
  · rfl
  · show (if hasInlineData map then none else _) = none
    split
    · rfl
    · rw [List.find?_eq_none]
      intro e _ he
      exact hkey e.1 (beq_iff_eq.mp he)

/-- The directive is not renamed. -/
theorem rewriteAiapidevKey_output {key : String} (h : rewriteAiapidevKey key = "output") : key = "output" := by
  unfold rewriteAiapidevKey at h
  split_ifs at h
  · exact absurd h (by decide)
  · exact absurd h (by decide)
  · exact absurd h (by decide)
  · exact absurd h (by decide)
  · exact absurd h (by decide)
  · exact h

theorem renamedChild_output {v : Value} (h : v.get "output" = none) : renamedChild "output" v = none := by
  rcases v with _ | _ | _ | _ | items | map
  · rfl
  · rfl
  · rfl
  · rfl
  · rfl
  · show (if hasInlineData map then none else _) = none
    split
    · rfl
    · rw [List.find?_eq_none]
      intro e he hkey
      have hname : e.1 = "output" := rewriteAiapidevKey_output (beq_iff_eq.mp hkey)
      have habsent : "output" ∉ Map.keys map := Map.get_eq_none_iff.mp h
      exact habsent (List.mem_map.mpr ⟨e, List.mem_reverse.mp he, hname⟩)

/-- A level has two spellings. -/
theorem key_of_renamedChild {name : String} {v : Value} {e : String × Value} (h : renamedChild name v = some e) :
    rewriteAiapidevKey e.1 = name := by
  unfold renamedChild at h
  obtain ⟨map, -, h⟩ := Option.bind_eq_some_iff.mp h
  split at h
  · cases h
  · simpa using List.find?_some h

theorem distinct_of_renamedChild {name : String} {v : Value} {e : String × Value} (hv : v.Distinct)
    (h : renamedChild name v = some e) : e.2.Distinct := by
  rcases v with _ | _ | _ | _ | items | map
  · cases h
  · cases h
  · cases h
  · cases h
  · cases h
  · have hfind : (if hasInlineData map then none else map.reverse.find? fun e => rewriteAiapidevKey e.1 == name) =
        some e := h
    split at hfind
    · cases hfind
    · exact (Value.distinct_object.mp hv).2 e (List.mem_reverse.mp (List.mem_of_find?_eq_some hfind))

theorem spellings {key : String} :
    (rewriteAiapidevKey key = "generation_config" → key = "generationConfig" ∨ key = "generation_config") ∧
      (rewriteAiapidevKey key = "image_config" → key = "imageConfig" ∨ key = "image_config") := by
  unfold rewriteAiapidevKey
  split_ifs with h1 h2 h3 h4 h5
  · exact ⟨fun _ => .inl h1, fun h => absurd h (by decide)⟩
  · exact ⟨fun h => absurd h (by decide), fun _ => .inl h2⟩
  · exact ⟨fun h => absurd h (by decide), fun h => absurd h (by decide)⟩
  · exact ⟨fun h => absurd h (by decide), fun h => absurd h (by decide)⟩
  · exact ⟨fun h => absurd h (by decide), fun h => absurd h (by decide)⟩
  · exact ⟨Or.inr, Or.inr⟩

/-- What is changed at one key is changed there if that member is the one that is kept. -/
theorem renamedChild_modifyChild {token : String} (htoken : token ≠ "inlineData" ∧ token ≠ "inline_data")
    (name : String) (v : Value) (f : Value → Value) :
    renamedChild name (v.modifyChild token f) =
      (renamedChild name v).map fun e => if e.1 == token then (e.1, f e.2) else e := by
  rcases v with _ | _ | _ | _ | items | map
  · rfl
  · rfl
  · rfl
  · rfl
  · unfold Value.modifyChild
    dsimp only
    split <;> rfl
  · have hget : ∀ key, token ≠ key →
        Map.get (map.map fun m => if m.1 == token then (m.1, f m.2) else m) key = Map.get map key := by
      intro key hkey
      rw [Value.get_modify]
      rcases Map.get map key with _ | w
      · rfl
      · rw [Option.map_some, if_neg (Ne.symm hkey)]
    have hdata : hasInlineData (map.map fun m => if m.1 == token then (m.1, f m.2) else m) = hasInlineData map := by
      unfold hasInlineData rewriteInlineDataPayload
      rw [hget _ htoken.1, hget _ htoken.2]
    have hname : ((fun e : String × Value => rewriteAiapidevKey e.1 == name) ∘
        fun m => if m.1 == token then (m.1, f m.2) else m) = fun e => rewriteAiapidevKey e.1 == name := by
      funext m
      rw [Function.comp_apply]
      split <;> rfl
    show (if hasInlineData (map.map _) then none else (map.map _).reverse.find? _) =
      Option.map _ (if hasInlineData map then none else map.reverse.find? _)
    rw [hdata, ← List.map_reverse, List.find?_map, hname]
    split <;> rfl

/-! ## Where the directive is left -/

/-- A directive that was taken out at neither place: one of the levels that lead to it is written in camel
case, the other in snake case. -/
def MixedOutput (body : Value) : Prop :=
  ∃ outer config inner image,
    renamedChild "generation_config" (body.removeKey "output") = some (outer, config) ∧
    renamedChild "image_config" config = some (inner, image) ∧
    (renamedChild "output" image).isSome ∧ (outer = "generationConfig" ↔ inner = "image_config")

theorem stripOutputFields_eq (body : Value) : stripOutputFields body = stripOutputFromValue body := rfl

/-- The level below, in the spelling of the level above. -/
def sameSpelling (outer : String) : String := if outer = "generationConfig" then "imageConfig" else "image_config"

theorem sameSpelling_ne (outer : String) : sameSpelling outer ≠ "inlineData" ∧ sameSpelling outer ≠ "inline_data" := by
  unfold sameSpelling
  split <;> decide

/-- The configuration that is kept has lost the directive where it is spelled like the one above. -/
theorem renamedChild_stripped (body : Value) :
    renamedChild "generation_config" (stripOutputFields body) =
      (renamedChild "generation_config" (body.removeKey "output")).map fun e =>
        (e.1, e.2.modifyChild (sameSpelling e.1) (Value.removeKey "output")) := by
  have hstrip : stripOutputFields body =
      ((body.removeKey "output").modifyChild "generationConfig" fun v =>
        v.modifyChild "imageConfig" (Value.removeKey "output")).modifyChild "generation_config" fun v =>
          v.modifyChild "image_config" (Value.removeKey "output") := by
    rw [stripOutputFields_eq, stripOutputFromValue_eq]
    rfl
  rw [hstrip, renamedChild_modifyChild (by decide), renamedChild_modifyChild (by decide), Option.map_map]
  apply Option.map_congr
  rintro ⟨outer, config⟩ he
  rcases spellings.1 (key_of_renamedChild he) with houter | houter
  · obtain rfl : outer = "generationConfig" := houter
    rfl
  · obtain rfl : outer = "generation_config" := houter
    rfl

/-- It is taken out at neither place exactly if the two are spelled in different cases. -/
theorem ne_sameSpelling {outer inner : String}
    (houter : outer = "generationConfig" ∨ outer = "generation_config")
    (hinner : inner = "imageConfig" ∨ inner = "image_config") :
    inner ≠ sameSpelling outer ↔ (outer = "generationConfig" ↔ inner = "image_config") := by
  rcases houter with rfl | rfl
  · rcases hinner with rfl | rfl
    · decide
    · decide
  · rcases hinner with rfl | rfl
    · decide
    · decide

theorem mixedOutput_iff {body : Value} (hbody : body.Distinct) : MixedOutput body ↔
    ∃ config image, renamedChild "generation_config" (stripOutputFields body) = some config ∧
      renamedChild "image_config" config.2 = some image ∧ (renamedChild "output" image.2).isSome := by
  rw [renamedChild_stripped]
  constructor
  · rintro ⟨outer, config, inner, image, hconfig, himage, houtput, hmixed⟩
    have houter := spellings.1 (key_of_renamedChild hconfig)
    have hinner := spellings.2 (key_of_renamedChild himage)
    have hne : inner ≠ sameSpelling outer := (ne_sameSpelling houter hinner).mpr hmixed
    refine ⟨_, (inner, image), by rw [hconfig, Option.map_some], ?_, houtput⟩
    rw [renamedChild_modifyChild (sameSpelling_ne outer), himage, Option.map_some, if_neg (fun h => hne (beq_iff_eq.mp h))]
  · rintro ⟨config', image', hconfig', himage', houtput⟩
    obtain ⟨⟨outer, config⟩, hconfig, rfl⟩ := Option.map_eq_some_iff.mp hconfig'
    have houter := spellings.1 (key_of_renamedChild hconfig)
    rw [renamedChild_modifyChild (sameSpelling_ne outer), Option.map_eq_some_iff] at himage'
    obtain ⟨⟨inner, image⟩, himage, hlast⟩ := himage'
    have hinner := spellings.2 (key_of_renamedChild himage)
    by_cases hsame : inner = sameSpelling outer
    · -- there the directive was taken out
      rw [if_pos (beq_iff_eq.mpr hsame)] at hlast
      have himageDistinct : image.Distinct :=
        distinct_of_renamedChild (distinct_of_renamedChild (distinct_removeKey "output" hbody) hconfig) himage
      have hnone : renamedChild "output" (image.removeKey "output") = none := by
        apply renamedChild_output
        rw [← child_eq_get parseIndex_output, Value.child_removeKey himageDistinct parseIndex_output, if_pos rfl]
      rw [← hlast, hnone] at houtput
      cases houtput
    · rw [if_neg (fun h => hsame (beq_iff_eq.mp h))] at hlast
      obtain rfl := hlast
      exact ⟨outer, config, inner, image, hconfig, himage, houtput, (ne_sameSpelling houter hinner).mp hsame⟩

/-- **The rewritten body has the directive** exactly if it was between a camel-case and a snake-case level. -/
theorem rewritten_stripped_iff {body : Value} (hbody : body.Distinct) :
    Stripped (rewriteAiapidevRequestBody parse externalProxyPrefix externalProxyDomains body) ↔ ¬ MixedOutput body := by
  have hconfigPath : Text.startsWith "/contents/" ("" ++ "/" ++ escapeJsonPointerToken "generation_config") = false := by
    decide +kernel
  have himagePath : Text.startsWith "/contents/" ("" ++ "/" ++ escapeJsonPointerToken "generation_config" ++ "/" ++
      escapeJsonPointerToken "image_config") = false := by
    decide +kernel
  have hroot : (rewriteAiapidevRequestBody parse externalProxyPrefix externalProxyDomains body).get "output" = none := by
    have hstripped := (stripped_stripOutputFromValue hbody).root
    rw [← stripOutputFields_eq] at hstripped
    rw [rewriteAiapidevRequestBody, get_rewriteAiapidevValue (by decide +kernel) (by decide),
      renamedChild_output hstripped, Option.map_none]
  have hcamel : (rewriteAiapidevRequestBody parse externalProxyPrefix externalProxyDomains body).get
      "generationConfig" = none := by
    rw [rewriteAiapidevRequestBody, get_rewriteAiapidevValue (by decide +kernel) (by decide), renamedChild_camel,
      Option.map_none]
  rw [mixedOutput_iff hbody, stripped_iff]
  constructor
  · rintro ⟨-, -, hsnake⟩ ⟨config, image, hconfig, himage, houtput⟩
    have hvalue := hsnake _ (by
      rw [rewriteAiapidevRequestBody, get_rewriteAiapidevValue (by decide +kernel) (by decide), hconfig,
        Option.map_some]) _ (by
      rw [get_rewriteAiapidevValue hconfigPath (by decide), himage, Option.map_some])
    have hget : Value.get _ "output" = none := hvalue
    rw [get_rewriteAiapidevValue himagePath (by decide), Option.map_eq_none_iff] at hget
    rw [hget] at houtput
    cases houtput
  · intro hnot
    refine ⟨hroot, ?_, ?_⟩
    · intro w hw
      rw [hcamel] at hw
      cases hw
    · intro w hw u hu
      rw [rewriteAiapidevRequestBody, get_rewriteAiapidevValue (by decide +kernel) (by decide),
        Option.map_eq_some_iff] at hw
      obtain ⟨config, hconfig, rfl⟩ := hw
      rw [get_rewriteAiapidevValue hconfigPath (by decide), Option.map_eq_some_iff] at hu
      obtain ⟨image, himage, rfl⟩ := hu
      show Value.get _ "output" = none
      rw [get_rewriteAiapidevValue himagePath (by decide), Option.map_eq_none_iff]
      by_contra houtput
      exact hnot ⟨config, image, hconfig, himage, Option.isSome_iff_ne_none.mpr houtput⟩

end

/-! ## What the upstreams get -/

/-- A query without the directive asks for no URLs. -/
theorem queryContainsOutputUrl_filtered (query : Option (List UInt8)) :
    queryContainsOutputUrl (filterQueryWithoutOutput query) = false := by
  have hpairs := parse_filterQueryWithoutOutput query
  unfold queryContainsOutputUrl
  rw [List.any_eq_false]
  intro pair hpair hdirective
  have hmem : pair ∈ FormUrlencoded.parse ((filterQueryWithoutOutput query).getD []) := by
    generalize filterQueryWithoutOutput query = kept at hpair
    rcases kept with _ | kept
    · cases List.not_mem_nil hpair
    · exact hpair
  rw [hpairs] at hmem
  have hkept : pair.1 ≠ "output" := by simpa [isKept] using (List.mem_filter.mp hmem).2
  simp only [Bool.and_eq_true, beq_iff_eq] at hdirective
  exact hkept hdirective.1

/-- The upstream finds no directive in a body, nor is it asked for URLs by it. -/
def Forwarded (body : Value) : Prop :=
  Stripped body ∧ ∀ query, getOutputMode (filterQueryWithoutOutput query) body = .base64

theorem forwarded_iff (body : Value) : Forwarded body ↔ Stripped body :=
  ⟨fun h => h.1, fun h => ⟨h, fun query => getOutputMode_of_stripped h (queryContainsOutputUrl_filtered query)⟩⟩

/-- The directive of a body, or of a query, reaches no upstream. -/
structure DirectiveStripped (body : Value) : Prop where
  encoded : ∀ io readers pipe replacements runtime encoded runtime',
    encodeRequestBody io readers pipe body replacements runtime = .ok (encoded, runtime') →
      ∃ v, runtime'.readBytes encoded.bodyBlob = some (Json.print v) ∧ Forwarded v
  rewritten : ∀ parse externalProxyPrefix externalProxyDomains,
    Forwarded (rewriteAiapidevRequestBody parse externalProxyPrefix externalProxyDomains body)
  query : ∀ parse baseUrl path query url, upstreamUrlOf parse baseUrl path query = .ok url →
    FormUrlencoded.parse (url.query.getD []) = (FormUrlencoded.parse (query.getD [])).filter (·.1 ≠ "output")

/-- **No upstream gets the directive**, but aiapidev where it is between a camel-case and a snake-case level. -/
theorem directiveStripped_iff (body : Json.Document) : DirectiveStripped body.val ↔ ¬ MixedOutput body.val := by
  constructor
  · intro h
    have hrewritten := (forwarded_iff _).mp (h.rewritten (fun _ => none) "" [])
    exact (rewritten_stripped_iff body.property.1).mp hrewritten
  · intro hnot
    refine ⟨?_, ?_, ?_⟩
    · intro io readers pipe replacements runtime encoded runtime' hencode
      obtain ⟨v, hbytes, hstripped⟩ := encodeRequestBody_stripped body hencode
      exact ⟨v, hbytes, (forwarded_iff v).mpr hstripped⟩
    · intro parse externalProxyPrefix externalProxyDomains
      exact (forwarded_iff _).mpr ((rewritten_stripped_iff body.property.1).mpr hnot)
    · intro parse baseUrl path query url hurl
      obtain ⟨parsed, -, hquery⟩ := Except.bind_eq_ok.mp hurl
      rw [← Except.pure_eq_ok.mp hquery]
      exact parse_filterQueryWithoutOutput query

/-- A body whose configuration is written in camel case, and the image configuration in snake case. -/
def mixedBody : Json.Document :=
  ⟨.object [("generationConfig", .object [("image_config", .object [("output", .string "url")])])], by
    simp [Map.keys]⟩

/-- The rewritten body asks for URLs. -/
theorem mixedBody_forwarded : ¬ DirectiveStripped mixedBody.val := by
  intro h
  have hrewritten := (forwarded_iff _).mp (h.rewritten (fun _ => none) "" [])
  have hsome : ((rewriteAiapidevRequestBody (fun _ => none) "" [] mixedBody.val).pointer
      "/generation_config/image_config/output").isSome = true := by
    decide +kernel
  rw [hrewritten.snake] at hsome
  cases hsome

end GeminiWorker
