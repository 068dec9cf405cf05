import GeminiWorker.Lib.UrlFolder
import GeminiWorker.Spec.OutputMode

/-!
# Where forwarded requests go

The URLs of the upstream are a folder of its and a text of the client's, or of the upstream's own, that is
not encoded before it is made the path.

* `path_below_iff`: such a path stays in the folder exactly if the walk of the text does.
* `forwardedPath_confined_iff`: for the requests for an image and for the polls of a task.
-/

namespace GeminiWorker

open UrlPath

/-- The segments of a text that is put below a folder, as they are written. -/
def belowSegments (text : String) : List (List UInt8) :=
  (((Text.bytes text).filter fun b => !isSkipped b).splitOnP isSlash).map fun segment => segment.flatMap encodeByte

/-- The walk of a text never climbs out of `/v1beta/<name>/`, or enters again by these very names. -/
structure StaysBelow (name text : String) : Prop where
  version : Keeps 2 0 (Text.bytes "v1beta") (folders (belowSegments text))
  collection : Keeps 2 1 (Text.bytes name) (folders (belowSegments text))

/-- A name that is written as it is. -/
structure PlainName (name : String) : Prop where
  written : segments (Text.bytes ("/v1beta/" ++ name)) = [Text.bytes "v1beta", Text.bytes name]
  joined : join [Text.bytes "v1beta", Text.bytes name] = Text.bytes ("/v1beta/" ++ name)
  slash : ∀ s ∈ [Text.bytes "v1beta", Text.bytes name], 47 ∉ s
  dot : ∀ s ∈ [Text.bytes "v1beta", Text.bytes name], isDot s = false

theorem plainName_models : PlainName "models" :=
  ⟨by decide +kernel, by decide +kernel, by decide +kernel, by decide +kernel⟩

theorem plainName_tasks : PlainName "tasks" :=
  ⟨by decide +kernel, by decide +kernel, by decide +kernel, by decide +kernel⟩

section

variable {name text : String}

theorem belowSegments_ne_nil (text : String) : belowSegments text ≠ [] := by
  rw [belowSegments, ne_eq, List.map_eq_nil_iff]
  exact List.splitOnP_ne_nil _ _

theorem bytes_below (name text : String) :
    Text.bytes ("/v1beta/" ++ name ++ "/" ++ text) = Text.bytes ("/v1beta/" ++ name) ++ 47 :: Text.bytes text := by
  rw [Text.bytes_append, Text.bytes_append _ "/", List.append_assoc]
  rfl

theorem segments_below (hname : PlainName name) : segments (Text.bytes ("/v1beta/" ++ name ++ "/" ++ text)) =
    [Text.bytes "v1beta", Text.bytes name] ++ belowSegments text := by
  have hkept : (Text.bytes ("/v1beta/" ++ name)).filter (fun b => !isSkipped b) ≠ [] := by
    have hroot : Text.bytes ("/v1beta/" ++ name) = 47 :: Text.bytes ("v1beta/" ++ name) := by
      rw [Text.bytes_append, Text.bytes_append]
      rfl
    rw [hroot, List.filter_cons_of_pos (by decide)]
    exact List.cons_ne_nil _ _
  rw [bytes_below, segments_append hkept, hname.written]
  rfl

/-- **A path stays in a folder exactly if the walk of the text below it does.** -/
theorem path_below_iff (hname : PlainName name) :
    Text.bytes ("/v1beta/" ++ name ++ "/") <+: parsePath (Text.bytes ("/v1beta/" ++ name ++ "/" ++ text)) ↔
      StaysBelow name text := by
  have hfolder : Text.bytes ("/v1beta/" ++ name ++ "/") = join [Text.bytes "v1beta", Text.bytes name] ++ [47] := by
    rw [hname.joined, Text.bytes_append]
    rfl
  have hslash : ∀ s ∈ belowSegments text, 47 ∉ s := by
    intro s hs
    have hmem : s ∈ segments (Text.bytes ("/v1beta/" ++ name ++ "/" ++ text)) := by
      rw [segments_below hname]
      exact List.mem_append_right _ hs
    exact slash_notMem_segment hmem
  rw [hfolder, parsePath, segments_below hname,
    below_iff (List.cons_ne_nil _ _) hname.dot hname.slash (belowSegments_ne_nil text) hslash]
  constructor
  · exact fun h => ⟨h 0 _ rfl, h 1 _ rfl⟩
  · rintro ⟨hversion, hcollection⟩ level segment hsegment
    rcases level with _ | _ | level
    · obtain rfl := Option.some.inj hsegment
      exact hversion
    · obtain rfl := Option.some.inj hsegment
      exact hcollection
    · cases hsegment

/-- An ending that is written as it is. -/
structure PlainEnding (ending : String) : Prop where
  kept : (Text.bytes ending).filter (fun b => !isSkipped b) = Text.bytes ending
  slash : ∀ b ∈ Text.bytes ending, isSlash b = false
  encoded : (Text.bytes ending).flatMap encodeByte = Text.bytes ending
  long : 6 < (Text.bytes ending).length

theorem plainEnding_generateContent : PlainEnding ":generateContent" :=
  ⟨by decide +kernel, by decide +kernel, by decide +kernel, by decide +kernel⟩

/-- The ending of the text stays the ending of the path, dot segments or not. -/
theorem ending_suffix_parsePath {ending : String} (hname : PlainName name) (hending : PlainEnding ending)
    (htext : Text.endsWith ending text = true) :
    Text.bytes ending <:+ parsePath (Text.bytes ("/v1beta/" ++ name ++ "/" ++ text)) := by
  obtain ⟨front, hfront⟩ := List.isSuffixOf_iff_suffix.mp htext
  have hbytes : Text.bytes text = Text.bytes (String.ofList front) ++ Text.bytes ending := by
    rw [← Text.bytes_append]
    congr 1
    rw [← String.toList_inj, String.toList_append, String.toList_ofList, hfront]
  obtain ⟨last, hlast, hsuffix⟩ := @suffix_getLast_splitOnP isSlash
    ((Text.bytes (String.ofList front)).filter fun b => !isSkipped b) _ hending.slash
  have hlastSegment : (belowSegments text).getLast? = some (last.flatMap encodeByte) := by
    rw [belowSegments, hbytes, List.filter_append, hending.kept, List.getLast?_map, hlast]
    rfl
  have hwritten : Text.bytes ending <:+ last.flatMap encodeByte := by
    obtain ⟨before, rfl⟩ := hsuffix
    rw [List.flatMap_append, hending.encoded]
    exact List.suffix_append ..
  -- a dot segment is shorter
  have hplain : isDot (last.flatMap encodeByte) = false := by
    rw [Bool.eq_false_iff]
    intro hdot
    have hshort : ∀ dot ∈ dotSegments, dot.length ≤ 6 := by decide
    have hlength := hshort _ ((isDot_iff _).mp hdot)
    have hlong := hending.long
    have hle := hwritten.length_le
    omega
  rw [parsePath, segments_below hname]
  have hsegmentLast : ([Text.bytes "v1beta", Text.bytes name] ++ belowSegments text).getLast?.getD [] =
      last.flatMap encodeByte := by
    rw [List.getLast?_append_of_ne_nil _ (belowSegments_ne_nil text), hlastSegment]
    rfl
  have hfile : fileName ([Text.bytes "v1beta", Text.bytes name] ++ belowSegments text) = last.flatMap encodeByte := by
    rw [fileName, hsegmentLast, if_neg (Bool.eq_false_iff.mp hplain)]
  rw [← hfile] at hwritten
  exact hwritten.trans (fileName_suffix (List.cons_ne_nil _ _))

end

section

variable (parse : String → Except String Url) (baseUrl : String)

/-- A request for an image goes to an action of a model. -/
def ModelPathConfined (rest : String) (query : Option (List UInt8)) : Prop :=
  ∃ url, upstreamUrlOf parse baseUrl (Text.bytes ("/v1beta/models/" ++ rest)) query = .ok url ∧
    Text.bytes "/v1beta/models/" <+: url.path ∧ Text.bytes ":generateContent" <:+ url.path

/-- A poll goes to a task. -/
def TaskPathConfined (requestId : String) : Prop :=
  ∃ url, upstreamUrlOf parse baseUrl (Text.bytes ("/v1beta/tasks/" ++ requestId)) none = .ok url ∧
    Text.bytes "/v1beta/tasks/" <+: url.path

end

variable {parse : String → Except String Url} {baseUrl : String}

theorem upstreamUrlOf_path {base : Url} (hbase : parse baseUrl = .ok base) (path : List UInt8)
    (query : Option (List UInt8)) : ∃ url, upstreamUrlOf parse baseUrl path query = .ok url ∧ url.path = parsePath path := by
  refine ⟨(base.setPath path).setQuery (filterQueryWithoutOutput query), ?_, rfl⟩
  rw [upstreamUrlOf, hbase]
  rfl

/-- **Forwarded requests stay where they belong exactly if the text in their path does.** -/
theorem forwardedPath_confined_iff {rest requestId : String} {query : Option (List UInt8)}
    (hbase : ∃ base, parse baseUrl = .ok base ∧ base.isHttp = true)
    (hrest : Text.endsWith ":generateContent" rest = true) :
    (ModelPathConfined parse baseUrl rest query ↔ StaysBelow "models" rest) ∧
      (TaskPathConfined parse baseUrl requestId ↔ StaysBelow "tasks" requestId) := by
  obtain ⟨base, hbase, -⟩ := hbase
  constructor
  · obtain ⟨url, hurl, hpath⟩ := upstreamUrlOf_path hbase (Text.bytes ("/v1beta/models/" ++ rest)) query
    have hmodels : "/v1beta/" ++ "models" ++ "/" = "/v1beta/models/" := by decide
    have hending := ending_suffix_parsePath plainName_models plainEnding_generateContent hrest
    have hbelow := @path_below_iff "models" rest plainName_models
    rw [hmodels] at hending hbelow
    constructor
    · rintro ⟨url', hurl', hfolder, -⟩
      obtain rfl := Except.ok.inj (hurl.symm.trans hurl')
      rw [hpath] at hfolder
      exact hbelow.mp hfolder
    · intro h
      refine ⟨url, hurl, ?_, ?_⟩
      · rw [hpath]
        exact hbelow.mpr h
      · rw [hpath]
        exact hending
  · obtain ⟨url, hurl, hpath⟩ := upstreamUrlOf_path hbase (Text.bytes ("/v1beta/tasks/" ++ requestId)) none
    have htasks : "/v1beta/" ++ "tasks" ++ "/" = "/v1beta/tasks/" := by decide
    have hbelow := @path_below_iff "tasks" requestId plainName_tasks
    rw [htasks] at hbelow
    constructor
    · rintro ⟨url', hurl', hfolder⟩
      obtain rfl := Except.ok.inj (hurl.symm.trans hurl')
      rw [hpath] at hfolder
      exact hbelow.mp hfolder
    · intro h
      refine ⟨url, hurl, ?_⟩
      rw [hpath]
      exact hbelow.mpr h

/-- The base URL of an upstream. -/
def upstreamBase : Url where
  scheme := "https"
  hostStr := some "api.example.com"
  port := none
  path := [47]
  query := none
  rooted := fun _ => rfl
  written := fun _ b hb => by rw [List.mem_singleton.mp hb]; decide

theorem forwardedPath_confined_iff_example :
    ModelPathConfined (fun _ => .ok upstreamBase) "https://api.example.com" "gemini:generateContent" none ∧
      TaskPathConfined (fun _ => .ok upstreamBase) "https://api.example.com" "task 1?" := by
  have hfolders : folders (belowSegments "gemini:generateContent") = [] := by decide +kernel
  have hfoldersTask : folders (belowSegments "task 1?") = [] := by decide +kernel
  have hempty (level : ℕ) (hlevel : level < 2) (name : List UInt8) : Keeps 2 level name [] :=
    .inl fun walked hwalked => by
      rw [List.prefix_nil.mp hwalked]
      exact hlevel
  obtain ⟨hmodel, htask⟩ := @forwardedPath_confined_iff (fun _ => .ok upstreamBase) "https://api.example.com"
    "gemini:generateContent" "task 1?" none ⟨upstreamBase, rfl, by decide⟩ (by decide +kernel)
  refine ⟨hmodel.mpr ⟨?_, ?_⟩, htask.mpr ⟨?_, ?_⟩⟩
  · exact hfolders ▸ hempty 0 (by decide) _
  · exact hfolders ▸ hempty 1 (by decide) _
  · exact hfoldersTask ▸ hempty 0 (by decide) _
  · exact hfoldersTask ▸ hempty 1 (by decide) _

/-- A remainder with dot segments leaves the folder of the models. -/
theorem modelPath_escapes : ¬ ∀ (parse : String → Except String Url) (baseUrl rest requestId : String)
    (query : Option (List UInt8)), (∃ base, parse baseUrl = .ok base ∧ base.isHttp = true) →
    Text.endsWith ":generateContent" rest = true →
    ModelPathConfined parse baseUrl rest query ∧ TaskPathConfined parse baseUrl requestId := by
  intro h
  obtain ⟨⟨url, hurl, hfolder, -⟩, -⟩ := h (fun _ => .ok upstreamBase) "https://api.example.com"
    "../../x:generateContent" "task" none ⟨upstreamBase, rfl, by decide⟩ (by decide +kernel)
  obtain ⟨url', hurl', hpath⟩ := @upstreamUrlOf_path (fun _ => .ok upstreamBase) "https://api.example.com" _ rfl
    (Text.bytes ("/v1beta/models/" ++ "../../x:generateContent")) none
  obtain rfl := Except.ok.inj (hurl.symm.trans hurl')
  rw [hpath] at hfolder
  revert hfolder
  decide +kernel

end GeminiWorker
