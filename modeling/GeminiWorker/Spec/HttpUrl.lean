import GeminiWorker.Lib.UrlPath
import GeminiWorker.Spec.Url

/-!
# URLs that requests are made of

What the proxy changes of a parsed URL, and what the client sends of it. The path and the query are
kept as they are written, which is in ASCII.
-/

namespace GeminiWorker

/-- The parts of `url::Url` that a request is made of. -/
structure Url extends ParsedUrl where
  /-- A port that is not the default of the scheme. -/
  port : Option ℕ
  path : List UInt8
  query : Option (List UInt8)
  /-- The parser writes the root slash, -/
  rooted : toParsedUrl.isHttp = true → path.head? = some 47
  /-- and skips tabs and newlines. -/
  written : toParsedUrl.isHttp = true → ∀ b ∈ path, UrlPath.isSkipped b = false

namespace Url

theorem head?_parsePath (text : List UInt8) : (UrlPath.parsePath text).head? = some 47 := rfl

theorem isSkipped_of_mem_join {path : List (List UInt8)}
    (h : ∀ segment ∈ path, ∀ b ∈ segment, UrlPath.isSkipped b = false) :
    ∀ b ∈ UrlPath.join path, UrlPath.isSkipped b = false := by
  have hintercalate : ∀ b ∈ [47].intercalate path, UrlPath.isSkipped b = false := by
    induction path with
    | nil =>
      intro b hb
      cases hb
    | cons segment path ih =>
      have hsegment := h segment (List.mem_cons_self ..)
      have hrest := ih fun s hs => h s (List.mem_cons_of_mem _ hs)
      rcases path with _ | ⟨next, path⟩
      · rwa [List.intercalate_singleton]
      · rw [List.intercalate_cons_cons]
        intro b hb
        rcases List.mem_append.mp hb with hb | hb
        · rcases List.mem_append.mp hb with hb | hb
          · exact hsegment b hb
          · rw [List.mem_singleton.mp hb]
            decide
        · exact hrest b hb
  intro b hb
  rcases List.mem_cons.mp hb with rfl | hb
  · decide
  · exact hintercalate b hb

theorem isSkipped_encodeByte {b c : UInt8} (hc : c ∈ UrlPath.encodeByte b) : UrlPath.isSkipped c = false := by
  have hall : ∀ b : UInt8, (UrlPath.encodeByte b).all (fun c => UrlPath.isSkipped c = false) = true := by
    intro b
    apply FormUrlencoded.forall_byte _ b
    decide +kernel
  exact of_decide_eq_true (List.all_eq_true.mp (hall b) c hc)

theorem isSkipped_parsePath (text : List UInt8) : ∀ b ∈ UrlPath.parsePath text, UrlPath.isSkipped b = false := by
  apply isSkipped_of_mem_join
  intro segment hsegment b hb
  rcases UrlPath.mem_resolve hsegment with rfl | hsegment
  · cases hb
  · obtain ⟨text, -, rfl⟩ := List.mem_map.mp hsegment
    obtain ⟨c, -, hb⟩ := List.mem_flatMap.mp hb
    exact isSkipped_encodeByte hb

/-- `Url::set_path`, of a URL with a special scheme. -/
def setPath (url : Url) (path : List UInt8) : Url :=
  { url with
    path := UrlPath.parsePath path
    rooted := fun _ => head?_parsePath path
    written := fun _ => isSkipped_parsePath path }

/-- `Url::set_query`, for a query that needs no encoding. -/
def setQuery (url : Url) (query : Option (List UInt8)) : Url := { url with query := query }

/-- The `Host` header that the client sends. -/
def hostHeader (url : Url) : String :=
  match url.port with
  | none => url.hostStr.getD ""
  | some port => url.hostStr.getD "" ++ ":" ++ toString port

end Url

end GeminiWorker
