import GeminiWorker.Lib.JsonNodes
import Mathlib.Data.Finset.Insert

/-!
# Redaction of the admin log

`redact_inline_data_and_collect_image_urls` of `admin.rs`: the URLs of the images of a document
are collected, and inline data that is no URL is left out of it.
-/

namespace GeminiWorker.AdminRedaction

open Json (Value Map)
open Json.Value (heightItems heightMembers)

def isImageUrl (value : String) : Bool :=
  Text.startsWith "http://" value || Text.startsWith "https://" value || Text.startsWith "/proxy/image" value

/-- The URLs found so far, and the same as a set. -/
structure ImageUrls where
  urls : List String
  seen : Finset String

/-- `if seen.insert(url) { urls.push(url) }`. -/
def ImageUrls.insert (found : ImageUrls) (url : String) : ImageUrls :=
  if url ∈ found.seen then found else ⟨found.urls ++ [url], Insert.insert url found.seen⟩

def pushImageUrl (raw : String) (found : ImageUrls) : ImageUrls :=
  let trimmed := Text.trim raw
  if isImageUrl trimmed then found.insert trimmed else found

/-! ## The root data and the typed images -/

/-- `value.get(key).and_then(Value::as_str)`. -/
def textUnder (key : String) (value : Value) : Option String := (value.get key).bind Value.asStr

def pushTextUnder (key : String) (value : Value) (found : ImageUrls) : ImageUrls :=
  match textUnder key value with
  | some text => pushImageUrl text found
  | none => found

def isTypedImage (map : Map) : Bool :=
  (textUnder "type" (.object map)).any fun value => Text.eqIgnoreAsciiCase value "image"

mutual
def collectExplicitUrlImageItems (node : Value) (found : ImageUrls) : ImageUrls :=
  match node with
  | .object map =>
    let found := if isTypedImage map then pushTextUnder "url" (.object map) found else found
    collectFromMembers map found
  | .array items => collectFromItems items found
  | _ => found
def collectFromMembers : List (String × Value) → ImageUrls → ImageUrls
  | [], found => found
  | (_, child) :: map, found => collectFromMembers map (collectExplicitUrlImageItems child found)
def collectFromItems : List Value → ImageUrls → ImageUrls
  | [], found => found
  | child :: items, found => collectFromItems items (collectExplicitUrlImageItems child found)
end

def collectDataItems (root : Value) (found : ImageUrls) : ImageUrls :=
  match (root.get "data").bind Value.asArray with
  | some items => items.foldl (fun found item => pushTextUnder "url" item found) found
  | none => found

/-! ## The walk that redacts -/

/-- `format!("[base64 omitted len={}]", data.len())`. -/
def omitted (data : String) : String := "[base64 omitted len=" ++ toString data.utf8ByteSize ++ "]"

/-- The turn of the loop over the two keys of inline data. -/
def redactInline (key : String) (map : Map) (found : ImageUrls) : Map × ImageUrls :=
  match Map.get map key with
  | some (.object inline) =>
    match Map.get inline "data" with
    | some (.string data) =>
      let trimmed := Text.trim data
      if isImageUrl trimmed then (map, found.insert trimmed)
      else if trimmed ≠ "" then
        (Map.insert map key (.object (Map.insert inline "data" (.string (omitted data)))), found)
      else (map, found)
    | _ => (map, found)
  | _ => (map, found)

def collectFileUri (map : Map) (found : ImageUrls) : ImageUrls :=
  match Map.get map "file_data" with
  | some (.object fileData) => pushTextUnder "file_uri" (.object fileData) found
  | _ => found

/-- Redacting makes no object higher. -/
theorem height_redactInline_le (key : String) (map : Map) (found : ImageUrls) :
    heightMembers (redactInline key map found).1 ≤ heightMembers map := by
  unfold redactInline
  split
  · rename_i inline hinline
    split
    · rename_i data hdata
      dsimp only
      split
      · exact le_rfl
      · split
        · apply Value.heightMembers_insert_le
          have hheight := Value.heightMembers_le_iff.mp le_rfl _ (Map.mem_of_get hinline)
          have hinsert := @Value.heightMembers_insert_le inline (.string (omitted data)) (Nat.zero_le _) "data"
          rw [Value.height] at hheight ⊢
          exact (Nat.succ_le_succ hinsert).trans hheight
        · exact le_rfl
    · exact le_rfl
  · exact le_rfl

mutual
def walk (node : Value) (found : ImageUrls) : Value × ImageUrls :=
  match node with
  | .object map =>
    let camel := redactInline "inlineData" map found
    let snake := redactInline "inline_data" camel.1 camel.2
    let walked := walkMembers snake.1 (collectFileUri snake.1 snake.2)
    (.object walked.1, walked.2)
  | .array items =>
    let walked := walkItems items found
    (.array walked.1, walked.2)
  | node => (node, found)
termination_by (node.height, 0)
decreasing_by
  · have hsnake := height_redactInline_le "inline_data" camel.1 camel.2
    have hcamel := height_redactInline_le "inlineData" map found
    exact Prod.Lex.left _ _ ((hsnake.trans hcamel).trans_lt (Value.heightMembers_lt map))
  · exact Prod.Lex.left _ _ (Value.heightItems_lt items)
def walkMembers (map : List (String × Value)) (found : ImageUrls) : List (String × Value) × ImageUrls :=
  match map with
  | [] => ([], found)
  | (key, child) :: map =>
    let walked := walk child found
    let rest := walkMembers map walked.2
    ((key, walked.1) :: rest.1, rest.2)
termination_by (heightMembers map, map.length + 1)
decreasing_by
  · exact Prod.Lex.right' _ (Value.height_le_cons key child map).1 (Nat.succ_pos _)
  · exact Prod.Lex.right' _ (Value.height_le_cons key child map).2 (Nat.lt_succ_self _)
def walkItems (items : List Value) (found : ImageUrls) : List Value × ImageUrls :=
  match items with
  | [] => ([], found)
  | child :: items =>
    let walked := walk child found
    let rest := walkItems items walked.2
    (walked.1 :: rest.1, rest.2)
termination_by (heightItems items, items.length + 1)
decreasing_by
  · exact Prod.Lex.right' _ (Value.height_le_cons_items child items).1 (Nat.succ_pos _)
  · exact Prod.Lex.right' _ (Value.height_le_cons_items child items).2 (Nat.lt_succ_self _)
end

/-- The redacted document and the URLs. -/
def redactInlineDataAndCollectImageUrls (root : Value) : Value × List String :=
  let found := collectDataItems root ⟨[], ∅⟩
  let found := collectExplicitUrlImageItems root found
  let walked := walk root found
  (walked.1, walked.2.urls)

/-! ## What it is to find and to leave -/

def inlineKeys : List String := ["inlineData", "inline_data"]

/-- A text of the document that is the data of an object under a key of inline data. -/
def IsInlineText (root : Value) (path : List String) (text : String) : Prop :=
  (∃ parent, ∃ key ∈ inlineKeys, path = parent ++ [key, "data"]) ∧ root.at? path = some (.string text)

/-- The places where a document has the URL of an image. -/
inductive ImageText (root : Value) (text : String) : Prop
  | inlineData (path : List String) (htext : IsInlineText root path text)
  | fileUri (path : List String) (htext : root.at? (path ++ ["file_data", "file_uri"]) = some (.string text))
  | typed (path : List String) (kind : String) (hkind : root.at? (path ++ ["type"]) = some (.string kind))
      (himage : Text.eqIgnoreAsciiCase kind "image" = true)
      (htext : root.at? (path ++ ["url"]) = some (.string text))
  | data (items : List Value) (item : Value) (hitems : root.get "data" = some (.array items))
      (hitem : item ∈ items) (htext : item.get "url" = some (.string text))

/-- A text that the log may show: it is blank, or the URL of an image. -/
def Harmless (text : String) : Prop := Text.trim text = "" ∨ isImageUrl (Text.trim text) = true

instance (text : String) : Decidable (Harmless text) := inferInstanceAs (Decidable (_ ∨ _))

end GeminiWorker.AdminRedaction
