import GeminiWorker.Spec.RequestEncode

/-!
# Scanning a request for image URLs

`request_scan.rs`: the walk that lists the `inlineData` objects whose `data` is an
http(s) URL, and gives up past seven of them.
-/

namespace GeminiWorker

open Json (Value Map)

def maxInlineDataUrls : ℕ := 7

structure RequestImageRef where
  jsonPointer : String
  url : String
deriving DecidableEq

inductive ScanError where
  | tooManyInlineDataUrls
deriving DecidableEq

def isHttpUrl (value : String) : Bool :=
  Text.startsWith "http://" value || Text.startsWith "https://" value

/-- `Some(Value::Object(inline_data))` with `Some(Value::String(data))` that is a URL. -/
def imageUrl (inlineData : Value) : Option String :=
  ((inlineData.get "data").bind Value.asStr).filter isHttpUrl

mutual
def walk (node : Value) (path : String) (found : List RequestImageRef) :
    Except ScanError (List RequestImageRef) :=
  match node with
  | .object map =>
    match (Map.get map "inlineData").bind imageUrl with
    | some data =>
      let found := found ++ [⟨path ++ "/inlineData", data⟩]
      if found.length > maxInlineDataUrls then .error .tooManyInlineDataUrls
      else walkMembers map path found
    | none => walkMembers map path found
  | .array items => walkItems 0 items path found
  | _ => .ok found
/-- The loop over the entries of an object. -/
def walkMembers : List (String × Value) → String → List RequestImageRef →
    Except ScanError (List RequestImageRef)
  | [], _, found => .ok found
  | (key, child) :: map, path, found => do
    let found ← walk child (path ++ "/" ++ escapeJsonPointerToken key) found
    walkMembers map path found
/-- The loop over the items of an array. -/
def walkItems (index : ℕ) : List Value → String → List RequestImageRef →
    Except ScanError (List RequestImageRef)
  | [], _, found => .ok found
  | child :: items, path, found => do
    let found ← walk child (path ++ "/" ++ toString index) found
    walkItems (index + 1) items path found
end

def scanRequestImageUrls (body : Value) : Except ScanError (List RequestImageRef) := walk body "" []

end GeminiWorker
