import GeminiWorker.Spec.RequestScan

/-!
# What the image stages of a request are for

The images a request refers to, as nodes of its body, and the body in which each of
them is replaced. Nothing here is translated from the source.
-/

namespace GeminiWorker

open Json (Value Map)

/-- The URL of a member, if it is an image that is given by its URL. -/
def imageUrlUnder (key : String) (v : Value) : Option String :=
  if key = "inlineData" then imageUrl v else none

mutual
/-- Every image given by its URL, at any depth: its path and its URL. -/
def imageNodes : Value → List (List String × String)
  | .array items => imageNodesItems 0 items
  | .object members => imageNodesMembers members
  | _ => []
def imageNodesItems (index : ℕ) : List Value → List (List String × String)
  | [] => []
  | v :: vs =>
    (imageNodes v).map (fun n => (toString index :: n.1, n.2)) ++ imageNodesItems (index + 1) vs
def imageNodesMembers : List (String × Value) → List (List String × String)
  | [] => []
  | (key, v) :: members =>
    (imageUrlUnder key v).toList.map (fun url => ([key], url)) ++
      (imageNodes v).map (fun n => (key :: n.1, n.2)) ++ imageNodesMembers members
end

/-- The URLs of the images, each as often as it occurs. -/
def imageUrls (v : Value) : List String := (imageNodes v).map Prod.snd

section

variable (node : String → Value)

mutual
/-- The value in which every outermost image given by its URL is the node of that URL. -/
def replaceImages : Value → Value
  | .array items => .array (replaceImagesItems items)
  | .object members => .object (replaceImagesMembers members)
  | v => v
def replaceImagesItems : List Value → List Value
  | [] => []
  | v :: vs => replaceImages v :: replaceImagesItems vs
def replaceImagesMembers : List (String × Value) → List (String × Value)
  | [] => []
  | (key, v) :: members =>
    (key, match imageUrlUnder key v with
      | some url => node url
      | none => replaceImages v) :: replaceImagesMembers members
end

end

end GeminiWorker
