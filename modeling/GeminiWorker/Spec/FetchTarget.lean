import GeminiWorker.Lib.IpAddr
import GeminiWorker.Spec.ImageFetch
import GeminiWorker.Spec.Url

/-!
# Where an image may be fetched from

`image_io.rs`: the guard on the URL of a fetch, and the requests that the fetch sends.
The client is built without a redirect policy, so it follows up to ten redirects. The
URL parser and the servers are parameters.
-/

namespace GeminiWorker

open Net (IpAddr Ipv6Addr)

def isForbiddenFetchTarget (url : ParsedUrl) : Bool :=
  let hostname := Text.trim (url.hostStr.getD "")
  if Text.eqIgnoreAsciiCase hostname "localhost" then true
  else
    match Net.parse hostname with
    | some (.v4 ip) => ip.isPrivate || ip.isLoopback || ip.isLinkLocal || ip.isUnspecified
    | some (.v6 ip) => ip.isLoopback || ip.isUnspecified || ip.isUniqueLocal || ip.isUnicastLinkLocal
    | none => false

/-! ## The client -/

/-- What a server answers to a request. -/
structure ServerAnswer where
  response : ImageResponse
  /-- The `Location` header, resolved against the URL of the request. -/
  location : Option ParsedUrl

/-- Where the client goes next, if the answer is a redirect. -/
def ServerAnswer.redirect (answer : ServerAnswer) : Option ParsedUrl :=
  if answer.response.status ∈ [301, 302, 303, 307, 308] then answer.location else none

/-- The default policy of the client. -/
def maxRedirects : ℕ := 10

inductive ImageTargetError where
  | parse
  | invalidImageUrl
  | forbiddenTarget (host : String)
  | tooManyRedirects
  | badScheme
  | fetch (error : ImageFetchError)

section

/- The answers to the requests, or how they fail, in the order they are sent. -/
variable (servers : ℕ → Except ImageFetchError ServerAnswer)

/-- `send`, with `left` redirects to go: the URLs of the requests, and the last response. -/
def sendRequests : (left hop : ℕ) → ParsedUrl → List ParsedUrl × Except ImageTargetError ImageResponse
  | left, hop, url =>
    match servers hop with
    | .error err => ([url], .error (.fetch err))
    | .ok answer =>
      match answer.redirect, left with
      | none, _ => ([url], .ok answer.response)
      | some _, 0 => ([url], .error .tooManyRedirects)
      | some location, left + 1 =>
        if location.isHttp then
          let (sent, result) := sendRequests left (hop + 1) location
          (url :: sent, result)
        else ([url], .error .badScheme)

/-- The URLs of the requests, and the image. -/
def fetchImageAsInlineDataWithOptions (parseUrl : UrlParser) (rawUrl : String) (maxImageBytes : ℕ)
    (allowPrivateNetworks : Bool) : List ParsedUrl × Except ImageTargetError CachedInlineData :=
  match parseUrl rawUrl with
  | none => ([], .error .parse)
  | some parsed =>
    if !parsed.isHttp || parsed.hostStr.getD "" = "" then ([], .error .invalidImageUrl)
    else if !allowPrivateNetworks && isForbiddenFetchTarget parsed then
      ([], .error (.forbiddenTarget (parsed.hostStr.getD "")))
    else
      let (sent, response) := sendRequests servers maxRedirects 0 parsed
      (sent, do
        let response ← response
        (response.fetch rawUrl maxImageBytes).mapError .fetch)

end

/-! ## Hosts that are addresses -/

/-- `Url::host_str` of an address: dotted decimal, or some form of an IPv6 address in brackets. -/
def hostOfAddress (displayIpv6 : Ipv6Addr → String) : IpAddr → String
  | .v4 address => address.display
  | .v6 address => "[" ++ (displayIpv6 address ++ "]")

end GeminiWorker
