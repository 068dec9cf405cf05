import GeminiWorker.Lib.Text

/-!
# Parsed URLs

What the proxy reads of a URL parsed by the `url` crate. The parser itself is not
part of the repository: every definition that parses a URL takes it as a parameter.
-/

namespace GeminiWorker

/-- The parts of `url::Url` that the proxy reads. -/
structure ParsedUrl where
  scheme : String
  hostStr : Option String
deriving DecidableEq

/-- `Url::parse`. -/
abbrev UrlParser := String → Option ParsedUrl

/-- `matches!(parsed.scheme(), "http" | "https")`. -/
def ParsedUrl.isHttp (u : ParsedUrl) : Bool := u.scheme == "http" || u.scheme == "https"

end GeminiWorker
