import GeminiWorker.Spec.Url

/-!
# Providers

`provider.rs`: which upstream protocol a base URL speaks, decided by its host.
-/

namespace GeminiWorker

inductive ProviderKind where
  | grsai
  | aiapidev
  | transparent
deriving DecidableEq

variable (parse : UrlParser)

def parseHost (raw : String) : Option String :=
  ((parse raw).bind ParsedUrl.hostStr).map Text.toAsciiLowercase

def isGrsaiBaseUrl (raw : String) : Bool :=
  match parseHost parse raw with
  | none => false
  | some host => host == "grsai.com" || Text.endsWith ".grsai.com" host

def isAiapidevBaseUrl (raw : String) : Bool :=
  match parseHost parse raw with
  | none => false
  | some host => host == "www.aiapipro.vip"

def resolveProvider (baseUrl : String) : ProviderKind :=
  if isGrsaiBaseUrl parse baseUrl then .grsai
  else if isAiapidevBaseUrl parse baseUrl then .aiapidev
  else .transparent

end GeminiWorker
