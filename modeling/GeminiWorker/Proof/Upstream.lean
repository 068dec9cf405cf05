import GeminiWorker.Lib.Except
import GeminiWorker.Spec.Upstream

/-!
# Credential pairing

A header token that chooses the base URL should also supply the API key, from the
same `<baseUrl>|<apiKey>` pair: otherwise the operator's default key goes to a host
that the client chose.

* `parseDualUpstreamToken_pair`: two-pair tokens always yield one whole pair.
* `parseSingleUpstreamToken_pair`: a single pair yields its two non-blank halves.
* `credentialPairing_iff`: pairing holds exactly unless the token is a bare base URL
  (`https://host|`) and the operator has a default key.
-/

namespace GeminiWorker

open Json (Value)

variable {parse : UrlParser}

/-- The `<baseUrl>|<apiKey>` pairs written in a token, halves trimmed. -/
def tokenPairs (token : String) : List (String × String) :=
  (if Text.containsChar ',' token then tokenParts token else [token]).filterMap fun part =>
    (Text.splitOnce '|' part).map fun p => (Text.trim p.1, Text.trim p.2)

/-- **Credential pairing** of one call: when it succeeds and the base URL came from the
header token, base URL and API key are the two halves of one pair of that token. -/
def CredentialPairing (parse : UrlParser) (headers : List (String × String)) (requestBody : Value)
    (defaultBaseUrl defaultApiKey : String) : Prop :=
  ∀ resolved token override,
    resolveUpstreamForRequest parse headers requestBody defaultBaseUrl defaultApiKey = .ok resolved →
    headerToken headers = some token → tokenOverride parse token requestBody = .ok override →
    override.baseUrl ≠ none →
    ∃ pair ∈ tokenPairs token, override = ⟨some pair.1, some pair.2⟩ ∧ resolved = ⟨pair.1, pair.2⟩

/-- The token is a single pair with a valid base URL and a blank key, and there is a
default key to fall back on. -/
def BareBaseToken (parse : UrlParser) (headers : List (String × String)) (defaultApiKey : String) :
    Prop :=
  ∃ token base key, headerToken headers = some token ∧ Text.containsChar ',' token = false ∧
    Text.splitOnce '|' token = some (base, key) ∧ Text.trim base ≠ "" ∧
    validateHttpBaseUrl parse (Text.trim base) = .ok () ∧ Text.trim key = "" ∧
    Text.trim defaultApiKey ≠ ""

/-- A strict pair yields both of its halves. -/
theorem parseStrictUpstreamPair_ok {token : String} {override : UpstreamOverride}
    (h : parseStrictUpstreamPair parse token = .ok override) :
    ∃ p, Text.splitOnce '|' token = some p ∧
      override = ⟨some (Text.trim p.1), some (Text.trim p.2)⟩ := by
  unfold parseStrictUpstreamPair at h
  split at h
  · cases h
  · rename_i base key hsplit
    refine ⟨(base, key), hsplit, ?_⟩
    dsimp only at h
    split at h
    · cases h
    · obtain ⟨-, -, h2⟩ := Except.bind_eq_ok.1 h
      exact (Except.ok.inj h2).symm

/-- **A two-pair token yields one whole pair.** -/
theorem parseDualUpstreamToken_pair {token : String} {requestBody : Value}
    {override : UpstreamOverride} (hc : Text.containsChar ',' token = true)
    (h : parseDualUpstreamToken parse token requestBody = .ok override) :
    ∃ pair ∈ tokenPairs token, override = ⟨some pair.1, some pair.2⟩ := by
  have key : ∀ part ∈ tokenParts token, ∀ o, parseStrictUpstreamPair parse part = .ok o →
      ∃ pair ∈ tokenPairs token, o = ⟨some pair.1, some pair.2⟩ := by
    intro part hpart o ho
    obtain ⟨p, hp, rfl⟩ := parseStrictUpstreamPair_ok ho
    refine ⟨(Text.trim p.1, Text.trim p.2), ?_, rfl⟩
    unfold tokenPairs
    rw [if_pos hc, List.mem_filterMap]
    exact ⟨part, hpart, by rw [hp]; rfl⟩
  unfold parseDualUpstreamToken at h
  split at h
  · rename_i part0 part1 hparts
    obtain ⟨first, h1, h⟩ := Except.bind_eq_ok.1 h
    obtain ⟨second, h2, h⟩ := Except.bind_eq_ok.1 h
    have ho := (Except.ok.inj h).symm
    split at ho
    · subst ho; exact key part1 (by rw [hparts]; simp) _ h2
    · subst ho; exact key part0 (by rw [hparts]; simp) _ h1
  · cases h

/-- A single token that chooses a base URL is a pair; it yields its non-blank halves. -/
theorem parseSingleUpstreamToken_pair {token : String} {override : UpstreamOverride}
    (h : parseSingleUpstreamToken parse token = .ok override) (hb : override.baseUrl ≠ none) :
    ∃ base key, Text.splitOnce '|' token = some (base, key) ∧ Text.trim base ≠ "" ∧
      validateHttpBaseUrl parse (Text.trim base) = .ok () ∧
      override = ⟨some (Text.trim base),
        if Text.trim key != "" then some (Text.trim key) else none⟩ := by
  unfold parseSingleUpstreamToken at h
  split at h
  · rename_i base key hsplit
    by_cases hbase : Text.trim base = ""
    · simp only [hbase, bne_self_eq_false, Bool.false_eq_true, if_false] at h
      rw [← Except.ok.inj h] at hb
      exact absurd rfl hb
    · simp only [bne_iff_ne, ne_eq, hbase, not_false_eq_true, if_true] at h
      obtain ⟨⟨⟩, hv, h⟩ := Except.bind_eq_ok.1 h
      refine ⟨base, key, hsplit, hbase, hv, ?_⟩
      rw [← Except.ok.inj h]
      simp only [bne_iff_ne, ne_eq]
  · rw [← Except.ok.inj h] at hb
    exact absurd rfl hb

/-- What a successful resolution returns, given the override of the token. -/
theorem resolveUpstreamForRequest_token {headers : List (String × String)} {requestBody : Value}
    {defaultBaseUrl defaultApiKey token : String} {override : UpstreamOverride}
    (ht : headerToken headers = some token)
    (ho : tokenOverride parse token requestBody = .ok override) :
    resolveUpstreamForRequest parse headers requestBody defaultBaseUrl defaultApiKey =
      if override.apiKey.getD (Text.trim defaultApiKey) = "" then .error .missingApiKey
      else .ok ⟨override.baseUrl.getD (Text.trim defaultBaseUrl),
        override.apiKey.getD (Text.trim defaultApiKey)⟩ := by
  unfold resolveUpstreamForRequest
  simp only [ht, ho]
  by_cases hk : override.apiKey.getD (Text.trim defaultApiKey) = ""
  · rw [if_pos hk]; simp [bind, Except.bind, hk, throw, throwThe, MonadExceptOf.throw]
  · rw [if_neg hk]; simp [bind, Except.bind, hk, pure, Except.pure]

/-- **Credential pairing, exactly.** For every request, the base URL chosen by the token
comes with the key of the same pair if and only if the token is not a bare base URL that
falls back on the operator's key. -/
theorem credentialPairing_iff (parse : UrlParser) (headers : List (String × String))
    (requestBody : Value) (defaultBaseUrl defaultApiKey : String) :
    CredentialPairing parse headers requestBody defaultBaseUrl defaultApiKey ↔
      ¬ BareBaseToken parse headers defaultApiKey := by
  constructor
  · rintro hpair ⟨token, base, key, ht, hc, hsplit, hbase, hvalid, hkey, hdef⟩
    have ho : tokenOverride parse token requestBody = .ok ⟨some (Text.trim base), none⟩ := by
      unfold tokenOverride parseSingleUpstreamToken
      simp only [hc, hsplit, bne_iff_ne, ne_eq, hbase, hvalid, hkey, not_false_eq_true, if_true,
        not_true_eq_false, if_false, Bool.false_eq_true]
      rfl
    have hr := @resolveUpstreamForRequest_token parse headers requestBody defaultBaseUrl
      defaultApiKey _ _ ht ho
    simp only [Option.getD_none, if_neg hdef] at hr
    obtain ⟨pair, -, hov, -⟩ := hpair _ _ _ hr ht ho (by simp)
    simp at hov
  · intro hbare resolved token override hr ht ho hb
    have hpair : ∃ pair ∈ tokenPairs token, override = ⟨some pair.1, some pair.2⟩ := by
      unfold tokenOverride at ho
      split at ho
      · exact parseDualUpstreamToken_pair ‹_› ho
      · rename_i hc
        rw [Bool.not_eq_true] at hc
        obtain ⟨base, key, hsplit, hbase, hvalid, rfl⟩ := parseSingleUpstreamToken_pair ho hb
        -- a blank key would leave the default key, blank by `hbare`, and the call would fail
        have hkey : Text.trim key ≠ "" := by
          intro hkey
          by_cases hdef : Text.trim defaultApiKey = ""
          · rw [resolveUpstreamForRequest_token ht (by unfold tokenOverride; rw [if_neg (by simp [hc])]; exact ho)] at hr
            simp [hkey, hdef] at hr
          · exact hbare ⟨token, base, key, ht, hc, hsplit, hbase, hvalid, hkey, hdef⟩
        refine ⟨(Text.trim base, Text.trim key), ?_, by simp [hkey]⟩
        unfold tokenPairs
        rw [if_neg (by simp [hc]), List.mem_filterMap]
        exact ⟨token, by simp, by rw [hsplit]; rfl⟩
    obtain ⟨pair, hmem, rfl⟩ := hpair
    rw [resolveUpstreamForRequest_token ht ho] at hr
    simp only [Option.getD_some] at hr
    split at hr
    · cases hr
    · exact ⟨pair, hmem, rfl, (Except.ok.inj hr).symm⟩

/-- The parser at the one base URL of the failing request. -/
def parseEvilExample : UrlParser := fun raw =>
  if raw = "https://evil.example" then some ⟨"https", some "evil.example"⟩ else none

/-- **A bare base URL is sent the operator's key.** -/
theorem bareBaseToken_leaks_default_key :
    resolveUpstreamForRequest parseEvilExample [("x-goog-api-key", "https://evil.example|")] .null
        "https://magic666.top" "env-key" = .ok ⟨"https://evil.example", "env-key"⟩ ∧
      ¬ CredentialPairing parseEvilExample [("x-goog-api-key", "https://evil.example|")] .null
        "https://magic666.top" "env-key" := by
  have hr : resolveUpstreamForRequest parseEvilExample [("x-goog-api-key", "https://evil.example|")]
      .null "https://magic666.top" "env-key" = .ok ⟨"https://evil.example", "env-key"⟩ := by
    decide +kernel
  refine ⟨hr, fun h => ?_⟩
  have ht : headerToken [("x-goog-api-key", "https://evil.example|")] =
      some "https://evil.example|" := by decide +kernel
  have ho : tokenOverride parseEvilExample "https://evil.example|" .null =
      .ok ⟨some "https://evil.example", none⟩ := by decide +kernel
  obtain ⟨pair, -, hov, -⟩ := h _ _ _ hr ht ho (by decide)
  simp at hov

end GeminiWorker
