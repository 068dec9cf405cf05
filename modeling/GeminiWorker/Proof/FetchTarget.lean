import GeminiWorker.Spec.FetchTarget

/-!
# The guard on fetches

* `addressFilter_iff`: the guard catches every restricted IPv4 address, and no IPv6 address.
* `mem_sendRequests`: the requests of the client are the first one and the redirects it
  follows.
* `guardedRequests_iff`: the guard keeps the requests to admitted targets only where no
  server redirects to another.
-/

namespace GeminiWorker

open Net (IpAddr Ipv4Addr Ipv6Addr)

/-! ## Addresses -/

/-- A text that starts and ends with no white space. -/
theorem trim_of_ends {s : String} (first last : Char) (hhead : s.toList.head? = some first)
    (hfirst : Text.isWhitespace first = false) (hend : s.toList.getLast? = some last)
    (hlast : Text.isWhitespace last = false) : Text.trim s = s := by
  have hdrop : s.toList.dropWhile Text.isWhitespace = s.toList := by
    obtain ⟨rest, hrest⟩ := List.head?_eq_some_iff.1 hhead
    rw [hrest, List.dropWhile_cons, if_neg (by rw [hfirst]; decide)]
  have hrdrop : s.toList.rdropWhile Text.isWhitespace = s.toList := by
    obtain ⟨before, hbefore⟩ := List.getLast?_eq_some_iff.1 hend
    rw [hbefore, List.rdropWhile_concat_neg _ _ _ (by rw [hlast]; decide)]
  unfold Text.trim
  rw [hdrop, hrdrop, String.ofList_toList]

theorem isWhitespace_of_isDigit {c : Char} (h : Net.isDigit 10 c = true) : Text.isWhitespace c = false := by
  obtain ⟨value, hvalue⟩ := Option.isSome_iff_exists.1 h
  have hrange : 48 ≤ c.toNat ∧ c.toNat ≤ 122 := by
    unfold Net.toDigit at hvalue
    obtain ⟨hvalue, -⟩ := Option.filter_eq_some_iff.1 hvalue
    split at hvalue
    · rename_i hdecimal
      have hlow : 48 ≤ c.toNat := hdecimal.1
      have hhigh : c.toNat ≤ 57 := hdecimal.2
      omega
    · split at hvalue
      · rename_i hlower
        have hlow : 97 ≤ c.toNat := hlower.1
        have hhigh : c.toNat ≤ 122 := hlower.2
        omega
      · split at hvalue
        · rename_i hupper
          have hlow : 65 ≤ c.toNat := hupper.1
          have hhigh : c.toNat ≤ 90 := hupper.2
          omega
        · cases hvalue
  unfold Text.isWhitespace
  simp
  omega

theorem trim_display (address : Ipv4Addr) : Text.trim address.display = address.display := by
  have hdigit : ∀ {n : ℕ} {c : Char}, n < 256 → c ∈ Nat.toDigits 10 n → Text.isWhitespace c = false := by
    intro n c hn hc
    exact isWhitespace_of_isDigit (List.all_eq_true.1 (Net.digits_octet ⟨n, hn⟩).1 c hc)
  have hsplit : address.display.toList = Nat.toDigits 10 address.a.toNat ++
      ('.' :: (Nat.toDigits 10 address.b.toNat ++ '.' :: Nat.toDigits 10 address.c.toNat) ++ ['.']) ++
        Nat.toDigits 10 address.d.toNat := by
    unfold Ipv4Addr.display
    simp [String.toList_append]
  obtain ⟨first, hfirst⟩ := Option.ne_none_iff_exists'.1
    (mt List.head?_eq_none_iff.1 (Nat.toDigits_ne_nil (n := address.a.toNat) (b := 10)))
  obtain ⟨last, hlast⟩ := Option.ne_none_iff_exists'.1
    (mt List.getLast?_eq_none_iff.1 (Nat.toDigits_ne_nil (n := address.d.toNat) (b := 10)))
  refine trim_of_ends first last ?_ (hdigit address.a.toNat_lt (List.mem_of_head? hfirst))
    ?_ (hdigit address.d.toNat_lt (List.mem_of_getLast? hlast))
  · rw [hsplit, List.append_assoc, List.head?_append, hfirst]
    rfl
  · rw [hsplit, List.getLast?_append, hlast]
    rfl

/-- The guard sees through the dotted decimal form. -/
theorem isForbidden_ipv4 (scheme : String) (address : Ipv4Addr) (h : (IpAddr.v4 address).Restricted) :
    isForbiddenFetchTarget ⟨scheme, some address.display⟩ = true := by
  unfold isForbiddenFetchTarget
  simp only [Option.getD_some, trim_display, Net.parse_display]
  split
  · rfl
  · exact (Ipv4Addr.restricted_iff address).1 h

/-- The brackets hide an address from the guard. -/
theorem isForbidden_bracket (scheme text : String) :
    isForbiddenFetchTarget ⟨scheme, some ("[" ++ (text ++ "]"))⟩ = false := by
  have htrim : Text.trim ("[" ++ (text ++ "]")) = "[" ++ (text ++ "]") := by
    refine trim_of_ends '[' ']' ?_ (by decide) ?_ (by decide)
    · rw [String.toList_append]
      rfl
    · rw [String.toList_append, String.toList_append, ← List.append_assoc]
      exact List.getLast?_concat
  have hlocal : Text.eqIgnoreAsciiCase ("[" ++ (text ++ "]")) "localhost" = false := by
    unfold Text.eqIgnoreAsciiCase Text.toAsciiLowercase
    rw [beq_eq_false_iff_ne]
    intro h
    have hlist := congrArg String.toList h
    rw [String.toList_append, String.toList_ofList, String.toList_ofList] at hlist
    have hfirst := congrArg List.head? hlist
    revert hfirst
    simp [Text.toAsciiLower]
  unfold isForbiddenFetchTarget
  simp only [Option.getD_some, htrim, hlocal, Net.parse_bracket]
  rfl

/-- **The guard catches the restricted addresses exactly of IPv4.** -/
theorem addressFilter_iff (displayIpv6 : Ipv6Addr → String) (scheme : String) (address : IpAddr) :
    (address.Restricted →
        isForbiddenFetchTarget ⟨scheme, some (hostOfAddress displayIpv6 address)⟩ = true) ↔
      (∃ a, address = .v4 a) ∨ ¬ address.Restricted := by
  cases address with
  | v4 address => exact ⟨fun _ => Or.inl ⟨address, rfl⟩, fun _ h => isForbidden_ipv4 scheme address h⟩
  | v6 address =>
    rw [hostOfAddress, isForbidden_bracket]
    constructor
    · exact fun h => Or.inr fun hrestricted => Bool.noConfusion (h hrestricted)
    · rintro (⟨a, ha⟩ | h) hrestricted
      · cases ha
      · exact absurd hrestricted h

/-! ## Redirects -/

section

variable (servers : ℕ → Except ImageFetchError ServerAnswer)

/-- Where the answer to a request redirects to. -/
def redirectOf (hop : ℕ) : Option ParsedUrl :=
  match servers hop with
  | .ok answer => answer.redirect
  | .error _ => none

/-- The answers from `hop` on are redirects to http(s) URLs, the last one to the target. -/
def Followed (hop n : ℕ) (target : ParsedUrl) : Prop :=
  (∀ j < n, ∃ url, redirectOf servers (hop + j) = some url ∧ url.isHttp = true) ∧
    redirectOf servers (hop + n) = some target ∧ target.isHttp = true

variable {servers} {hop : ℕ} {url target : ParsedUrl}

theorem followed_zero : Followed servers hop 0 target ↔
    redirectOf servers hop = some target ∧ target.isHttp = true :=
  ⟨fun h => h.2, fun h => ⟨fun j hj => absurd hj (Nat.not_lt_zero j), h⟩⟩

theorem followed_succ {n : ℕ} : Followed servers hop (n + 1) target ↔
    (∃ url, redirectOf servers hop = some url ∧ url.isHttp = true) ∧ Followed servers (hop + 1) n target := by
  unfold Followed
  constructor
  · rintro ⟨hbefore, htarget⟩
    refine ⟨hbefore 0 (by omega), fun j hj => ?_, ?_⟩
    · rw [show hop + 1 + j = hop + (j + 1) by omega]
      exact hbefore (j + 1) (by omega)
    · rwa [show hop + 1 + n = hop + (n + 1) by omega]
  · rintro ⟨hfirst, hbefore, htarget⟩
    refine ⟨fun j hj => ?_, ?_⟩
    · cases j with
      | zero => exact hfirst
      | succ j =>
        rw [show hop + (j + 1) = hop + 1 + j by omega]
        exact hbefore j (by omega)
    · rwa [show hop + (n + 1) = hop + 1 + n by omega]

/-- Without a redirect to follow, there is one request. -/
theorem sendRequests_single {left : ℕ} (h : left = 0 ∨ ¬ ∃ url, redirectOf servers hop = some url ∧ url.isHttp = true) :
    (sendRequests servers left hop url).1 = [url] := by
  unfold sendRequests
  cases hserver : servers hop with
  | error err => rfl
  | ok answer =>
    have hredirect : redirectOf servers hop = answer.redirect := by
      unfold redirectOf
      rw [hserver]
    dsimp only
    cases hlocation : answer.redirect with
    | none => rfl
    | some location =>
      cases left with
      | zero => rfl
      | succ left =>
        have hscheme : ¬ location.isHttp = true := fun hhttp =>
          (h.resolve_left (by omega)) ⟨location, hredirect.trans hlocation, hhttp⟩
        dsimp only
        rw [if_neg hscheme]

/-- One redirect is followed. -/
theorem sendRequests_redirect {left : ℕ} {location : ParsedUrl} (hredirect : redirectOf servers hop = some location)
    (hhttp : location.isHttp = true) :
    (sendRequests servers (left + 1) hop url).1 = url :: (sendRequests servers left (hop + 1) location).1 := by
  rw [sendRequests]
  unfold redirectOf at hredirect
  cases hserver : servers hop with
  | error err => rw [hserver] at hredirect; cases hredirect
  | ok answer =>
    rw [hserver] at hredirect
    dsimp only at hredirect ⊢
    rw [hredirect]
    dsimp only
    rw [if_pos hhttp]

/-- **The requests are the first one and the redirects that are followed.** -/
theorem mem_sendRequests (left : ℕ) : ∀ hop url, target ∈ (sendRequests servers left hop url).1 ↔
    target = url ∨ ∃ n < left, Followed servers hop n target := by
  induction left with
  | zero =>
    intro hop url
    rw [sendRequests_single (Or.inl rfl), List.mem_singleton]
    simp
  | succ left ih =>
    intro hop url
    by_cases hnext : ∃ location, redirectOf servers hop = some location ∧ location.isHttp = true
    · obtain ⟨location, hredirect, hhttp⟩ := hnext
      rw [sendRequests_redirect hredirect hhttp, List.mem_cons, ih]
      refine or_congr_right ?_
      constructor
      · rintro (rfl | ⟨n, hn, hfollowed⟩)
        · exact ⟨0, by omega, followed_zero.2 ⟨hredirect, hhttp⟩⟩
        · exact ⟨n + 1, by omega, followed_succ.2 ⟨⟨location, hredirect, hhttp⟩, hfollowed⟩⟩
      · rintro ⟨n, hn, hfollowed⟩
        cases n with
        | zero =>
          obtain ⟨htarget, -⟩ := followed_zero.1 hfollowed
          exact Or.inl (Option.some.inj (htarget.symm.trans hredirect))
        | succ n => exact Or.inr ⟨n, by omega, (followed_succ.1 hfollowed).2⟩
    · rw [sendRequests_single (Or.inr hnext), List.mem_singleton]
      constructor
      · exact Or.inl
      · rintro (h | ⟨n, hn, hfollowed⟩)
        · exact h
        · cases n with
          | zero => exact absurd ⟨target, followed_zero.1 hfollowed⟩ hnext
          | succ n => exact absurd (followed_succ.1 hfollowed).1 hnext

variable (servers)

/-- The guard lets the URL through. -/
def Admitted (parseUrl : UrlParser) (rawUrl : String) : Prop :=
  ∃ parsed, parseUrl rawUrl = some parsed ∧ parsed.isHttp = true ∧ parsed.hostStr.getD "" ≠ "" ∧
    isForbiddenFetchTarget parsed = false

/-- **No forbidden request is sent if and only if the first URL is refused, or none of the redirects that
are followed leads to a forbidden target.** -/
theorem guardedRequests_iff (parseUrl : UrlParser) (rawUrl : String) (maxImageBytes : ℕ) :
    (∀ url ∈ (fetchImageAsInlineDataWithOptions servers parseUrl rawUrl maxImageBytes false).1,
        isForbiddenFetchTarget url = false) ↔
      ¬ Admitted parseUrl rawUrl ∨ ∀ n < maxRedirects, ∀ target, Followed servers 0 n target →
        isForbiddenFetchTarget target = false := by
  by_cases hadmitted : Admitted parseUrl rawUrl
  · obtain ⟨parsed, hparsed, hhttp, hhost, hallowed⟩ := id hadmitted
    have hsent : (fetchImageAsInlineDataWithOptions servers parseUrl rawUrl maxImageBytes false).1 =
        (sendRequests servers maxRedirects 0 parsed).1 := by
      unfold fetchImageAsInlineDataWithOptions
      simp only [hparsed, hhttp, hallowed, hhost]
      rfl
    rw [hsent, or_iff_right (not_not_intro hadmitted)]
    constructor
    · intro h n hn target hfollowed
      exact h target ((mem_sendRequests _ _ _).2 (Or.inr ⟨n, hn, hfollowed⟩))
    · intro h url hurl
      rcases (mem_sendRequests _ _ _).1 hurl with rfl | ⟨n, hn, hfollowed⟩
      · exact hallowed
      · exact h n hn url hfollowed
  · refine ⟨fun _ => Or.inl hadmitted, fun _ url hurl => ?_⟩
    -- a refused URL is not requested
    have hnone : (fetchImageAsInlineDataWithOptions servers parseUrl rawUrl maxImageBytes false).1 = [] := by
      unfold fetchImageAsInlineDataWithOptions
      cases hparsed : parseUrl rawUrl with
      | none => rfl
      | some parsed =>
        dsimp only
        split
        · rfl
        · rename_i hvalid
          split
          · rfl
          · rename_i hallowed
            simp only [Bool.or_eq_true, Bool.not_eq_true', decide_eq_true_eq, not_or, Bool.not_eq_false] at hvalid
            simp only [Bool.not_false, Bool.true_and, Bool.not_eq_true] at hallowed
            exact absurd ⟨parsed, hparsed, hvalid.1, hvalid.2, hallowed⟩ hadmitted
    rw [hnone] at hurl
    cases hurl

end

/-! ## The two holes -/

/-- The loopback address of IPv6. -/
def loopbackIpv6 : Ipv6Addr := ⟨[0, 0, 0, 0, 0, 0, 0, 1], rfl⟩

/-- It is not caught. -/
theorem loopbackIpv6_not_caught : ¬ ((IpAddr.v6 loopbackIpv6).Restricted →
    isForbiddenFetchTarget ⟨"http", some (hostOfAddress (fun _ => "::1") (.v6 loopbackIpv6))⟩ = true) := by
  intro h
  have hrestricted : (IpAddr.v6 loopbackIpv6).Restricted := (Ipv6Addr.restricted_iff loopbackIpv6).2 (by decide)
  have hcaught := h hrestricted
  rw [hostOfAddress, isForbidden_bracket] at hcaught
  cases hcaught

/-- A server that redirects to the loopback address. -/
def redirectingServers : ℕ → Except ImageFetchError ServerAnswer
  | 0 => .ok ⟨⟨302, "302 Found", none, none, []⟩, some ⟨"http", some "127.0.0.1"⟩⟩
  | _ => .ok ⟨⟨200, "200 OK", none, some "image/png", []⟩, none⟩

/-- The redirect is followed. -/
theorem redirect_not_guarded : ¬ ∀ url ∈ (fetchImageAsInlineDataWithOptions redirectingServers
    (fun _ => some ⟨"https", some "img.example.com"⟩) "https://img.example.com/a.png" 1024 false).1,
    isForbiddenFetchTarget url = false := by
  decide +kernel

end GeminiWorker
