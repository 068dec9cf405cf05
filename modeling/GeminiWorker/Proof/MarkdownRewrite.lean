import GeminiWorker.Spec.MarkdownRewrite

/-!
# The link that is taken for an image

The image grammar of Markdown text, and what `extract_first_markdown_image_url_from_parts`
takes for an image: the target behind the first `](` of the first text where it is a URL.

* `extractFirst_eq_some_iff`: what is extracted.
* `markdownExact_iff`: it is the first image of the parts only where the first link of a
  text is one, or has the same target.
-/

namespace GeminiWorker

open Json (Value)

/-! ## Images and links in a text -/

/-- Square brackets that match, `depth` of them open. -/
def bracketsMatch : ℕ → List Char → Bool
  | depth, [] => depth == 0
  | depth, '[' :: cs => bracketsMatch (depth + 1) cs
  | 0, ']' :: _ => false
  | depth + 1, ']' :: cs => bracketsMatch depth cs
  | depth, _ :: cs => bracketsMatch depth cs

/-- `![alt](target)` in a text; the target ends at the first closing parenthesis. -/
structure MarkdownImage (text before alt target after : List Char) : Prop where
  text_eq : text = before ++ ['!', '['] ++ alt ++ [']', '('] ++ (target ++ [')'] ++ after)
  alt_matched : bracketsMatch 0 alt = true
  target_closed : ')' ∉ target

/-- The text holds an image with an http(s) target, which starts behind `position`. -/
def HoldsImageAt (text : List Char) (position : ℕ) (url : String) : Prop :=
  ∃ before alt target after, MarkdownImage text before alt target after ∧
    position = (before ++ ['!', '['] ++ alt).length ∧ url = Text.trim (String.ofList target) ∧
      isHttpUrl url = true

/-- The target of the first such image. -/
def FirstImage (text : List Char) (url : String) : Prop :=
  ∃ position, HoldsImageAt text position url ∧
    ∀ position' url', HoldsImageAt text position' url' → position ≤ position'

/-- The first `](` of a text, and the target behind it. -/
structure FirstLink (text before target after : List Char) : Prop where
  text_eq : text = before ++ [']', '('] ++ (target ++ [')'] ++ after)
  first : ∀ before' after', text = before' ++ [']', '('] ++ after' → before.length ≤ before'.length
  target_closed : ')' ∉ target

/-- The first link of the text has an http(s) target. -/
def Leads (text : List Char) (url : String) : Prop :=
  ∃ before target after, FirstLink text before target after ∧ url = Text.trim (String.ofList target) ∧
    isHttpUrl url = true

/-- The first link of the text is an image with an http(s) target. -/
def LeadsImage (text : List Char) (url : String) : Prop :=
  ∃ before alt target after, FirstLink text (before ++ ['!', '['] ++ alt) target after ∧
    bracketsMatch 0 alt = true ∧ url = Text.trim (String.ofList target) ∧ isHttpUrl url = true

theorem LeadsImage.leads {text : List Char} {url : String} (h : LeadsImage text url) : Leads text url := by
  obtain ⟨before, alt, target, after, hlink, -, hurl⟩ := h
  exact ⟨_, target, after, hlink, hurl⟩

/-- No image starts before the first link. -/
theorem LeadsImage.firstImage {text : List Char} {url : String} (h : LeadsImage text url) :
    FirstImage text url := by
  obtain ⟨before, alt, target, after, hlink, halt, hurl⟩ := h
  refine ⟨_, ⟨before, alt, target, after, ⟨hlink.text_eq, halt, hlink.target_closed⟩, rfl, hurl⟩, ?_⟩
  rintro position' url' ⟨before', alt', target', after', himage, rfl, -⟩
  exact hlink.first _ _ himage.text_eq

theorem target_unique {target target' after after' : List Char} (hclosed : ')' ∉ target)
    (hclosed' : ')' ∉ target') (h : target ++ [')'] ++ after = target' ++ [')'] ++ after') :
    target = target' := by
  have hsplit : Text.splitAtFirst [')'] (target ++ [')'] ++ after) = some (target, after) :=
    Text.splitAtFirst_singleton.2 ⟨rfl, hclosed⟩
  have hsplit' := Text.splitAtFirst_singleton.2 ⟨h, hclosed'⟩
  exact (Prod.mk.inj (Option.some.inj (hsplit.symm.trans hsplit'))).1

theorem FirstImage.unique {text : List Char} {url url' : String} (h : FirstImage text url)
    (h' : FirstImage text url') : url = url' := by
  obtain ⟨position, hat, hfirst⟩ := h
  obtain ⟨position', hat', hfirst'⟩ := h'
  have hposition : position = position' := le_antisymm (hfirst _ _ hat') (hfirst' _ _ hat)
  obtain ⟨before, alt, target, after, himage, hp, rfl, -⟩ := hat
  obtain ⟨before', alt', target', after', himage', hp', rfl, -⟩ := hat'
  have hlength : (before ++ ['!', '['] ++ alt).length = (before' ++ ['!', '['] ++ alt').length := by
    rw [← hp, ← hp', hposition]
  obtain ⟨-, hrest⟩ := Text.append_unique (himage.text_eq.symm.trans himage'.text_eq) hlength
  rw [target_unique himage.target_closed himage'.target_closed hrest]

/-! ## What is extracted -/

theorem extractMarkdownImageUrl_eq_some_iff {text url : String} :
    extractMarkdownImageUrl text = some url ↔ Leads text.toList url := by
  unfold extractMarkdownImageUrl
  constructor
  · intro h
    obtain ⟨⟨before, rest⟩, hlink, h⟩ := Option.bind_eq_some_iff.1 h
    obtain ⟨⟨target, after⟩, htarget, h⟩ := Option.bind_eq_some_iff.1 h
    obtain ⟨htext, hfirst⟩ := Text.splitAtFirst_eq_some_iff.1 hlink
    obtain ⟨hrest, hclosed⟩ := Text.splitAtFirst_singleton.1 htarget
    dsimp only at h
    split at h
    · rename_i hhttp
      obtain rfl := Option.some.inj h
      exact ⟨before, target, after, ⟨by rw [htext, hrest], hfirst, hclosed⟩, rfl, hhttp⟩
    · cases h
  · rintro ⟨before, target, after, hlink, rfl, hhttp⟩
    have hsplit := Text.splitAtFirst_eq_some_iff.2 ⟨hlink.text_eq, hlink.first⟩
    have htarget : Text.splitAtFirst [')'] (target ++ [')'] ++ after) = some (target, after) :=
      Text.splitAtFirst_singleton.2 ⟨rfl, hlink.target_closed⟩
    simp only [hsplit, htarget, bind, Option.bind, if_pos hhttp]

theorem Leads.unique {text : List Char} {url url' : String} (h : Leads text url) (h' : Leads text url') :
    url = url' := by
  have hsome := extractMarkdownImageUrl_eq_some_iff.2
    (show Leads (String.ofList text).toList url by rwa [String.toList_ofList])
  have hsome' := extractMarkdownImageUrl_eq_some_iff.2
    (show Leads (String.ofList text).toList url' by rwa [String.toList_ofList])
  exact Option.some.inj (hsome.symm.trans hsome')

/-- White space around a text is no part of its first link. -/
theorem leads_trim {text url : String} : Leads (Text.trim text).toList url ↔ Leads text.toList url := by
  obtain ⟨left, right, hleft, hright, htext⟩ := Text.exists_trim text
  have hpadded : ∀ {middle before after : List Char} {last : Char}, middle.head? = some ']' →
      middle.getLast? = some last → ¬ Text.isWhitespace last = true → text.toList = before ++ middle ++ after →
      ∃ before₀ after₀, before = left ++ before₀ ∧ after = after₀ ++ right ∧
        (Text.trim text).toList = before₀ ++ middle ++ after₀ := by
    intro middle before after last hhead hend hlast h
    rw [htext] at h
    exact Text.append_of_padded hleft hright hhead (by decide) hend hlast h
  have hlink : ∀ {before after : List Char}, text.toList = before ++ [']', '('] ++ after →
      ∃ before₀ after₀, before = left ++ before₀ ∧ after = after₀ ++ right ∧
        (Text.trim text).toList = before₀ ++ [']', '('] ++ after₀ :=
    hpadded rfl rfl (by decide)
  constructor
  · rintro ⟨before, target, after, ⟨hsplit, hfirst, hclosed⟩, hurl⟩
    refine ⟨left ++ before, target, after ++ right, ⟨?_, fun before' after' h' => ?_, hclosed⟩, hurl⟩
    · rw [htext, hsplit]
      simp
    · obtain ⟨before₀, after₀, rfl, -, h₀⟩ := hlink h'
      have := hfirst before₀ after₀ h₀
      simp only [List.length_append]
      omega
  · rintro ⟨before, target, after, ⟨hsplit, hfirst, hclosed⟩, hurl⟩
    have hwhole : text.toList = before ++ ([']', '('] ++ target ++ [')']) ++ after := by
      rw [hsplit]
      simp
    obtain ⟨before₀, after₀, rfl, rfl, h₀⟩ := hpadded rfl List.getLast?_concat (by decide) hwhole
    refine ⟨before₀, target, after₀, ⟨by rw [h₀]; simp, fun before' after' h' => ?_, hclosed⟩, hurl⟩
    have := hfirst (left ++ before') (after' ++ right) (by rw [htext, h']; simp)
    simp only [List.length_append] at this
    omega

/-! ## The parts of a response -/

/-- The value that the first related part of a list has. -/
def FirstIn (R : Value → String → Prop) (parts : List Value) (url : String) : Prop :=
  ∃ before part after, parts = before ++ part :: after ∧ R part url ∧ ∀ p ∈ before, ∀ u, ¬ R p u

section

variable {R : Value → String → Prop} {part : Value} {parts : List Value} {url url' : String}

theorem not_firstIn_nil : ¬ FirstIn R [] url := by
  rintro ⟨before, part, after, h, -⟩
  cases before <;> cases h

theorem firstIn_cons_of_related (h : R part url) : FirstIn R (part :: parts) url :=
  ⟨[], part, parts, rfl, h, fun _ hp => by cases hp⟩

theorem firstIn_cons_of_unrelated (h : ∀ u, ¬ R part u) :
    FirstIn R (part :: parts) url ↔ FirstIn R parts url := by
  constructor
  · rintro ⟨before, part', after, hparts, hrel, hnone⟩
    cases before with
    | nil =>
      obtain ⟨rfl, rfl⟩ := List.cons.inj hparts
      exact absurd hrel (h url)
    | cons p before =>
      obtain ⟨rfl, rfl⟩ := List.cons.inj hparts
      exact ⟨before, part', after, rfl, hrel, fun q hq => hnone q (List.mem_cons_of_mem _ hq)⟩
  · rintro ⟨before, part', after, rfl, hrel, hnone⟩
    refine ⟨part :: before, part', after, rfl, hrel, fun q hq => ?_⟩
    rcases List.mem_cons.1 hq with rfl | hq
    · exact h
    · exact hnone q hq

theorem FirstIn.unique (h : FirstIn R parts url) (h' : FirstIn R parts url')
    (hR : ∀ part url url', R part url → R part url' → url = url') : url = url' := by
  induction parts with
  | nil => exact absurd h not_firstIn_nil
  | cons part parts ih =>
    by_cases hrel : ∃ u, R part u
    · obtain ⟨u, hu⟩ := hrel
      have heq : ∀ {w}, FirstIn R (part :: parts) w → w = u := by
        rintro w ⟨before, part', after, hparts, hw, hnone⟩
        cases before with
        | nil =>
          obtain ⟨rfl, -⟩ := List.cons.inj hparts
          exact hR _ _ _ hw hu
        | cons p before =>
          obtain ⟨rfl, -⟩ := List.cons.inj hparts
          exact absurd hu (hnone part List.mem_cons_self u)
      rw [heq h, heq h']
    · have hnone : ∀ u, ¬ R part u := fun u hu => hrel ⟨u, hu⟩
      exact ih ((firstIn_cons_of_unrelated hnone).1 h) ((firstIn_cons_of_unrelated hnone).1 h')

theorem exists_firstIn (hpart : part ∈ parts) (h : R part url) : ∃ url, FirstIn R parts url := by
  induction parts with
  | nil => cases hpart
  | cons p parts ih =>
    by_cases hrel : ∃ u, R p u
    · obtain ⟨u, hu⟩ := hrel
      exact ⟨u, firstIn_cons_of_related hu⟩
    · have hnone : ∀ u, ¬ R p u := fun u hu => hrel ⟨u, hu⟩
      rcases List.mem_cons.1 hpart with rfl | hmem
      · exact absurd h (hnone url)
      · obtain ⟨u, hu⟩ := ih hmem
        exact ⟨u, (firstIn_cons_of_unrelated hnone).2 hu⟩

end

def PartText (part : Value) (text : String) : Prop := (part.get "text").bind Value.asStr = some text

/-- The first link of the text of a part has the target. -/
def PartLeads (part : Value) (url : String) : Prop := ∃ text, PartText part text ∧ Leads text.toList url

def PartLeadsImage (part : Value) (url : String) : Prop :=
  ∃ text, PartText part text ∧ LeadsImage text.toList url

/-- The first image of the text of a part has the target. -/
def PartImage (part : Value) (url : String) : Prop := ∃ text, PartText part text ∧ FirstImage text.toList url

theorem PartText.unique {part : Value} {text text' : String} (h : PartText part text)
    (h' : PartText part text') : text = text' := Option.some.inj (h.symm.trans h')

theorem PartLeads.unique {part : Value} {url url' : String} (h : PartLeads part url)
    (h' : PartLeads part url') : url = url' := by
  obtain ⟨text, htext, hleads⟩ := h
  obtain ⟨text', htext', hleads'⟩ := h'
  obtain rfl := htext.unique htext'
  exact hleads.unique hleads'

theorem PartImage.unique {part : Value} {url url' : String} (h : PartImage part url)
    (h' : PartImage part url') : url = url' := by
  obtain ⟨text, htext, himage⟩ := h
  obtain ⟨text', htext', himage'⟩ := h'
  obtain rfl := htext.unique htext'
  exact himage.unique himage'

theorem firstLead_unique {parts : List Value} {url url' : String} (h : FirstIn PartLeads parts url)
    (h' : FirstIn PartLeads parts url') : url = url' :=
  h.unique h' fun _ _ _ hleads hleads' => hleads.unique hleads'

theorem firstImage_unique {parts : List Value} {url url' : String} (h : FirstIn PartImage parts url)
    (h' : FirstIn PartImage parts url') : url = url' :=
  h.unique h' fun _ _ _ himage himage' => himage.unique himage'

theorem PartLeadsImage.leads {part : Value} {url : String} (h : PartLeadsImage part url) :
    PartLeads part url := by
  obtain ⟨text, htext, hlink⟩ := h
  exact ⟨text, htext, hlink.leads⟩

theorem PartLeadsImage.image {part : Value} {url : String} (h : PartLeadsImage part url) :
    PartImage part url := by
  obtain ⟨text, htext, hlink⟩ := h
  exact ⟨text, htext, hlink.firstImage⟩

/-- **What is extracted is the target of the first link, of the first part where it is a URL.** -/
theorem extractFirst_eq_some_iff (parts : List Value) (url : String) :
    extractFirstMarkdownImageUrlFromParts parts = some url ↔ FirstIn PartLeads parts url := by
  induction parts with
  | nil => exact ⟨fun h => (by cases h), fun h => absurd h not_firstIn_nil⟩
  | cons part parts ih =>
    rw [extractFirstMarkdownImageUrlFromParts]
    cases htext : (part.get "text").bind Value.asStr with
    | none =>
      have hnone : ∀ u, ¬ PartLeads part u := by
        rintro u ⟨text, htext', -⟩
        rw [PartText, htext] at htext'
        cases htext'
      rw [firstIn_cons_of_unrelated hnone]
      exact ih
    | some text =>
      have hleads : ∀ {u}, PartLeads part u ↔ extractMarkdownImageUrl (Text.trim text) = some u := by
        intro u
        rw [extractMarkdownImageUrl_eq_some_iff, leads_trim]
        constructor
        · rintro ⟨text', htext', h⟩
          obtain rfl := PartText.unique htext htext'
          exact h
        · exact fun h => ⟨text, htext, h⟩
      have hnone : extractMarkdownImageUrl (Text.trim text) = none →
          (extractFirstMarkdownImageUrlFromParts parts = some url ↔ FirstIn PartLeads (part :: parts) url) := by
        intro ho
        have hunrelated : ∀ u, ¬ PartLeads part u := fun u hu => by
          rw [hleads, ho] at hu
          cases hu
        rw [firstIn_cons_of_unrelated hunrelated]
        exact ih
      dsimp only
      split
      · -- no link in an empty text
        rename_i hempty
        exact hnone (by rw [hempty]; rfl)
      · cases ho : extractMarkdownImageUrl (Text.trim text) with
        | none => exact hnone ho
        | some u =>
          have hu : FirstIn PartLeads (part :: parts) u := firstIn_cons_of_related (hleads.2 ho)
          constructor
          · intro h
            obtain rfl := Option.some.inj h
            exact hu
          · intro h
            exact congrArg some (firstLead_unique hu h)

/-! ## When it is an image -/

/-- `parts` at `/candidates/0/content/parts`, none if there is no such array. -/
def responseParts (body : Value) : List Value :=
  ((body.pointer "/candidates/0/content/parts").bind Value.asArray).getD []

/-- The image of the parts is found, and where there is none nothing changes. -/
structure MarkdownExact (parts : List Value) : Prop where
  extract : ∀ url, extractFirstMarkdownImageUrlFromParts parts = some url ↔ FirstIn PartImage parts url
  unchanged : (∀ part ∈ parts, ∀ url, ¬ PartImage part url) → ∀ fetch config outputMode body,
    containsInlineData body = false → responseParts body = parts →
      normalizeSpecialMarkdownImageResponse fetch config outputMode body = .ok body

/-- No first link is a URL and there is no image; or the first part with either begins its links with an image; or the
first link that is a URL is another one than the first image, but has the same target. -/
def LinksAreImages (parts : List Value) : Prop :=
  (∀ part ∈ parts, ∀ url, ¬ PartLeads part url ∧ ¬ PartImage part url) ∨
    (∃ before part after url, parts = before ++ part :: after ∧ PartLeadsImage part url ∧
      ∀ p ∈ before, ∀ u, ¬ PartLeads p u ∧ ¬ PartImage p u) ∨
    ∃ before part after url, parts = before ++ part :: after ∧ PartLeads part url ∧
      (∀ p ∈ before, ∀ u, ¬ PartLeads p u) ∧ (PartLeadsImage part url → ∃ p ∈ before, ∃ u, PartImage p u) ∧
      FirstIn PartImage parts url

theorem normalize_unchanged {parts : List Value} (hnone : extractFirstMarkdownImageUrlFromParts parts = none)
    (fetch : String → Published) (config : SpecialUpstreamConfig) (outputMode : OutputMode) {body : Value}
    (hparts : responseParts body = parts) :
    normalizeSpecialMarkdownImageResponse fetch config outputMode body = .ok body := by
  unfold normalizeSpecialMarkdownImageResponse
  split
  · rfl
  · unfold responseParts at hparts
    cases harray : (body.pointer "/candidates/0/content/parts").bind Value.asArray with
    | none => rfl
    | some items =>
      rw [harray, Option.getD_some] at hparts
      subst hparts
      simp only [hnone]

/-- **The normalization fires on images exactly where the first links are images**, or
happen to have the same target. -/
theorem markdownExact_iff (parts : List Value) : MarkdownExact parts ↔ LinksAreImages parts := by
  constructor
  · intro h
    cases hextract : extractFirstMarkdownImageUrlFromParts parts with
    | none =>
      refine Or.inl fun part hpart url => ⟨fun hleads => ?_, fun himage => ?_⟩
      · obtain ⟨u, hu⟩ := exists_firstIn hpart hleads
        rw [(extractFirst_eq_some_iff parts u).2 hu] at hextract
        cases hextract
      · obtain ⟨u, hu⟩ := exists_firstIn hpart himage
        rw [(h.extract u).2 hu] at hextract
        cases hextract
    | some url =>
      have himage := (h.extract url).1 hextract
      obtain ⟨before, part, after, hparts, hleads, hbefore⟩ := (extractFirst_eq_some_iff parts url).1 hextract
      right
      by_cases hlink : PartLeadsImage part url → ∃ p ∈ before, ∃ u, PartImage p u
      · exact .inr ⟨before, part, after, url, hparts, hleads, hbefore, hlink, himage⟩
      · -- the first link is the first image
        obtain ⟨hleadsImage, hnone⟩ := Classical.not_imp.1 hlink
        exact .inl ⟨before, part, after, url, hparts, hleadsImage,
          fun p hp u => ⟨hbefore p hp u, fun hu => hnone ⟨p, hp, u, hu⟩⟩⟩
  · intro h
    have hagree : ∀ url, FirstIn PartLeads parts url ↔ FirstIn PartImage parts url := by
      rcases h with hnone | ⟨before, part, after, url, rfl, hlink, hbefore⟩ |
        ⟨before, part, after, url, hparts, hlink, hbefore, -, himage⟩
      · intro url
        constructor
        · rintro ⟨before, part, after, rfl, hleads, -⟩
          exact absurd hleads (hnone part (by simp) url).1
        · rintro ⟨before, part, after, rfl, himage, -⟩
          exact absurd himage (hnone part (by simp) url).2
      · have hleads : FirstIn PartLeads (before ++ part :: after) url :=
          ⟨before, part, after, rfl, hlink.leads, fun p hp u => (hbefore p hp u).1⟩
        have himage : FirstIn PartImage (before ++ part :: after) url :=
          ⟨before, part, after, rfl, hlink.image, fun p hp u => (hbefore p hp u).2⟩
        intro u
        constructor
        · exact fun hu => firstLead_unique hleads hu ▸ himage
        · exact fun hu => firstImage_unique himage hu ▸ hleads
      · have hleads : FirstIn PartLeads parts url := ⟨before, part, after, hparts, hlink, hbefore⟩
        intro u
        constructor
        · exact fun hu => firstLead_unique hleads hu ▸ himage
        · exact fun hu => firstImage_unique himage hu ▸ hleads
    refine ⟨fun url => (extractFirst_eq_some_iff parts url).trans (hagree url), ?_⟩
    intro hnoImage fetch config outputMode body _ hparts
    refine normalize_unchanged ?_ fetch config outputMode hparts
    by_contra hne
    obtain ⟨url, hurl⟩ := Option.ne_none_iff_exists'.1 hne
    obtain ⟨before, part, after, rfl, himage, -⟩ := (hagree url).1 ((extractFirst_eq_some_iff _ url).1 hurl)
    exact hnoImage part (by simp) url himage

/-- An answer with an ordinary link. -/
def linkedParts : List Value := [.object [("text", .string "See [the docs](https://example.com/docs).")]]

/-- It is taken for an image. -/
theorem linkedParts_not_exact : ¬ MarkdownExact linkedParts := by
  intro h
  have hextract : extractFirstMarkdownImageUrlFromParts linkedParts = some "https://example.com/docs" := by
    decide +kernel
  obtain ⟨before, part, after, hparts, ⟨text, htext, himage⟩, -⟩ := (h.extract _).1 hextract
  have hpart : part ∈ linkedParts := by rw [hparts]; simp
  obtain rfl := List.mem_singleton.1 hpart
  obtain rfl : text = "See [the docs](https://example.com/docs)." := (Option.some.inj htext).symm
  -- an image has an exclamation mark
  obtain ⟨-, ⟨before, alt, target, after, hsplit, -⟩, -⟩ := himage
  have hmark : '!' ∈ "See [the docs](https://example.com/docs).".toList := by
    rw [hsplit.text_eq]
    simp
  revert hmark
  decide

end GeminiWorker
