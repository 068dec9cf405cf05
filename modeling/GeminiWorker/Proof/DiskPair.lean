import GeminiWorker.Proof.DiskCache
import GeminiWorker.Proof.DiskMeta

/-!
# Mime types and bytes of the disk cache

The two files of an image are written one after the other, and an `io_lock` keeps only the calls of its
own side apart.

* `DiskState.isExclusive`: a step does not break into what the other side is doing with the same URL,
  and no write fails over metadata that can be read.
* `PairsIntact`: what then holds of the directory and of the calls.
* `pairs_intact`: in a run of such steps, a hit is an image that was stored.
* `mixedPair_returned`: without an exclusive lock a mime type comes with the bytes of another image.
-/

namespace GeminiWorker

open Transition (Reach Any run run_reach runMeeting runMeeting_reach)

namespace DiskState

section

variable (cfg : DiskCacheConfig)

/-- The metadata that lie in the directory, where they can be read. -/
def readableMeta (s : DiskState) (url : String) : Option DiskMeta :=
  (s.dir.read (cfg.metaPath url)).bind fun bytes => (cfg.codec.fromSlice bytes).toOption

/-- The URLs of all calls are among these. `set` creates its first file, and `get` reads its first,
while the other side is not between two files of the same URL. -/
def isExclusive (urls : List String) (s : DiskState) : DiskEvent → Bool
  | .get _ url | .set _ url _ => decide (url ∈ urls)
  | .advance side _ =>
    match s.holder side, s.holder side.other with
    | some (.set url _ .createBody), some call => call.url ≠ url || !call.isWriting && !call.isReading
    | some (.get url .readMeta), some call => call.url ≠ url || !call.isWriting
    | _, _ => true
  | .fail side _ =>
    match s.holder side with
    | some (.set url _ phase) => !phase.isWriting || (s.readableMeta cfg url).isNone
    | _ => true
  | _ => true

def Exclusive (urls : List String) (s : DiskState) (event : DiskEvent) : Prop := s.isExclusive cfg urls event = true

instance (urls : List String) (s : DiskState) (event : DiskEvent) : Decidable (s.Exclusive cfg urls event) :=
  inferInstanceAs (Decidable (_ = true))

/-- An image of this mime type is stored under the URL, and if there is a body, it is its. -/
def Described (s : DiskState) (url mimeType : String) : Prop :=
  ∃ value, (url, value) ∈ s.stored ∧ value.mimeType = mimeType ∧ s.dir.OnlyReads (cfg.bodyPath url) value.bytes

/-- What a call relies on. -/
def CallIntact (s : DiskState) : DiskCall → Prop
  | .get url (.readBody info) => s.Described cfg url info.mimeType
  | .get url (.returned (.ok (some hit))) => (url, hit) ∈ s.stored
  | .set url value (.writeBody file written) =>
    written ≤ value.bytes.length ∧ s.dir.Writes (cfg.bodyPath url) file (value.bytes.take written)
  | .set url value .createMeta => s.dir.OnlyReads (cfg.bodyPath url) value.bytes
  | .set url value (.writeMeta file bytes written) =>
    s.dir.OnlyReads (cfg.bodyPath url) value.bytes ∧ written ≤ bytes.length ∧
      s.dir.Writes (cfg.metaPath url) file (bytes.take written) ∧
      ∃ info : DiskMeta, info.mimeType = value.mimeType ∧ bytes = cfg.codec.toVec info
  | _ => True

/-- No call writes files of the URL. -/
def Unwritten (s : DiskState) (url : String) : Prop :=
  ∀ side call, s.holder side = some call → call.url = url → call.isWriting = false

/-- Metadata that can be read describe what was stored. -/
def Paired (s : DiskState) (url : String) : Prop :=
  ∀ info, s.readableMeta cfg url = some info → s.Described cfg url info.mimeType

end

/-- What holds as long as the two sides keep out of each other's way. -/
structure PairsIntact (cfg : DiskCacheConfig) (urls : List String) (s : DiskState) : Prop where
  known : ∀ side call, s.holder side = some call → call.url ∈ urls
  calls : ∀ side call, s.holder side = some call → s.CallIntact cfg call
  /-- A call that writes is alone with the files of its URL. -/
  apart : ∀ side call call', s.holder side = some call → s.holder side.other = some call' →
    call'.url = call.url → call.isWriting = true → call'.isWriting = false ∧ call'.isReading = false
  paired : ∀ url ∈ urls, s.Unwritten url → s.Paired cfg url

end DiskState

/-- No two of the URLs have the same digest. -/
def DiskCodec.CollisionFree (codec : DiskCodec) (urls : List String) : Prop :=
  ∀ url ∈ urls, ∀ url' ∈ urls, codec.sha256 (Text.bytes url) = codec.sha256 (Text.bytes url') → url = url'

section

variable {cfg : DiskCacheConfig} {urls : List String}

theorem DiskCodec.CollisionFree.cacheKey (h : cfg.codec.CollisionFree urls) {url url' : String} (hurl : url ∈ urls)
    (hurl' : url' ∈ urls) (heq : cfg.cacheKey url = cfg.cacheKey url') : url = url' :=
  h url hurl url' hurl' (Hex.encode_injective heq)

/-! ## What a step leaves as it is -/

open DiskState (PairsIntact CallIntact Described Exclusive)

variable {s s' : DiskState} {side : Side} {event : DiskEvent} {call call' : DiskCall} {dir : Disk}
  {stored : List (String × CachedInlineData)} {url : String}

theorem DiskState.Described.kept {mimeType : String} (h : s.Described cfg url mimeType)
    (hstored : s.stored ⊆ s'.stored) (hbody : s.dir.Kept s'.dir (cfg.bodyPath url)) : s'.Described cfg url mimeType := by
  obtain ⟨value, hmem, hmime, hreads⟩ := h
  exact ⟨value, hstored hmem, hmime, hreads.kept hbody⟩

theorem DiskState.Paired.kept (h : s.Paired cfg url) (hstored : s.stored ⊆ s'.stored)
    (hmeta : s.dir.Kept s'.dir (cfg.metaPath url)) (hbody : s.dir.Kept s'.dir (cfg.bodyPath url)) :
    s'.Paired cfg url := by
  intro info hinfo
  obtain ⟨bytes, hread, hparse⟩ := Option.bind_eq_some_iff.mp hinfo
  have hbefore : s.readableMeta cfg url = some info := by
    rw [DiskState.readableMeta, hmeta.read hread]
    exact hparse
  exact (h info hbefore).kept hstored hbody

/-- A call that is between two files relies on these; else only on what is stored. -/
theorem DiskState.CallIntact.kept (h : s.CallIntact cfg call) (hstored : s.stored ⊆ s'.stored)
    (hheld : ∀ path file, s.dir.Held path file → s'.dir.Held path file)
    (hkept : call.isWriting = true ∨ call.isReading = true →
      s.dir.Kept s'.dir (cfg.metaPath call.url) ∧ s.dir.Kept s'.dir (cfg.bodyPath call.url)) :
    s'.CallIntact cfg call := by
  rcases call with ⟨url, phase⟩ | ⟨url, value, phase⟩
  · cases phase with
    | readBody info => exact DiskState.Described.kept h hstored (hkept (.inr rfl)).2
    | returned answer =>
      rcases answer with text | _ | hit
      · trivial
      · trivial
      · exact hstored h
    | metaExists | bodyExists | readMeta | removeMeta | removeBody => trivial
  · cases phase with
    | writeBody file written =>
      obtain ⟨hwritten, hwrites⟩ := h
      exact ⟨hwritten, hwrites.kept (hkept (.inl rfl)).2 (hheld _ _ hwrites.held)⟩
    | createMeta => exact Disk.OnlyReads.kept h (hkept (.inl rfl)).2
    | writeMeta file bytes written =>
      obtain ⟨hbody, hwritten, hwrites, hinfo⟩ := h
      obtain ⟨hkeptMeta, hkeptBody⟩ := hkept (.inl rfl)
      exact ⟨hbody.kept hkeptBody, hwritten, hwrites.kept hkeptMeta (hheld _ _ hwrites.held), hinfo⟩
    | createDir | createBody | readDir | readEntries | removeMeta | removeBody | returned => trivial

theorem isWriting_of_isQuiet (h : call.isQuiet = true) : call.isWriting = false := by
  rcases call with ⟨url, phase⟩ | ⟨url, value, phase⟩
  · rfl
  · simpa [DiskCall.isQuiet, DiskCall.isWriting] using h

theorem isReading_of_isQuiet (h : call.isQuiet = true) : call.isReading = false := by
  rcases call with ⟨url, phase⟩ | ⟨url, value, phase⟩
  · cases phase with
    | readBody info => cases h
    | metaExists | bodyExists | readMeta | removeMeta | removeBody | returned => rfl
  · rfl

theorem DiskState.CallIntact.of_isQuiet (h : call.isQuiet = true) : s.CallIntact cfg call := by
  rcases call with ⟨url, phase⟩ | ⟨url, value, phase⟩
  · cases phase with
    | readBody info => cases h
    | returned answer =>
      rcases answer with text | _ | hit
      · trivial
      · trivial
      · cases h
    | metaExists | bodyExists | readMeta | removeMeta | removeBody => trivial
  · cases phase with
    | writeBody | createMeta | writeMeta => cases h
    | createDir | createBody | readDir | readEntries | removeMeta | removeBody | returned => trivial

theorem Side.other_other (side : Side) : side.other.other = side := by cases side <;> rfl

theorem Side.eq_or_other (side side' : Side) : side' = side ∨ side' = side.other := by
  cases side <;> cases side' <;> simp [Side.other]

theorem Side.other_ne (side : Side) : side.other ≠ side := by cases side <;> exact nofun

/-! ## One step -/

/-- The call that takes the step: what it does to the files is checked here, what is on the other
side stays as it is. -/
theorem DiskState.PairsIntact.of_call (hinv : s.PairsIntact cfg urls) (hcollision : cfg.codec.CollisionFree urls)
    (hcall : s.holder side = some call) (hurl : call'.url = call.url) (hstored : s.stored ⊆ stored)
    (hheld : ∀ path file, s.dir.Held path file → dir.Held path file)
    (hkept : ∀ path, path ≠ cfg.metaPath call.url → path ≠ cfg.bodyPath call.url → s.dir.Kept dir path)
    (hsame : (∀ path, s.dir.Kept dir path) ∨ call'.isWriting = true)
    (hwriting : ∀ call₂, s.holder side.other = some call₂ → call₂.url = call.url → call'.isWriting = true →
      call₂.isWriting = false ∧ call₂.isReading = false)
    (hreading : ∀ call₂, s.holder side.other = some call₂ → call₂.url = call.url → call'.isReading = true →
      call₂.isWriting = false)
    (hintact : ({ s with dir, stored } : DiskState).CallIntact cfg call')
    (hpaired : call'.isWriting = false → s.Paired cfg call.url ∨ call.isWriting = true →
      ({ s with dir, stored } : DiskState).Paired cfg call.url) :
    ({ s with dir, stored }.setHolder side (some call') : DiskState).PairsIntact cfg urls := by
  have hnext : ({ s with dir, stored }.setHolder side (some call') : DiskState).holder side = some call' :=
    DiskState.holder_setHolder_self _ _ _
  have hother : ({ s with dir, stored }.setHolder side (some call') : DiskState).holder side.other =
      s.holder side.other := DiskState.holder_setHolder_of_ne side.other_ne _ _
  have hcallUrl := hinv.known side call hcall
  -- the files of another URL are others
  have hfiles : ∀ url ∈ urls, url ≠ call.url →
      s.dir.Kept dir (cfg.metaPath url) ∧ s.dir.Kept dir (cfg.bodyPath url) := by
    intro url hmem hne
    have hkey : cfg.cacheKey url ≠ cfg.cacheKey call.url := fun h => hne (hcollision.cacheKey hmem hcallUrl h)
    exact ⟨hkept _ (fun h => hkey (metaPath_inj h)) metaPath_ne_bodyPath,
      hkept _ (fun h => metaPath_ne_bodyPath h.symm) (fun h => hkey (bodyPath_inj h))⟩
  refine ⟨fun side' call₂ h => ?_, fun side' call₂ h => ?_, fun side' call₁ call₂ h₁ h₂ heq hwrites => ?_,
    fun url hmem hunwritten => ?_⟩
  · rcases side.eq_or_other side' with rfl | rfl
    · obtain rfl := Option.some.inj (hnext.symm.trans h)
      rwa [hurl]
    · exact hinv.known _ _ (hother ▸ h)
  · rcases side.eq_or_other side' with rfl | rfl
    · obtain rfl := Option.some.inj (hnext.symm.trans h)
      exact hintact
    · rw [hother] at h
      refine (hinv.calls _ _ h).kept hstored hheld fun hbetween => ?_
      by_cases hsameUrl : call₂.url = call.url
      · rcases hsame with hsame | hnewWriting
        · exact ⟨hsame _, hsame _⟩
        · obtain ⟨hno, hno'⟩ := hwriting call₂ h hsameUrl hnewWriting
          rw [hno, hno'] at hbetween
          rcases hbetween with hbetween | hbetween <;> cases hbetween
      · exact hfiles _ (hinv.known _ _ h) hsameUrl
  · rcases side.eq_or_other side' with rfl | rfl
    · obtain rfl := Option.some.inj (hnext.symm.trans h₁)
      exact hwriting call₂ (hother ▸ h₂) (heq.trans hurl) hwrites
    · rw [hother] at h₁
      rw [side.other_other] at h₂
      obtain rfl := Option.some.inj (hnext.symm.trans h₂)
      have hsameUrl : call₁.url = call.url := heq.symm.trans hurl
      have hnotWriting : call'.isWriting = false := by
        by_contra hcon
        rw [(hwriting call₁ h₁ hsameUrl (by simpa using hcon)).1] at hwrites
        cases hwrites
      refine ⟨hnotWriting, ?_⟩
      by_contra hcon
      rw [hreading call₁ h₁ hsameUrl (by simpa using hcon)] at hwrites
      cases hwrites
  · have hnotWriting : call.url = url → call'.isWriting = false :=
      fun h => hunwritten side call' hnext (hurl.trans h)
    have hotherUnwritten : ∀ call₂, s.holder side.other = some call₂ → call₂.url = url → call₂.isWriting = false :=
      fun call₂ h₂ => hunwritten side.other call₂ (hother.trans h₂)
    -- if the call was not writing, no one was
    have hbefore : (call.url = url → call.isWriting = false) → s.Paired cfg url := by
      intro hquiet
      refine hinv.paired url hmem fun side' call₂ h₂ hurl₂ => ?_
      rcases side.eq_or_other side' with rfl | rfl
      · obtain rfl := Option.some.inj (hcall.symm.trans h₂)
        exact hquiet hurl₂
      · exact hotherUnwritten call₂ h₂ hurl₂
    by_cases hsameUrl : call.url = url
    · subst hsameUrl
      refine hpaired (hnotWriting rfl) ?_
      rcases hwas : call.isWriting with _ | _
      · exact .inl (hbefore fun _ => hwas)
      · exact .inr rfl
    · obtain ⟨hkeptMeta, hkeptBody⟩ := hfiles url hmem fun h => hsameUrl h.symm
      exact (hbefore fun h => absurd h hsameUrl).kept hstored hkeptMeta hkeptBody

/-- Nothing is written where a call is none of the files' business. -/
theorem DiskState.PairsIntact.of_idle (hinv : s.PairsIntact cfg urls) (begun : List (String × CachedInlineData))
    (next : Option DiskCall) (hbefore : ∀ call, s.holder side = some call → call.isWriting = false)
    (hafter : ∀ call, next = some call → call.url ∈ urls ∧ call.isQuiet = true) :
    ({ s with begun }.setHolder side next : DiskState).PairsIntact cfg urls := by
  have hnext : ({ s with begun }.setHolder side next : DiskState).holder side = next := DiskState.holder_setHolder_self _ _ _
  have hother : ({ s with begun }.setHolder side next : DiskState).holder side.other = s.holder side.other :=
    DiskState.holder_setHolder_of_ne side.other_ne _ _
  refine ⟨fun side' call h => ?_, fun side' call h => ?_, fun side' call call' h h' heq hwrites => ?_,
    fun url hmem hunwritten => ?_⟩
  · rcases side.eq_or_other side' with rfl | rfl
    · exact (hafter call (hnext.symm.trans h)).1
    · exact hinv.known _ _ (hother ▸ h)
  · rcases side.eq_or_other side' with rfl | rfl
    · exact .of_isQuiet (hafter call (hnext.symm.trans h)).2
    · exact (hinv.calls _ _ (hother ▸ h)).kept (fun _ h => h) (fun _ _ h => h)
        fun _ => ⟨.refl _ _, .refl _ _⟩
  · rcases side.eq_or_other side' with rfl | rfl
    · rw [isWriting_of_isQuiet (hafter call (hnext.symm.trans h)).2] at hwrites
      cases hwrites
    · rw [side.other_other] at h'
      have hquiet := (hafter call' (hnext.symm.trans h')).2
      exact ⟨isWriting_of_isQuiet hquiet, isReading_of_isQuiet hquiet⟩
  · refine hinv.paired url hmem fun side' call h hurl => ?_
    rcases side.eq_or_other side' with rfl | rfl
    · exact hbefore call h
    · exact hunwritten side.other call (hother.trans h) hurl

/-- What the other side may do while a file of a URL is opened. -/
theorem DiskState.Exclusive.createBody {value : CachedInlineData} {now : UInt64}
    (h : s.Exclusive cfg urls (.advance side now)) (hcall : s.holder side = some (.set url value .createBody))
    {call₂ : DiskCall} (hother : s.holder side.other = some call₂) (hurl : call₂.url = url) :
    call₂.isWriting = false ∧ call₂.isReading = false := by
  rw [DiskState.Exclusive, DiskState.isExclusive, hcall, hother] at h
  simpa [hurl] using h

theorem DiskState.Exclusive.readMeta {now : UInt64} (h : s.Exclusive cfg urls (.advance side now))
    (hcall : s.holder side = some (.get url .readMeta)) {call₂ : DiskCall}
    (hother : s.holder side.other = some call₂) (hurl : call₂.url = url) : call₂.isWriting = false := by
  rw [DiskState.Exclusive, DiskState.isExclusive, hcall, hother] at h
  simpa [hurl] using h

theorem DiskState.Exclusive.fail {value : CachedInlineData} {phase : SetPhase} {text : String}
    (h : s.Exclusive cfg urls (.fail side text)) (hcall : s.holder side = some (.set url value phase))
    (hphase : phase.isWriting = true) : s.readableMeta cfg url = none := by
  rw [DiskState.Exclusive, DiskState.isExclusive, hcall] at h
  simpa [hphase] using h

theorem DiskState.PairsIntact.of_callStep (hinv : s.PairsIntact cfg urls) (hcollision : cfg.codec.CollisionFree urls)
    (hexclusive : s.Exclusive cfg urls event) (hcall : s.holder side = some call)
    (hstep : CallStep cfg s side event call dir stored call') :
    ({ s with dir, stored }.setHolder side (some call') : DiskState).PairsIntact cfg urls := by
  have hintact := hinv.calls side call hcall
  -- a call that was writing was alone with its files
  have halone : call.isWriting = true → ∀ call₂, s.holder side.other = some call₂ → call₂.url = call.url →
      call₂.isWriting = false ∧ call₂.isReading = false :=
    fun h call₂ h₂ hurl => hinv.apart side call call₂ hcall h₂ hurl h
  cases hstep with
  | quiet h h' hurl _ =>
    refine hinv.of_call hcollision hcall hurl (fun _ h => h) (fun _ _ h => h) (fun _ _ _ => .refl _ _)
      (.inl fun _ => .refl _ _) (fun _ _ _ hw => ?_) (fun _ _ _ hr => ?_) (.of_isQuiet h') fun _ hbefore => ?_
    · rw [isWriting_of_isQuiet h'] at hw
      cases hw
    · rw [isReading_of_isQuiet h'] at hr
      cases hr
    · rw [isWriting_of_isQuiet h] at hbefore
      exact hbefore.resolve_right nofun
  | unlink path h h' hurl _ =>
    refine hinv.of_call hcollision hcall hurl (fun _ h => h) (fun _ _ h => h.unlink path)
      (fun _ _ _ => .unlink _ _ _) (.inl fun _ => .unlink _ _ _) (fun _ _ _ hw => ?_) (fun _ _ _ hr => ?_)
      (.of_isQuiet h') fun _ hbefore => ?_
    · rw [isWriting_of_isQuiet h'] at hw
      cases hw
    · rw [isReading_of_isQuiet h'] at hr
      cases hr
    · rw [isWriting_of_isQuiet h] at hbefore
      exact (hbefore.resolve_right nofun).kept (fun _ h => h) (.unlink _ _ _) (.unlink _ _ _)
  | @readMeta url now bytes info hread hinfo =>
    have hfree : ∀ call₂, s.holder side.other = some call₂ → call₂.url = url → call₂.isWriting = false :=
      fun call₂ h₂ hurl => hexclusive.readMeta hcall h₂ hurl
    have hpaired : s.Paired cfg url := by
      refine hinv.paired url (hinv.known side _ hcall) fun side' call₂ h₂ hurl => ?_
      rcases side.eq_or_other side' with rfl | rfl
      · obtain rfl := Option.some.inj (hcall.symm.trans h₂)
        rfl
      · exact hfree call₂ h₂ hurl
    have hmeta : s.readableMeta cfg url = some info := by
      rw [DiskState.readableMeta, hread, Option.bind_some, hinfo]
      rfl
    exact hinv.of_call hcollision hcall rfl (fun _ h => h) (fun _ _ h => h) (fun _ _ _ => .refl _ _)
      (.inl fun _ => .refl _ _) (fun _ _ _ hw => by cases hw) (fun call₂ h₂ hurl _ => hfree call₂ h₂ hurl)
      (hpaired info hmeta) fun _ _ => hpaired
  | @readBody url now bytes info hread =>
    obtain ⟨value, hmem, hmime, hreads⟩ := hintact
    have hvalue : (⟨info.mimeType, bytes⟩ : CachedInlineData) = value := by
      rw [← hmime, hreads bytes hread]
    exact hinv.of_call hcollision hcall rfl (fun _ h => h) (fun _ _ h => h) (fun _ _ _ => .refl _ _)
      (.inl fun _ => .refl _ _) (fun _ _ _ hw => by cases hw) (fun _ _ _ hr => by cases hr)
      (hvalue ▸ hmem) fun _ hbefore => hbefore.resolve_right nofun
  | noBody =>
    exact hinv.of_call hcollision hcall rfl (fun _ h => h) (fun _ _ h => h) (fun _ _ _ => .refl _ _)
      (.inl fun _ => .refl _ _) (fun _ _ _ hw => by cases hw) (fun _ _ _ hr => by cases hr) trivial
      fun _ hbefore => hbefore.resolve_right nofun
  | @createBody url value now =>
    exact hinv.of_call hcollision hcall rfl (fun _ h => h) (fun _ _ h => h.create _)
      (fun _ _ hne => .create hne) (.inr rfl) (fun call₂ h₂ hurl _ => hexclusive.createBody hcall h₂ hurl)
      (fun _ _ _ hr => by cases hr) ⟨Nat.zero_le _, .created⟩ fun hw => by cases hw
  | @writeBody url value file written count hcount =>
    obtain ⟨hwritten, hwrites⟩ := hintact
    have hlength : (value.bytes.take written).length = written := by
      rw [List.length_take]
      omega
    have hnext := hwrites.writeAt ((value.bytes.drop written).take count)
    rw [hlength, ← List.take_add] at hnext
    exact hinv.of_call hcollision hcall rfl (fun _ h => h) (fun _ _ h => h.writeAt _ _)
      (fun _ _ hne => .writeAt hwrites.held hne _ _) (.inr rfl) (fun call₂ h₂ hurl _ => halone rfl call₂ h₂ hurl)
      (fun _ _ _ hr => by cases hr) ⟨hcount, hnext⟩ fun hw => by cases hw
  | @wroteBody url value file now =>
    obtain ⟨_, hwrites⟩ := hintact
    rw [List.take_length] at hwrites
    exact hinv.of_call hcollision hcall rfl (fun _ h => h) (fun _ _ h => h) (fun _ _ _ => .refl _ _) (.inr rfl)
      (fun call₂ h₂ hurl _ => halone rfl call₂ h₂ hurl) (fun _ _ _ hr => by cases hr) hwrites.onlyReads
      fun hw => by cases hw
  | @createMeta url value now info hmime =>
    have hbody : s.dir.OnlyReads (cfg.bodyPath url) value.bytes := hintact
    exact hinv.of_call hcollision hcall rfl (fun _ h => h) (fun _ _ h => h.create _)
      (fun _ hne _ => .create hne) (.inr rfl) (fun call₂ h₂ hurl _ => halone rfl call₂ h₂ hurl)
      (fun _ _ _ hr => by cases hr)
      ⟨hbody.kept (.create fun h => metaPath_ne_bodyPath h.symm), Nat.zero_le _, .created, info, hmime, rfl⟩
      fun hw => by cases hw
  | @writeMeta url value file written count bytes hcount =>
    obtain ⟨hbody, hwritten, hwrites, hinfo⟩ := hintact
    have hlength : (bytes.take written).length = written := by
      rw [List.length_take]
      omega
    have hnext := hwrites.writeAt ((bytes.drop written).take count)
    rw [hlength, ← List.take_add] at hnext
    exact hinv.of_call hcollision hcall rfl (fun _ h => h) (fun _ _ h => h.writeAt _ _)
      (fun _ hne _ => .writeAt hwrites.held hne _ _) (.inr rfl) (fun call₂ h₂ hurl _ => halone rfl call₂ h₂ hurl)
      (fun _ _ _ hr => by cases hr)
      ⟨hbody.kept (.writeAt hwrites.held (fun h => metaPath_ne_bodyPath h.symm) _ _), hcount, hnext, hinfo⟩
      fun hw => by cases hw
  | @wroteMeta url value file bytes now =>
    obtain ⟨hbody, _, hwrites, info, hmime, rfl⟩ := hintact
    rw [List.take_length] at hwrites
    refine hinv.of_call hcollision hcall rfl (List.subset_cons_self _ _) (fun _ _ h => h) (fun _ _ _ => .refl _ _)
      (.inl fun _ => .refl _ _) (fun _ _ _ hw => by cases hw) (fun _ _ _ hr => by cases hr) trivial
      fun _ _ info' hinfo' => ?_
    -- what is read back is what was written
    obtain ⟨bytes, hread, hparse⟩ := Option.bind_eq_some_iff.mp hinfo'
    rw [hwrites.onlyReads bytes hread, cfg.codec.fromSlice_toVec] at hparse
    obtain rfl := Option.some.inj hparse
    exact ⟨value, List.mem_cons_self, hmime.symm, hbody⟩
  | @failed url value phase text hphase =>
    have hnone := hexclusive.fail hcall hphase
    refine hinv.of_call hcollision hcall rfl (fun _ h => h) (fun _ _ h => h) (fun _ _ _ => .refl _ _)
      (.inl fun _ => .refl _ _) (fun _ _ _ hw => by cases hw) (fun _ _ _ hr => by cases hr) trivial
      fun _ _ info hinfo => ?_
    rw [show s.readableMeta cfg url = some info from hinfo] at hnone
    cases hnone

theorem DiskState.PairsIntact.step (hinv : s.PairsIntact cfg urls) (hcollision : cfg.codec.CollisionFree urls)
    (hexclusive : s.Exclusive cfg urls event) (hnext : s.step cfg event = some s') : s'.PairsIntact cfg urls := by
  cases disk_moved hnext with
  | @get side url hfree =>
    have hurl : url ∈ urls := of_decide_eq_true hexclusive
    refine hinv.of_idle s.begun _ (fun call h => ?_) fun call h => ?_
    · rw [hfree] at h
      cases h
    · obtain rfl := Option.some.inj h
      exact ⟨hurl, rfl⟩
  | @set side url value hfree =>
    have hurl : url ∈ urls := of_decide_eq_true hexclusive
    refine hinv.of_idle _ _ (fun call h => ?_) fun call h => ?_
    · rw [hfree] at h
      cases h
    · obtain rfl := Option.some.inj h
      exact ⟨hurl, rfl⟩
  | call hcall hstep => exact hinv.of_callStep hcollision hexclusive hcall hstep
  | release hcall hwriting =>
    refine hinv.of_idle s.begun none (fun call h => ?_) nofun
    rwa [← Option.some.inj (hcall.symm.trans h)]

/-- **What `get` returns is an image that one call of `set` has stored, as long as neither service breaks into
what the other is doing with the same URL.** -/
theorem pairs_intact {hit : CachedInlineData} (hcollision : cfg.codec.CollisionFree urls)
    (hstart : ∀ url ∈ urls, (DiskState.start dir stored).Paired cfg url)
    (hreach : Reach (DiskState.step cfg) (Exclusive cfg urls) (DiskState.start dir stored) s)
    (hhit : s.holder side = some (.get url (.returned (.ok (some hit))))) : (url, hit) ∈ s.stored := by
  have hidle : ∀ side call, (DiskState.start dir stored).holder side = some call → False := by
    intro side call h
    cases h
  have hinit : (DiskState.start dir stored).PairsIntact cfg urls := by
    refine ⟨?_, ?_, ?_, fun url hmem _ => hstart url hmem⟩
    · exact fun side call h => (hidle side call h).elim
    · exact fun side call h => (hidle side call h).elim
    · exact fun side call _ h => (hidle side call h).elim
  have hinv : s.PairsIntact cfg urls :=
    hreach.invariant hinit fun _ _ _ hinv hexclusive hnext => hinv.step hcollision hexclusive hnext
  exact hinv.calls side _ hhit

end

/-! ## Two calls of `set` at once -/

def mixedConfig : DiskCacheConfig :=
  ⟨cachedUrlCodec, 3600000, 1048576⟩

def mixedWebp : CachedInlineData := ⟨"image/webp", [0x52, 0x49]⟩

def mixedPng : CachedInlineData := ⟨"image/png", [0x89, 0x50, 0x4e]⟩

/-- One side stores an image with nothing in between, and the other looks it up. -/
def setThenGet : List DiskEvent :=
  [.set .request cachedUrl mixedWebp, .advance .request 0, .advance .request 0, .write .request 2,
    .advance .request 0, .advance .request 0, .write .request 70, .advance .request 0,
    .listDir .request [], .advance .request 0, .release .request,
    .get .response cachedUrl, .advance .response 1, .advance .response 1, .advance .response 1, .advance .response 1]

theorem pairs_intact_example : ∃ s : DiskState,
    s.holder .response = some (.get cachedUrl (.returned (.ok (some mixedWebp)))) ∧ (cachedUrl, mixedWebp) ∈ s.stored := by
  have hrun : (runMeeting (DiskState.step mixedConfig) (DiskState.Exclusive mixedConfig [cachedUrl])
      (DiskState.start .empty []) setThenGet).map (fun s => s.holder .response) =
        some (some (.get cachedUrl (.returned (.ok (some mixedWebp))))) := by decide +kernel
  obtain ⟨s, hs, hhit⟩ := Option.map_eq_some_iff.mp hrun
  have hcollision : mixedConfig.codec.CollisionFree [cachedUrl] := by
    intro url hurl url' hurl' _
    rw [List.mem_singleton.mp hurl, List.mem_singleton.mp hurl']
  exact ⟨s, hhit, pairs_intact hcollision (fun _ _ _ hmeta => by cases hmeta) (runMeeting_reach hs) hhit⟩

/-- Both sides store an image, the body of the one between the two files of the other. -/
def setWhileSet : List DiskEvent :=
  [.set .request cachedUrl mixedWebp, .advance .request 0, .advance .request 0, .write .request 2,
    .advance .request 0,
    .set .response cachedUrl mixedPng, .advance .response 0, .advance .response 0, .write .response 3,
    .advance .response 0, .advance .response 0, .write .response 69, .advance .response 0,
    .listDir .response [], .advance .response 0, .release .response,
    .advance .request 0, .write .request 70, .advance .request 0,
    .get .response cachedUrl, .advance .response 1, .advance .response 1, .advance .response 1, .advance .response 1]

/-- A mime type comes with the bytes of another image. -/
theorem mixedPair_returned : ¬ ∀ s, Reach (DiskState.step mixedConfig) Any (DiskState.start .empty []) s →
    ∀ side url hit, s.holder side = some (.get url (.returned (.ok (some hit)))) → (url, hit) ∈ s.begun := by
  intro h
  have hrun : (run (DiskState.step mixedConfig) (DiskState.start .empty []) setWhileSet).map
      (fun s => (s.holder .response, s.begun)) =
        some (some (.get cachedUrl (.returned (.ok (some ⟨mixedWebp.mimeType, mixedPng.bytes⟩)))),
          [(cachedUrl, mixedPng), (cachedUrl, mixedWebp)]) := by decide +kernel
  obtain ⟨s, hs, hstate⟩ := Option.map_eq_some_iff.mp hrun
  obtain ⟨hhit, hbegun⟩ := Prod.mk.inj hstate
  have hmem := h s (run_reach hs) .response cachedUrl _ hhit
  rw [hbegun] at hmem
  exact absurd hmem (by decide)

end GeminiWorker
