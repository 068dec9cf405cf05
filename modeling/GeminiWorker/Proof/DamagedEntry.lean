import GeminiWorker.Proof.DiskHolder
import GeminiWorker.Proof.DiskPair
import GeminiWorker.Proof.ServicesStep
import GeminiWorker.Proof.SharedImage

/-!
# Damaged entries of the disk cache

What a directory with metadata that are none, or files without their other half, does to the fetch
services. An error of the disk cache is one of the fetch.

* `goesOn_of_answers`: a fetch goes on after a miss and ends with a hit.
* `DiskState.Sound.step`: a call of `get` that has found its entry undamaged finds what it then reads, as long
  as the other service leaves the two files alone.
* `DiskState.answers_alone`: a call with nothing in between does harm exactly if it finds its entry damaged.
* `harmless_reach`: a run over any directory does no harm as long as no call finds a damaged entry.
-/

namespace GeminiWorker

open Transition (Reach Any run runMeeting runMeeting_reach)

/-- A miss, or an image that was stored. -/
def IsMissOrStored (stored : List (String × CachedInlineData)) (url : String)
    (answer : Except String (Option CachedInlineData)) : Prop :=
  answer = .ok none ∨ ∃ hit, answer = .ok (some hit) ∧ (url, hit) ∈ stored

/-- Between its first check and its last read. -/
def GetPhase.isLooking : GetPhase → Bool
  | .bodyExists | .readMeta | .readBody _ => true
  | _ => false

namespace DiskState

variable (cfg : DiskCacheConfig) (s : DiskState)

/-- The metadata of a URL can be read, unless one of its two files is missing. -/
def MetaReadable (url : String) : Prop :=
  (s.dir.read (cfg.metaPath url)).isSome → (s.dir.read (cfg.bodyPath url)).isSome → (s.readableMeta cfg url).isSome

/-- With metadata that can be read and have not expired lies, if any, the body of an image that was stored. -/
def BodyStored (url : String) (now : UInt64) : Prop :=
  ∀ info ∈ s.readableMeta cfg url, now ≤ info.expiresAtUnixMs → ∀ bytes ∈ s.dir.read (cfg.bodyPath url),
    (url, ⟨info.mimeType, bytes⟩) ∈ s.stored

/-- What a call of `get` finds when it begins, and when it looks at the clock. A read of it fails where there
is no file. -/
def FindsUndamaged : DiskEvent → Option DiskCall → Prop
  | .advance _ _, some (.get url .metaExists) => s.MetaReadable cfg url
  | .advance _ now, some (.get url .readMeta) => s.BodyStored cfg url now
  | .fail _ _, some (.get url .readMeta) => s.dir.read (cfg.metaPath url) = none
  | .fail _ _, some (.get url (.readBody _)) => s.dir.read (cfg.bodyPath url) = none
  | _, _ => True

/-- The files that a call of the other side is looking at stay as they are. -/
def LeavesFiles (event : DiskEvent) : Option DiskCall → Prop
  | some (.get url phase) => phase.isLooking = true → ∀ s' ∈ s.step cfg event,
      s'.dir.read (cfg.metaPath url) = s.dir.read (cfg.metaPath url) ∧
        s'.dir.read (cfg.bodyPath url) = s.dir.read (cfg.bodyPath url)
  | _ => True

/-- No call of `get` finds a damaged entry, or is disturbed once it has begun to look. -/
structure Undamaged (event : DiskEvent) : Prop where
  finds : s.FindsUndamaged cfg event (s.holder event.side)
  leaves : s.LeavesFiles cfg event (s.holder event.side.other)

instance instDecidableMetaReadable (url : String) : Decidable (s.MetaReadable cfg url) :=
  inferInstanceAs (Decidable (_ → _ → _))

instance instDecidableBodyStored (url : String) (now : UInt64) : Decidable (s.BodyStored cfg url now) :=
  inferInstanceAs (Decidable (∀ info ∈ s.readableMeta cfg url, _))

instance instDecidableFindsUndamaged (event : DiskEvent) (call : Option DiskCall) :
    Decidable (s.FindsUndamaged cfg event call) := by
  unfold FindsUndamaged
  split <;> infer_instance

instance instDecidableLeavesFiles (event : DiskEvent) (call : Option DiskCall) : Decidable (s.LeavesFiles cfg event call) := by
  unfold LeavesFiles
  split <;> infer_instance

instance instDecidableUndamaged (event : DiskEvent) : Decidable (s.Undamaged cfg event) :=
  decidable_of_iff (s.FindsUndamaged cfg event (s.holder event.side) ∧ s.LeavesFiles cfg event (s.holder event.side.other))
    ⟨fun h => ⟨h.1, h.2⟩, fun h => ⟨h.finds, h.leaves⟩⟩

/-- `get`, with nothing in between, returns this. -/
def Answers (side : Side) (url : String) (now : UInt64) (answer : Except String (Option CachedInlineData)) : Prop :=
  ∃ count s', run (DiskState.step cfg) s (.get side url :: .replicate count (.advance side now)) = some s' ∧
    s'.holder side = some (.get url (.returned answer))

/-- What a call of `get` relies on. -/
def CallSound : DiskCall → Prop
  | .get url .bodyExists => s.MetaReadable cfg url ∧ (s.dir.read (cfg.metaPath url)).isSome
  | .get url .readMeta => (s.readableMeta cfg url).isSome ∧ (s.dir.read (cfg.bodyPath url)).isSome
  | .get url (.readBody info) => ∃ bytes, s.dir.read (cfg.bodyPath url) = some bytes ∧ (url, ⟨info.mimeType, bytes⟩) ∈ s.stored
  | .get url (.returned answer) => IsMissOrStored s.stored url answer
  | _ => True

def Sound : Prop := ∀ side call, s.holder side = some call → s.CallSound cfg call

end DiskState

section

variable (config : InlineDataUrlConfig) (codec : DiskCodec) (encodeWebp : List UInt8 → Option (List UInt8))

/-- No fetch fails because of the disk cache: it returns what was stored, or goes on to the inflight map
as after any miss. -/
structure Harmless (s : FetchServices) : Prop where
  answers : ∀ side url answer, s.disk.holder side = some (.get url (.returned answer)) →
    IsMissOrStored s.disk.stored url answer
  goesOn : ∀ side c answer s', s.step config codec encodeWebp (.fetch side (.diskAnswer c answer)) = some s' →
    ∃ call, (s.fetches side).calls[c]? = some call ∧
      (s'.fetches side = (s.fetches side).setPhase c call .lookup ∨
        ∃ hit, (call.url, hit) ∈ s.disk.stored ∧ s'.fetches side = (s.fetches side).setPhase c call (.diskHit hit))

def FetchServices.Undamaged (s : FetchServices) : ServicesEvent → Prop
  | .fetch _ _ => True
  | .disk event => s.disk.Undamaged (config.diskCacheConfig codec) event

instance instDecidableServicesUndamaged (s : FetchServices) (event : ServicesEvent) :
    Decidable (s.Undamaged config codec event) :=
  match event with
  | .fetch _ _ => .isTrue trivial
  | .disk event => inferInstanceAs (Decidable (s.disk.Undamaged (config.diskCacheConfig codec) event))

end

section

variable {cfg : DiskCacheConfig} {s s' : DiskState} {side : Side} {event : DiskEvent} {url : String} {now : UInt64}
  {phase phase' : GetPhase} {dir : Disk}

/-! ## One step of `get` -/

theorem readableMeta_of_read {bytes : List UInt8} {info : DiskMeta} (hread : s.dir.read (cfg.metaPath url) = some bytes)
    (hinfo : cfg.codec.fromSlice bytes = .ok info) : s.readableMeta cfg url = some info := by
  rw [DiskState.readableMeta, hread, Option.bind_some, hinfo]
  rfl

theorem isSome_read_iff (path : String) : (dir.read path).isSome = (dir.names path).isSome := by
  rw [Disk.read, Option.isSome_map]

theorem DiskState.CallSound.advance (h : s.CallSound cfg (.get url phase))
    (hfinds : s.FindsUndamaged cfg (.advance side now) (some (.get url phase)))
    (hget : advanceGet cfg s.dir url now phase = some (dir, phase')) (hdir : s'.dir = dir) (hstored : s.stored ⊆ s'.stored) :
    s'.CallSound cfg (.get url phase') := by
  cases get_step hget with
  | metaThere hthere =>
    have hreadable : s'.MetaReadable cfg url := by
      rw [DiskState.MetaReadable, DiskState.readableMeta, hdir]
      exact hfinds
    exact ⟨hreadable, by rw [hdir, isSome_read_iff, hthere]⟩
  | bodyThere hthere =>
    obtain ⟨hreadable, hmeta⟩ := h
    have hbody : (s.dir.read (cfg.bodyPath url)).isSome := by rw [isSome_read_iff, hthere]
    refine ⟨?_, by rw [hdir]; exact hbody⟩
    rw [DiskState.readableMeta, hdir]
    exact hreadable hmeta hbody
  | metaMissing | bodyMissing | removeBody => exact .inl rfl
  | @broken bytes text hread hinfo =>
    -- the metadata can be read
    obtain ⟨hreadable, -⟩ := h
    rw [DiskState.readableMeta, hread, Option.bind_some, hinfo] at hreadable
    cases hreadable
  | @fresh bytes info hread hinfo hfresh =>
    obtain ⟨-, hbody⟩ := h
    obtain ⟨body, hbody⟩ := Option.isSome_iff_exists.mp hbody
    have hmem := hfinds info (readableMeta_of_read hread hinfo) (UInt64.not_lt.mp hfresh) body hbody
    exact ⟨body, hdir ▸ hbody, hstored hmem⟩
  | expired | removeMeta => trivial
  | @readBody info bytes hread =>
    obtain ⟨body, hbody, hmem⟩ := h
    obtain rfl := Option.some.inj (hread.symm.trans hbody)
    exact .inr ⟨_, rfl, hstored hmem⟩

/-- A read fails where there is no file, and there is one. -/
theorem DiskState.CallSound.fail {text : String} (h : s.CallSound cfg (.get url phase))
    (hfinds : s.FindsUndamaged cfg (.fail side text) (some (.get url phase))) (hget : failGet text phase = some phase') :
    s'.CallSound cfg (.get url phase') := by
  cases phase with
  | metaExists | bodyExists | removeBody =>
    obtain rfl := Option.some.inj hget
    exact .inl rfl
  | removeMeta =>
    obtain rfl := Option.some.inj hget
    trivial
  | readMeta =>
    have hmissing : s.dir.read (cfg.metaPath url) = none := hfinds
    obtain ⟨hreadable, -⟩ := h
    rw [DiskState.readableMeta, hmissing] at hreadable
    cases hreadable
  | readBody info =>
    have hmissing : s.dir.read (cfg.bodyPath url) = none := hfinds
    obtain ⟨body, hbody, -⟩ := h
    rw [hmissing] at hbody
    cases hbody
  | returned answer => cases hget

/-- A call keeps what it relies on while its files stay as they are. -/
theorem DiskState.CallSound.kept {call : DiskCall} (h : s.CallSound cfg call) (hstored : s.stored ⊆ s'.stored)
    (hfiles : ∀ url phase, call = .get url phase → phase.isLooking = true →
      s'.dir.read (cfg.metaPath url) = s.dir.read (cfg.metaPath url) ∧
        s'.dir.read (cfg.bodyPath url) = s.dir.read (cfg.bodyPath url)) : s'.CallSound cfg call := by
  rcases call with ⟨url, phase⟩ | ⟨url, value, phase⟩
  · cases phase with
    | bodyExists =>
      obtain ⟨hmeta, hbody⟩ := hfiles url _ rfl rfl
      rw [DiskState.CallSound, DiskState.MetaReadable, DiskState.readableMeta, hmeta, hbody]
      exact h
    | readMeta =>
      obtain ⟨hmeta, hbody⟩ := hfiles url _ rfl rfl
      rw [DiskState.CallSound, DiskState.readableMeta, hmeta, hbody]
      exact h
    | readBody info =>
      obtain ⟨-, hbody⟩ := hfiles url _ rfl rfl
      obtain ⟨bytes, hread, hmem⟩ := h
      exact ⟨bytes, hbody.trans hread, hstored hmem⟩
    | returned answer =>
      rcases h with hmiss | ⟨hit, hhit, hmem⟩
      · exact .inl hmiss
      · exact .inr ⟨hit, hhit, hstored hmem⟩
    | metaExists | removeMeta | removeBody => trivial
  · trivial

/-- **One step of the disk cache.** -/
theorem DiskState.Sound.step (h : s.Sound cfg) (hundamaged : s.Undamaged cfg event) (hstep : s.step cfg event = some s') :
    s'.Sound cfg := by
  obtain ⟨side', call', hside, hholder, hstored, hmoved⟩ := holder_step hstep
  intro side call hcall
  rw [hholder] at hcall
  -- the side of the event goes on, the other one waits
  rcases side'.eq_or_other side with rfl | rfl
  · rw [Function.update_self] at hcall
    subst hcall
    cases hmoved with
    | beginGet | beginSet | set => trivial
    | advanceGet hbefore hget =>
      have hfinds := hundamaged.finds
      rw [hside, hbefore] at hfinds
      exact (h _ _ hbefore).advance hfinds hget rfl hstored
    | failGet hbefore _ hget =>
      have hfinds := hundamaged.finds
      rw [hside, hbefore] at hfinds
      exact (h _ _ hbefore).fail hfinds hget
  · rw [Function.update_of_ne side'.other_ne] at hcall
    refine (h _ _ hcall).kept hstored fun url phase hget hlooking => ?_
    have hleaves := hundamaged.leaves
    rw [hside, hcall, hget] at hleaves
    exact hleaves hlooking s' hstep

/-! ## A call with nothing in between -/

theorem DiskState.answers_of_run (count : ℕ) {answer : Except String (Option CachedInlineData)}
    {holder : Side → Option DiskCall} {begun stored : List (String × CachedInlineData)}
    (hrun : run (DiskState.step cfg) s (.get side url :: .replicate count (.advance side now)) =
      some (atCall holder begun stored side dir (.get url (.returned answer)))) : s.Answers cfg side url now answer :=
  ⟨count, _, hrun, holder_atCall _⟩

/-- `get`, where there is no body. -/
theorem DiskState.bodyMissing_run (hfree : s.holder side = none) (hmeta : (s.dir.names (cfg.metaPath url)).isSome)
    (hbody : s.dir.names (cfg.bodyPath url) = none) :
    run (DiskState.step cfg) s [.get side url, .advance side now, .advance side now] =
      some (atCall s.holder s.begun s.stored side s.dir (.get url (.returned (.ok none)))) := by
  have hmetaExists : advanceGet cfg s.dir url now .metaExists = some (s.dir, .bodyExists) := by
    rw [advanceGet, if_pos hmeta]
  have hbodyExists : advanceGet cfg s.dir url now .bodyExists = some (s.dir, .returned (.ok none)) := by
    rw [advanceGet, hbody]
    rfl
  rw [run_cons_of_step (step_get hfree), run_cons_of_step (step_advance_get hmetaExists),
    run_cons_of_step (step_advance_get hbodyExists)]
  rfl

/-- `get`, where the entry has expired. -/
theorem DiskState.expired_run {metaBytes : List UInt8} {info : DiskMeta} (hfree : s.holder side = none)
    (hmeta : s.dir.read (cfg.metaPath url) = some metaBytes) (hinfo : cfg.codec.fromSlice metaBytes = .ok info)
    (hbody : (s.dir.names (cfg.bodyPath url)).isSome) (hexpired : now > info.expiresAtUnixMs) :
    run (DiskState.step cfg) s (.get side url :: .replicate 5 (.advance side now)) =
      some (atCall s.holder s.begun s.stored side ((s.dir.unlink (cfg.metaPath url)).unlink (cfg.bodyPath url))
        (.get url (.returned (.ok none)))) := by
  have hreadMeta : advanceGet cfg s.dir url now .readMeta = some (s.dir, .removeMeta) := by
    rw [advanceGet, hmeta, Option.map_some, hinfo]
    dsimp only
    rw [if_pos hexpired]
  have hremoveMeta : advanceGet cfg s.dir url now .removeMeta = some (s.dir.unlink (cfg.metaPath url), .removeBody) := rfl
  have hremoveBody : advanceGet cfg (s.dir.unlink (cfg.metaPath url)) url now .removeBody =
      some ((s.dir.unlink (cfg.metaPath url)).unlink (cfg.bodyPath url), .returned (.ok none)) := rfl
  rw [List.replicate_succ, List.replicate_succ, exists_run hfree (names_of_read hmeta) hbody, List.replicate_succ,
    run_cons_of_step (step_advance_get hreadMeta), List.replicate_succ, run_cons_of_step (step_advance_get hremoveMeta),
    List.replicate_succ, run_cons_of_step (step_advance_get hremoveBody)]
  rfl

/-- **A call does harm exactly if it finds its entry damaged.** -/
theorem DiskState.answers_alone (hfree : s.holder side = none) (url : String) (now : UInt64) :
    ∃ answer, s.Answers cfg side url now answer ∧
      (IsMissOrStored s.stored url answer ↔ s.MetaReadable cfg url ∧ s.BodyStored cfg url now) := by
  rcases hmeta : s.dir.read (cfg.metaPath url) with _ | metaBytes
  · have hnames : s.dir.names (cfg.metaPath url) = none := Option.map_eq_none_iff.mp hmeta
    refine ⟨.ok none, answers_of_run 1 (miss_run hfree hnames), iff_of_true (.inl rfl) ⟨fun hsome => ?_, fun info hinfo => ?_⟩⟩
    · rw [hmeta] at hsome
      cases hsome
    · rw [readableMeta, hmeta] at hinfo
      cases hinfo
  rcases hbody : s.dir.read (cfg.bodyPath url) with _ | bytes
  · have hnames : s.dir.names (cfg.bodyPath url) = none := Option.map_eq_none_iff.mp hbody
    refine ⟨.ok none, answers_of_run 2 (bodyMissing_run hfree (names_of_read hmeta) hnames), iff_of_true (.inl rfl) ?_⟩
    refine ⟨fun _ hsome => ?_, fun _ _ _ bytes hread => ?_⟩
    · rw [hbody] at hsome
      cases hsome
    · rw [hbody] at hread
      cases hread
  have hbodyThere := names_of_read hbody
  rcases hinfo : cfg.codec.fromSlice metaBytes with text | info
  · -- metadata that are none
    refine ⟨.error text, answers_of_run 3 (broken_run hfree hmeta hbodyThere hinfo), iff_of_false ?_ ?_⟩
    · rintro (hmiss | ⟨hit, hhit, -⟩)
      · cases hmiss
      · cases hhit
    · rintro ⟨hreadable, -⟩
      rw [MetaReadable, readableMeta, hmeta, hbody, Option.bind_some, hinfo] at hreadable
      cases hreadable rfl rfl
  have hreadable := readableMeta_of_read hmeta hinfo
  have hmetaReadable : s.MetaReadable cfg url := fun _ _ => by rw [hreadable]; rfl
  by_cases hexpired : now > info.expiresAtUnixMs
  · refine ⟨.ok none, answers_of_run 5 (expired_run hfree hmeta hinfo hbodyThere hexpired),
      iff_of_true (.inl rfl) ⟨hmetaReadable, fun info' hinfo' hle => ?_⟩⟩
    obtain rfl := Option.some.inj (hreadable.symm.trans hinfo')
    exact absurd hexpired (UInt64.not_lt.mpr hle)
  · refine ⟨.ok (some ⟨info.mimeType, bytes⟩), answers_of_run 4 (get_run hfree hmeta hinfo hbody hexpired), ?_⟩
    constructor
    · rintro (hmiss | ⟨hit, hhit, hmem⟩)
      · cases hmiss
      · obtain rfl := Option.some.inj (Except.ok.inj hhit)
        refine ⟨hmetaReadable, fun info' hinfo' _ bytes' hbytes' => ?_⟩
        obtain rfl := Option.some.inj (hreadable.symm.trans hinfo')
        obtain rfl := Option.some.inj (hbody.symm.trans hbytes')
        exact hmem
    · rintro ⟨-, hstored⟩
      exact .inr ⟨_, rfl, hstored info hreadable (UInt64.not_lt.mp hexpired) bytes hbody⟩

end

section

variable {config : InlineDataUrlConfig} {codec : DiskCodec} {encodeWebp : List UInt8 → Option (List UInt8)}
  {s s' : FetchServices} {event : ServicesEvent}

/-! ## Both services -/

/-- **A fetch goes on after a miss, and ends with a hit.** -/
theorem goesOn_of_answers (h : ∀ side url answer, s.disk.holder side = some (.get url (.returned answer)) →
    IsMissOrStored s.disk.stored url answer) : Harmless config codec encodeWebp s := by
  refine ⟨h, fun side c answer s' hstep => ?_⟩
  obtain ⟨service, fetch, -, hfetch, huse, disk, -, rfl⟩ := services_fetch_step hstep
  obtain ⟨hhas, call, hcall, hmiss, hhit⟩ := step_diskAnswer hfetch
  have hgot : (s.fetches side).diskUse (.diskAnswer c answer) = some (.got call.url answer) := by
    rw [FetchState.diskUse, hcall, Option.map_some]
  obtain ⟨diskCall, hholder, hreturned⟩ := Option.bind_eq_some_iff.mp (huse _ hgot hhas)
  obtain rfl := get_of_use hreturned
  have hself : Function.update s.fetches side fetch side = fetch := Function.update_self ..
  refine ⟨call, hcall, ?_⟩
  rcases h side call.url answer hholder with hanswer | ⟨hit, hanswer, hstored⟩
  · exact .inl (hself.trans (hmiss hanswer))
  · exact .inr ⟨hit, hstored, hself.trans (hhit hit hanswer)⟩

theorem sound_step (h : s.disk.Sound (config.diskCacheConfig codec)) (hundamaged : s.Undamaged config codec event)
    (hstep : s.step config codec encodeWebp event = some s') : s'.disk.Sound (config.diskCacheConfig codec) := by
  cases event with
  | fetch side event =>
    obtain ⟨service, fetch, -, -, -, disk, hdisk, rfl⟩ := services_fetch_step hstep
    rcases hdisk with rfl | rfl
    · exact h
    · -- the call that has returned lets its lock go
      intro side' call hcall
      by_cases hside : side' = side
      · subst hside
        rw [DiskState.holder_setHolder_self] at hcall
        cases hcall
      · rw [DiskState.holder_setHolder_of_ne hside] at hcall
        exact h side' call hcall
  | disk event =>
    obtain ⟨-, disk, hdisk, rfl⟩ := services_disk_step hstep
    exact h.step hundamaged hdisk

/-- **A run over any directory does no harm as long as no call of `get` finds a damaged entry** or is disturbed
while it looks at it. And after any such run a call with nothing in between does none exactly if what it finds is
not damaged. -/
theorem harmless_reach {dir : Disk} {stored : List (String × CachedInlineData)}
    (hreach : Reach (FetchServices.step config codec encodeWebp) (FetchServices.Undamaged config codec)
      (FetchServices.start config dir stored) s) :
    Harmless config codec encodeWebp s ∧ ∀ side url now, s.disk.holder side = none →
      ∃ answer, s.disk.Answers (config.diskCacheConfig codec) side url now answer ∧
        (IsMissOrStored s.disk.stored url answer ↔
          s.disk.MetaReadable (config.diskCacheConfig codec) url ∧ s.disk.BodyStored (config.diskCacheConfig codec) url now) := by
  have hstart : (FetchServices.start config dir stored).disk.Sound (config.diskCacheConfig codec) := nofun
  have hsound : s.disk.Sound (config.diskCacheConfig codec) :=
    hreach.invariant hstart fun _ _ _ h hundamaged hstep => sound_step h hundamaged hstep
  exact ⟨goesOn_of_answers fun side url answer hholder => hsound side _ hholder,
    fun side url now hfree => DiskState.answers_alone hfree url now⟩

end

/-! ## Three directories -/

/-- Metadata without their body. -/
def halfDir (cfg : DiskCacheConfig) : Disk :=
  DiskState.written .empty (cfg.metaPath cachedUrl) (cfg.codec.toVec ⟨"image/png", 3600000, 2⟩)

def wholeImage : CachedInlineData := ⟨"image/png", [0x89, 0x50]⟩

/-- Both files of an image. -/
def wholeDir (cfg : DiskCacheConfig) : Disk := DiskState.afterSet cfg .empty cachedUrl wholeImage 0

/-- A fetch that looks at the disk, where a call of `get` takes so many steps. -/
def lookingEvents (count : ℕ) : List ServicesEvent :=
  [.fetch .request (.fetch cachedUrl), .fetch .request (.advance 0)] ++
    (DiskEvent.get .request cachedUrl :: .replicate count (.advance .request 0)).map .disk

/-- A half is a miss, and a whole entry a hit. -/
theorem harmless_reach_example : ∃ half whole : FetchServices,
    half.disk.holder .request = some (.get cachedUrl (.returned (.ok none))) ∧
      Harmless sharedConfig cachedUrlCodec (fun _ => none) half ∧
      whole.disk.holder .request = some (.get cachedUrl (.returned (.ok (some wholeImage)))) ∧
      Harmless sharedConfig cachedUrlCodec (fun _ => none) whole := by
  let cfg := sharedConfig.diskCacheConfig cachedUrlCodec
  have hhalf : (runMeeting (FetchServices.step sharedConfig cachedUrlCodec fun _ => none)
      (FetchServices.Undamaged sharedConfig cachedUrlCodec) (FetchServices.start sharedConfig (halfDir cfg) [])
      (lookingEvents 2)).map (fun s => s.disk.holder .request) =
        some (some (.get cachedUrl (.returned (.ok none)))) := by decide +kernel
  have hwhole : (runMeeting (FetchServices.step sharedConfig cachedUrlCodec fun _ => none)
      (FetchServices.Undamaged sharedConfig cachedUrlCodec)
      (FetchServices.start sharedConfig (wholeDir cfg) [(cachedUrl, wholeImage)])
      (lookingEvents 4)).map (fun s => s.disk.holder .request) =
        some (some (.get cachedUrl (.returned (.ok (some wholeImage))))) := by decide +kernel
  obtain ⟨half, hrunHalf, hhalf⟩ := Option.map_eq_some_iff.mp hhalf
  obtain ⟨whole, hrunWhole, hwhole⟩ := Option.map_eq_some_iff.mp hwhole
  exact ⟨half, whole, hhalf, (harmless_reach (runMeeting_reach hrunHalf)).1, hwhole,
    (harmless_reach (runMeeting_reach hrunWhole)).1⟩

/-- Both files are there, and empty. -/
def damagedDir (cfg : DiskCacheConfig) : Disk := (Disk.empty.create (cfg.bodyPath cachedUrl)).create (cfg.metaPath cachedUrl)

theorem read_damagedDir (cfg : DiskCacheConfig) : (damagedDir cfg).read (cfg.metaPath cachedUrl) = some [] := by
  rw [damagedDir, Disk.read, Disk.names_create, if_pos rfl, Option.map_some, Disk.contents_create, if_pos rfl]

theorem isSome_damagedDir (cfg : DiskCacheConfig) : ((damagedDir cfg).names (cfg.bodyPath cachedUrl)).isSome := by
  rw [damagedDir, Disk.names_create]
  split
  · rfl
  · rw [Disk.names_create, if_pos rfl]
    rfl

/-- Empty metadata: `get` returns an error, and so do all fetches of the URL. -/
theorem emptyMeta_fails : ¬ ∀ config codec encodeWebp dir stored s,
    Reach (FetchServices.step config codec encodeWebp) Any (FetchServices.start config dir stored) s →
    Harmless config codec encodeWebp s := by
  intro h
  let cfg := sharedConfig.diskCacheConfig cachedUrlCodec
  have hdisk : (sharedService .request).hasDiskCache = true := rfl
  obtain ⟨s₁, h₁, hfetch₁, -, hdisk₁⟩ := reach_fetches cachedUrlCodec (fun _ => none)
    (s := FetchServices.start sharedConfig (damagedDir cfg) []) (sharedService_eq .request) rfl (asking_run _)
  have hinfo : cfg.codec.fromSlice [] = .error "invalid metadata" := by decide +kernel
  have hmeta : s₁.disk.dir.read (cfg.metaPath cachedUrl) = some [] := by
    rw [hdisk₁]
    exact read_damagedDir cfg
  have hbody : (s₁.disk.dir.names (cfg.bodyPath cachedUrl)).isSome := by
    rw [hdisk₁]
    exact isSome_damagedDir cfg
  have hfree : s₁.disk.holder .request = none := by
    rw [hdisk₁]
    rfl
  have hrun := @DiskState.broken_run cfg .request cachedUrl 0 s₁.disk _ _ hfree hmeta hbody hinfo
  obtain ⟨s₂, h₂, -, hdisk₂⟩ := reach_disk cachedUrlCodec (fun _ => none) (sharedService_eq .request) hdisk hfetch₁ rfl
    (by simp [DiskEvent.side, FetchState.mayStart]) hrun
  have hholder : s₂.disk.holder .request = some (.get cachedUrl (.returned (.error "invalid metadata"))) := by
    rw [hdisk₂]
    exact DiskState.holder_atCall _
  have hharmless := h sharedConfig cachedUrlCodec (fun _ => none) (damagedDir cfg) [] s₂ (h₁.trans h₂)
  -- an error is no miss and no hit
  rcases hharmless.answers .request cachedUrl _ hholder with hmiss | ⟨hit, hhit, -⟩
  · cases hmiss
  · cases hhit

end GeminiWorker
