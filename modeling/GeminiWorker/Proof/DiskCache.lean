import GeminiWorker.Spec.DiskCache
import Mathlib.Order.Nat

/-!
# What a step of the disk cache does

* `DiskCall.isQuiet`: nothing depends on the files that a call is at.
* `CallStep`: the steps of a call, each with what it does to the directory.
* `DiskMoved` and `disk_moved`: the steps of the two caches, and that there are no others.
-/

namespace GeminiWorker

/-! ## Names of the files -/

section

variable {cfg : DiskCacheConfig} {url url' : String}

theorem append_inj_of_length {key key' ext ext' : String} (hlength : ext.toList.length = ext'.toList.length)
    (h : key ++ ext = key' ++ ext') : key = key' ∧ ext = ext' := by
  have hchars : key.toList ++ ext.toList = key'.toList ++ ext'.toList := by
    rw [← String.toList_append, ← String.toList_append, h]
  obtain ⟨hkey, hext⟩ := List.append_inj' hchars hlength
  exact ⟨String.toList_inj.mp hkey, String.toList_inj.mp hext⟩

theorem metaPath_inj (h : cfg.metaPath url = cfg.metaPath url') : cfg.cacheKey url = cfg.cacheKey url' :=
  (append_inj_of_length rfl h).1

theorem bodyPath_inj (h : cfg.bodyPath url = cfg.bodyPath url') : cfg.cacheKey url = cfg.cacheKey url' :=
  (append_inj_of_length rfl h).1

theorem json_ne_bin (stem stem' : String) : stem ++ ".json" ≠ stem' ++ ".bin" := by
  intro h
  have hjson : ".js" ++ "on" = ".json" := by decide
  have hbin : ".b" ++ "in" = ".bin" := by decide
  rw [← hjson, ← hbin, ← String.append_assoc, ← String.append_assoc] at h
  have hlength : "on".toList.length = "in".toList.length := by decide
  -- the last two letters differ
  exact absurd (append_inj_of_length hlength h).2 (by decide)

theorem metaPath_ne_bodyPath : cfg.metaPath url ≠ cfg.bodyPath url' := json_ne_bin _ _

end

/-! ## Steps of a call -/

@[simp] theorem DiskState.holder_setHolder_self (s : DiskState) (side : Side) (call : Option DiskCall) :
    (s.setHolder side call).holder side = call := by
  change Function.update s.holder side call side = call
  rw [Function.update_self]

theorem DiskState.holder_setHolder_of_ne {side side' : Side} (h : side' ≠ side) (s : DiskState)
    (call : Option DiskCall) : (s.setHolder side call).holder side' = s.holder side' := by
  change Function.update s.holder side call side' = s.holder side'
  rw [Function.update_of_ne h]

/-- Between the first and the last write of `set`. -/
def SetPhase.isWriting : SetPhase → Bool
  | .writeBody _ _ | .createMeta | .writeMeta _ _ _ => true
  | _ => false

def DiskCall.url : DiskCall → String
  | .get url _ | .set url _ _ => url

def DiskCall.isWriting : DiskCall → Bool
  | .set _ _ phase => phase.isWriting
  | .get _ _ => false

/-- Between the two reads of `get`. -/
def DiskCall.isReading : DiskCall → Bool
  | .get _ (.readBody _) => true
  | _ => false

/-- Not so, and no image is returned. -/
def DiskCall.isQuiet : DiskCall → Bool
  | .get _ (.readBody _) | .get _ (.returned (.ok (some _))) => false
  | .get _ _ => true
  | .set _ _ phase => !phase.isWriting

/-- What a call does in a step, with the directory and the images stored afterwards. -/
inductive CallStep (cfg : DiskCacheConfig) (s : DiskState) (side : Side) :
    DiskEvent → DiskCall → Disk → List (String × CachedInlineData) → DiskCall → Prop
  | quiet {event : DiskEvent} {call call' : DiskCall} (h : call.isQuiet = true) (h' : call'.isQuiet = true)
      (hurl : call'.url = call.url) (hset : ∀ url value phase, call' = .set url value phase →
        ∃ phase, call = .set url value phase) : CallStep cfg s side event call s.dir s.stored call'
  | unlink {event : DiskEvent} {call call' : DiskCall} (path : String) (h : call.isQuiet = true)
      (h' : call'.isQuiet = true) (hurl : call'.url = call.url) (hset : ∀ url value phase, call' = .set url value phase →
        ∃ phase, call = .set url value phase) :
      CallStep cfg s side event call (s.dir.unlink path) s.stored call'
  | readMeta {url : String} {now : UInt64} {bytes : List UInt8} {info : DiskMeta}
      (hread : s.dir.read (cfg.metaPath url) = some bytes) (hinfo : cfg.codec.fromSlice bytes = .ok info) :
      CallStep cfg s side (.advance side now) (.get url .readMeta) s.dir s.stored (.get url (.readBody info))
  | readBody {url : String} {now : UInt64} {bytes : List UInt8} {info : DiskMeta}
      (hread : s.dir.read (cfg.bodyPath url) = some bytes) :
      CallStep cfg s side (.advance side now) (.get url (.readBody info)) s.dir s.stored
        (.get url (.returned (.ok (some ⟨info.mimeType, bytes⟩))))
  | noBody {url : String} {text : String} {info : DiskMeta} :
      CallStep cfg s side (.fail side text) (.get url (.readBody info)) s.dir s.stored
        (.get url (.returned (.error text)))
  | createBody {url : String} {value : CachedInlineData} {now : UInt64} :
      CallStep cfg s side (.advance side now) (.set url value .createBody) (s.dir.create (cfg.bodyPath url)) s.stored
        (.set url value (.writeBody (s.dir.createdFile (cfg.bodyPath url)) 0))
  | writeBody {url : String} {value : CachedInlineData} {file written count : ℕ}
      (hcount : written + count ≤ value.bytes.length) :
      CallStep cfg s side (.write side count) (.set url value (.writeBody file written))
        (s.dir.writeAt file written ((value.bytes.drop written).take count)) s.stored
        (.set url value (.writeBody file (written + count)))
  | wroteBody {url : String} {value : CachedInlineData} {file : ℕ} {now : UInt64} :
      CallStep cfg s side (.advance side now) (.set url value (.writeBody file value.bytes.length)) s.dir s.stored
        (.set url value .createMeta)
  | createMeta {url : String} {value : CachedInlineData} {now : UInt64} (info : DiskMeta)
      (hmime : info.mimeType = value.mimeType) :
      CallStep cfg s side (.advance side now) (.set url value .createMeta) (s.dir.create (cfg.metaPath url)) s.stored
        (.set url value (.writeMeta (s.dir.createdFile (cfg.metaPath url)) (cfg.codec.toVec info) 0))
  | writeMeta {url : String} {value : CachedInlineData} {file written count : ℕ} {bytes : List UInt8}
      (hcount : written + count ≤ bytes.length) :
      CallStep cfg s side (.write side count) (.set url value (.writeMeta file bytes written))
        (s.dir.writeAt file written ((bytes.drop written).take count)) s.stored
        (.set url value (.writeMeta file bytes (written + count)))
  | wroteMeta {url : String} {value : CachedInlineData} {file : ℕ} {bytes : List UInt8} {now : UInt64} :
      CallStep cfg s side (.advance side now) (.set url value (.writeMeta file bytes bytes.length)) s.dir
        ((url, value) :: s.stored) (.set url value .readDir)
  | failed {url : String} {value : CachedInlineData} {phase : SetPhase} {text : String}
      (hphase : phase.isWriting = true) :
      CallStep cfg s side (.fail side text) (.set url value phase) s.dir s.stored
        (.set url value (.returned (.error text)))

/-- The steps. -/
inductive DiskMoved (cfg : DiskCacheConfig) (s : DiskState) : DiskEvent → DiskState → Prop
  | get {side : Side} {url : String} (hfree : s.holder side = none) :
      DiskMoved cfg s (.get side url) (s.setHolder side (some (.get url .metaExists)))
  | set {side : Side} {url : String} {value : CachedInlineData} (hfree : s.holder side = none) :
      DiskMoved cfg s (.set side url value)
        ({ s with begun := (url, value) :: s.begun }.setHolder side (some (.set url value .createDir)))
  | call {side : Side} {event : DiskEvent} {call call' : DiskCall} {dir : Disk}
      {stored : List (String × CachedInlineData)} (hcall : s.holder side = some call)
      (hstep : CallStep cfg s side event call dir stored call') :
      DiskMoved cfg s event ({ s with dir, stored }.setHolder side (some call'))
  | release {side : Side} {call : DiskCall} (hcall : s.holder side = some call) (hwriting : call.isWriting = false) :
      DiskMoved cfg s (.release side) (s.setHolder side none)

section

variable {cfg : DiskCacheConfig} {url : String} {s s' : DiskState} {side : Side} {event : DiskEvent} {call call' : DiskCall} {dir : Disk}
  {stored : List (String × CachedInlineData)}

/-- A step of `get` between phases that nothing depends on. -/
theorem CallStep.quietGet {phase phase' : GetPhase} (h : (DiskCall.get url phase).isQuiet = true)
    (h' : (DiskCall.get url phase').isQuiet = true) :
    CallStep cfg s side event (.get url phase) s.dir s.stored (.get url phase') :=
  .quiet h h' rfl (by rintro _ _ _ ⟨⟩)

theorem CallStep.unlinkGet {phase phase' : GetPhase} (path : String) (h : (DiskCall.get url phase).isQuiet = true)
    (h' : (DiskCall.get url phase').isQuiet = true) :
    CallStep cfg s side event (.get url phase) (s.dir.unlink path) s.stored (.get url phase') :=
  .unlink path h h' rfl (by rintro _ _ _ ⟨⟩)

variable {value : CachedInlineData}

theorem CallStep.quietSet {phase phase' : SetPhase} (h : phase.isWriting = false) (h' : phase'.isWriting = false) :
    CallStep cfg s side event (.set url value phase) s.dir s.stored (.set url value phase') := by
  refine .quiet ?_ ?_ rfl ?_
  · rw [DiskCall.isQuiet, h, Bool.not_false]
  · rw [DiskCall.isQuiet, h', Bool.not_false]
  · rintro _ _ _ ⟨⟩
    exact ⟨phase, rfl⟩

theorem CallStep.unlinkSet {phase phase' : SetPhase} (path : String) (h : phase.isWriting = false)
    (h' : phase'.isWriting = false) :
    CallStep cfg s side event (.set url value phase) (s.dir.unlink path) s.stored (.set url value phase') := by
  refine .unlink path ?_ ?_ rfl ?_
  · rw [DiskCall.isQuiet, h, Bool.not_false]
  · rw [DiskCall.isQuiet, h', Bool.not_false]
  · rintro _ _ _ ⟨⟩
    exact ⟨phase, rfl⟩

theorem pruneNext_isWriting (totalBytes : UInt64) (entries : List PruneEntry) :
    (pruneNext cfg totalBytes entries).isWriting = false := by
  unfold pruneNext
  split <;> rfl

/-! ## There are no others -/

/-- A step of `get`. -/
inductive GetStep (cfg : DiskCacheConfig) (dir : Disk) (url : String) (now : UInt64) : GetPhase → Disk → GetPhase → Prop
  | metaThere (h : (dir.names (cfg.metaPath url)).isSome = true) : GetStep cfg dir url now .metaExists dir .bodyExists
  | metaMissing (h : ¬ (dir.names (cfg.metaPath url)).isSome = true) :
      GetStep cfg dir url now .metaExists dir (.returned (.ok none))
  | bodyThere (h : (dir.names (cfg.bodyPath url)).isSome = true) : GetStep cfg dir url now .bodyExists dir .readMeta
  | bodyMissing (h : ¬ (dir.names (cfg.bodyPath url)).isSome = true) :
      GetStep cfg dir url now .bodyExists dir (.returned (.ok none))
  | broken {bytes : List UInt8} {text : String} (hread : dir.read (cfg.metaPath url) = some bytes)
      (hinfo : cfg.codec.fromSlice bytes = .error text) : GetStep cfg dir url now .readMeta dir (.returned (.error text))
  | expired {bytes : List UInt8} {info : DiskMeta} (hread : dir.read (cfg.metaPath url) = some bytes)
      (hinfo : cfg.codec.fromSlice bytes = .ok info) (hexpired : info.expiresAtUnixMs < now) :
      GetStep cfg dir url now .readMeta dir .removeMeta
  | fresh {bytes : List UInt8} {info : DiskMeta} (hread : dir.read (cfg.metaPath url) = some bytes)
      (hinfo : cfg.codec.fromSlice bytes = .ok info) (hfresh : ¬ info.expiresAtUnixMs < now) :
      GetStep cfg dir url now .readMeta dir (.readBody info)
  | removeMeta : GetStep cfg dir url now .removeMeta (dir.unlink (cfg.metaPath url)) .removeBody
  | removeBody : GetStep cfg dir url now .removeBody (dir.unlink (cfg.bodyPath url)) (.returned (.ok none))
  | readBody {info : DiskMeta} {bytes : List UInt8} (hread : dir.read (cfg.bodyPath url) = some bytes) :
      GetStep cfg dir url now (.readBody info) dir (.returned (.ok (some ⟨info.mimeType, bytes⟩)))

/-- **There are no other steps of `get`.** -/
theorem get_step {dir dir' : Disk} {phase phase' : GetPhase} {now : UInt64}
    (h : advanceGet cfg dir url now phase = some (dir', phase')) : GetStep cfg dir url now phase dir' phase' := by
  cases phase with
  | metaExists =>
    obtain ⟨rfl, rfl⟩ := Prod.mk.inj (Option.some.inj h)
    split
    · exact .metaThere ‹_›
    · exact .metaMissing ‹_›
  | bodyExists =>
    obtain ⟨rfl, rfl⟩ := Prod.mk.inj (Option.some.inj h)
    split
    · exact .bodyThere ‹_›
    · exact .bodyMissing ‹_›
  | readMeta =>
    obtain ⟨bytes, hread, hnext⟩ := Option.map_eq_some_iff.mp h
    rcases hinfo : cfg.codec.fromSlice bytes with text | info
    · rw [hinfo] at hnext
      obtain ⟨rfl, rfl⟩ := Prod.mk.inj hnext
      exact .broken hread hinfo
    · rw [hinfo] at hnext
      obtain ⟨rfl, rfl⟩ := Prod.mk.inj hnext
      split
      · exact .expired hread hinfo ‹_›
      · exact .fresh hread hinfo ‹_›
  | removeMeta =>
    obtain ⟨rfl, rfl⟩ := Prod.mk.inj (Option.some.inj h)
    exact .removeMeta
  | removeBody =>
    obtain ⟨rfl, rfl⟩ := Prod.mk.inj (Option.some.inj h)
    exact .removeBody
  | readBody info =>
    obtain ⟨bytes, hread, hnext⟩ := Option.map_eq_some_iff.mp h
    obtain ⟨rfl, rfl⟩ := Prod.mk.inj hnext
    exact .readBody hread
  | returned answer => cases h

theorem advanceGet_step {phase phase' : GetPhase} {now : UInt64}
    (h : advanceGet cfg s.dir url now phase = some (dir, phase')) :
    CallStep cfg s side (.advance side now) (.get url phase) dir s.stored (.get url phase') := by
  cases get_step h with
  | metaThere | metaMissing | bodyThere | bodyMissing | broken | expired => exact .quietGet rfl rfl
  | fresh hread hinfo => exact .readMeta hread hinfo
  | removeMeta | removeBody => exact .unlinkGet _ rfl rfl
  | readBody hread => exact .readBody hread

theorem failGet_step {phase phase' : GetPhase} {text : String} (h : failGet text phase = some phase') :
    CallStep cfg s side (.fail side text) (.get url phase) s.dir s.stored (.get url phase') := by
  cases phase with
  | metaExists | bodyExists | removeMeta | removeBody | readMeta =>
    obtain rfl := Option.some.inj h
    exact .quietGet rfl rfl
  | readBody info =>
    obtain rfl := Option.some.inj h
    exact .noBody
  | returned answer => cases h

theorem advanceSet_step {phase phase' : SetPhase} {now : UInt64}
    (h : advanceSet cfg s.dir url value now phase = some (dir, phase')) :
    CallStep cfg s side (.advance side now) (.set url value phase) dir (s.storedBy url value phase)
      (.set url value phase') := by
  cases phase with
  | createDir =>
    obtain ⟨rfl, rfl⟩ := Prod.mk.inj (Option.some.inj h)
    exact .quietSet rfl rfl
  | createBody =>
    obtain ⟨rfl, rfl⟩ := Prod.mk.inj (Option.some.inj h)
    exact .createBody
  | writeBody file written =>
    rw [advanceSet] at h
    split at h
    · rename_i hwritten
      obtain ⟨rfl, rfl⟩ := Prod.mk.inj (Option.some.inj h)
      rw [hwritten]
      exact .wroteBody
    · cases h
  | createMeta =>
    obtain ⟨rfl, rfl⟩ := Prod.mk.inj (Option.some.inj h)
    exact .createMeta _ rfl
  | writeMeta file bytes written =>
    rw [advanceSet] at h
    split at h
    · rename_i hwritten
      obtain ⟨rfl, rfl⟩ := Prod.mk.inj (Option.some.inj h)
      rw [hwritten]
      exact .wroteMeta
    · cases h
  | readDir => cases h
  | readEntries names totalBytes entries =>
    rcases names with _ | ⟨text | ⟨name, modified⟩, names⟩
    · obtain ⟨rfl, rfl⟩ := Prod.mk.inj (Option.some.inj h)
      exact .quietSet rfl (pruneNext_isWriting _ _)
    · obtain ⟨rfl, rfl⟩ := Prod.mk.inj (Option.some.inj h)
      exact .quietSet rfl rfl
    · obtain ⟨rfl, rfl⟩ := Prod.mk.inj (Option.some.inj h)
      exact .quietSet rfl rfl
  | removeMeta totalBytes entries =>
    rcases entries with _ | ⟨entry, entries⟩
    · cases h
    · obtain ⟨rfl, rfl⟩ := Prod.mk.inj (Option.some.inj h)
      exact .unlinkSet _ rfl rfl
  | removeBody totalBytes entry entries =>
    obtain ⟨rfl, rfl⟩ := Prod.mk.inj (Option.some.inj h)
    exact .unlinkSet _ rfl (pruneNext_isWriting _ _)
  | returned result => cases h

theorem writeSet_step {phase phase' : SetPhase} {count : ℕ}
    (h : writeSet s.dir value count phase = some (dir, phase')) :
    CallStep cfg s side (.write side count) (.set url value phase) dir s.stored (.set url value phase') := by
  cases phase with
  | writeBody file written =>
    rw [writeSet] at h
    split at h
    · rename_i hcount
      obtain ⟨rfl, rfl⟩ := Prod.mk.inj (Option.some.inj h)
      exact .writeBody hcount.2
    · cases h
  | writeMeta file bytes written =>
    rw [writeSet] at h
    split at h
    · rename_i hcount
      obtain ⟨rfl, rfl⟩ := Prod.mk.inj (Option.some.inj h)
      exact .writeMeta hcount.2
    · cases h
  | createDir | createBody | createMeta | readDir | readEntries | removeMeta | removeBody | returned => cases h

theorem failSet_step {phase phase' : SetPhase} {text : String}
    (h : failSet cfg value text phase = some phase') :
    CallStep cfg s side (.fail side text) (.set url value phase) s.dir s.stored (.set url value phase') := by
  cases phase with
  | createDir | createBody | readDir =>
    obtain rfl := Option.some.inj h
    exact .quietSet rfl rfl
  | createMeta =>
    obtain rfl := Option.some.inj h
    exact .failed rfl
  | writeBody file written =>
    rw [failSet] at h
    split at h
    · obtain rfl := Option.some.inj h
      exact .failed rfl
    · cases h
  | writeMeta file bytes written =>
    rw [failSet] at h
    split at h
    · obtain rfl := Option.some.inj h
      exact .failed rfl
    · cases h
  | readEntries names totalBytes entries =>
    rcases names with _ | ⟨text | entry, names⟩
    · cases h
    · cases h
    · obtain rfl := Option.some.inj h
      exact .quietSet rfl rfl
  | removeMeta totalBytes entries =>
    rcases entries with _ | ⟨entry, entries⟩
    · cases h
    · obtain rfl := Option.some.inj h
      exact .quietSet rfl rfl
  | removeBody totalBytes entry entries =>
    obtain rfl := Option.some.inj h
    exact .quietSet rfl (pruneNext_isWriting _ _)
  | returned result => cases h

theorem disk_moved (h : s.step cfg event = some s') : DiskMoved cfg s event s' := by
  cases event with
  | get side url =>
    rw [DiskState.step] at h
    split at h
    · rename_i hfree
      obtain rfl := Option.some.inj h
      exact .get hfree
    · cases h
  | set side url value =>
    rw [DiskState.step] at h
    split at h
    · rename_i hfree
      obtain rfl := Option.some.inj h
      exact .set hfree
    · cases h
  | advance side now =>
    obtain ⟨call, hcall, hnext⟩ := Option.bind_eq_some_iff.mp h
    cases call with
    | get url phase =>
      obtain ⟨⟨dir, phase'⟩, hget, rfl⟩ := Option.map_eq_some_iff.mp hnext
      exact .call hcall (advanceGet_step hget)
    | set url value phase =>
      obtain ⟨⟨dir, phase'⟩, hset, rfl⟩ := Option.map_eq_some_iff.mp hnext
      exact .call hcall (advanceSet_step hset)
  | write side count =>
    rw [DiskState.step] at h
    split at h
    · rename_i url value phase hcall
      obtain ⟨⟨dir, phase'⟩, hwrite, rfl⟩ := Option.map_eq_some_iff.mp h
      exact .call hcall (writeSet_step hwrite)
    · cases h
  | listDir side names =>
    rw [DiskState.step] at h
    split at h
    · rename_i url value hcall
      obtain rfl := Option.some.inj h
      exact .call hcall (.quietSet rfl rfl)
    · cases h
  | fail side text =>
    obtain ⟨call, hcall, hnext⟩ := Option.bind_eq_some_iff.mp h
    cases call with
    | get url phase =>
      obtain ⟨phase', hget, rfl⟩ := Option.map_eq_some_iff.mp hnext
      exact .call hcall (failGet_step hget)
    | set url value phase =>
      obtain ⟨phase', hset, rfl⟩ := Option.map_eq_some_iff.mp hnext
      exact .call hcall (failSet_step hset)
  | release side =>
    rw [DiskState.step] at h
    split at h
    · rename_i url answer hcall
      obtain rfl := Option.some.inj h
      exact .release hcall rfl
    · rename_i url value result hcall
      obtain rfl := Option.some.inj h
      exact .release hcall rfl
    · cases h

end

end GeminiWorker
