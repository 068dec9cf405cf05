import GeminiWorker.Lib.Disk
import GeminiWorker.Lib.Except
import GeminiWorker.Lib.Hex
import GeminiWorker.Lib.Text
import GeminiWorker.Lib.Transition
import GeminiWorker.Spec.MemoryCache
import Mathlib.Data.List.Sort

/-!
# The disk cache, file operation by file operation

`DiskCache` of `cache.rs`, once for each of the two fetch services of `build_router`. Both work in one
directory, but each has an `io_lock` of its own. An image lies in two files, body and metadata, and
`set` writes one after the other.

* A step is one operation on a file. `fs::write` is more than one: it creates the file, or empties it,
  and then writes its bytes part by part.
* The clock, the listing of the directory and what fails are up to the environment.
-/

namespace GeminiWorker

structure DiskMeta where
  mimeType : String
  expiresAtUnixMs : UInt64
  sizeBytes : UInt64
deriving DecidableEq

/-- What `sha2` and `serde_json` do for the cache. -/
structure DiskCodec where
  sha256 : List UInt8 → List UInt8
  toVec : DiskMeta → List UInt8
  fromSlice : List UInt8 → Except String DiskMeta
  fromSlice_toVec : ∀ info, fromSlice (toVec info) = .ok info

structure DiskCacheConfig where
  codec : DiskCodec
  /-- `ttl.as_millis() as u64`. -/
  ttl : UInt64
  maxBytes : UInt64

namespace DiskCacheConfig

variable (cfg : DiskCacheConfig)

def cacheKey (url : String) : String := Hex.encode (cfg.codec.sha256 (Text.bytes url))

def metaPath (url : String) : String := cfg.cacheKey url ++ ".json"

def bodyPath (url : String) : String := cfg.cacheKey url ++ ".bin"

end DiskCacheConfig

/-- The service a call belongs to. -/
inductive Side where
  | request
  | response
deriving DecidableEq

def Side.other : Side → Side
  | .request => .response
  | .response => .request

/-- What a call of `get` does next. -/
inductive GetPhase where
  | metaExists
  | bodyExists
  | readMeta
  | removeMeta
  | removeBody
  | readBody (info : DiskMeta)
  | returned (answer : Except String (Option CachedInlineData))
deriving DecidableEq

/-- An entry that `prune_if_needed` has found. -/
structure PruneEntry where
  modified : ℕ
  stem : String
  sizeBytes : UInt64
deriving DecidableEq

/-- What a call of `set` does next. -/
inductive SetPhase where
  | createDir
  | createBody
  | writeBody (file written : ℕ)
  | createMeta
  | writeMeta (file : ℕ) (bytes : List UInt8) (written : ℕ)
  | readDir
  /-- With the names of the directory that are left, and when each was modified. -/
  | readEntries (names : List (Except String (String × ℕ))) (totalBytes : UInt64) (entries : List PruneEntry)
  | removeMeta (totalBytes : UInt64) (entries : List PruneEntry)
  | removeBody (totalBytes : UInt64) (entry : PruneEntry) (entries : List PruneEntry)
  | returned (result : Except String Unit)
deriving DecidableEq

/-- A call that holds its `io_lock`. -/
inductive DiskCall where
  | get (url : String) (phase : GetPhase)
  | set (url : String) (value : CachedInlineData) (phase : SetPhase)
deriving DecidableEq

structure DiskState where
  dir : Disk
  holder : Side → Option DiskCall
  /-- What `set` was called with, and of this what has both its files. -/
  begun : List (String × CachedInlineData)
  stored : List (String × CachedInlineData)

inductive DiskEvent where
  | get (side : Side) (url : String)
  | set (side : Side) (url : String) (value : CachedInlineData)
  | advance (side : Side) (now : UInt64)
  /-- Some of the bytes are written. -/
  | write (side : Side) (count : ℕ)
  | listDir (side : Side) (names : List (Except String (String × ℕ)))
  | fail (side : Side) (text : String)
  | release (side : Side)
deriving DecidableEq

/-- What stands before the extension, where it is `json`. -/
def jsonStem (name : String) : Option String :=
  let chars := name.toList
  if Text.endsWith ".json" name ∧ 5 < chars.length then some (String.ofList (chars.take (chars.length - 5)))
  else none

/-- `saturating_sub`. -/
def saturatingSub (a b : UInt64) : UInt64 := if b ≤ a then a - b else 0

section

variable (cfg : DiskCacheConfig) (dir : Disk)

def advanceGet (url : String) (now : UInt64) : GetPhase → Option (Disk × GetPhase)
  | .metaExists =>
    some (dir, if (dir.names (cfg.metaPath url)).isSome then .bodyExists else .returned (.ok none))
  | .bodyExists => some (dir, if (dir.names (cfg.bodyPath url)).isSome then .readMeta else .returned (.ok none))
  | .readMeta => (dir.read (cfg.metaPath url)).map fun bytes =>
      match cfg.codec.fromSlice bytes with
      | .error text => (dir, .returned (.error text))
      | .ok info => (dir, if now > info.expiresAtUnixMs then .removeMeta else .readBody info)
  | .removeMeta => some (dir.unlink (cfg.metaPath url), .removeBody)
  | .removeBody => some (dir.unlink (cfg.bodyPath url), .returned (.ok none))
  | .readBody info => (dir.read (cfg.bodyPath url)).map fun bytes =>
      (dir, .returned (.ok (some ⟨info.mimeType, bytes⟩)))
  | .returned _ => none

/-- `exists` takes an error for an answer, and `get` does not look at what `remove_file` returns. -/
def failGet (text : String) : GetPhase → Option GetPhase
  | .metaExists | .bodyExists | .removeBody => some (.returned (.ok none))
  | .readMeta | .readBody _ => some (.returned (.error text))
  | .removeMeta => some .removeBody
  | .returned _ => none

/-- What `prune_if_needed` does after an entry: the entries left go by age, until the rest fits. -/
def pruneNext (totalBytes : UInt64) (entries : List PruneEntry) : SetPhase :=
  if totalBytes ≤ cfg.maxBytes ∨ entries = [] then .returned (.ok ()) else .removeMeta totalBytes entries

/-- `prune_if_needed`, for one name of the directory. -/
def readEntry (totalBytes : UInt64) (entries : List PruneEntry) (name : String) (modified : ℕ) :
    UInt64 × List PruneEntry :=
  match jsonStem name, (dir.read name).map cfg.codec.fromSlice with
  | some stem, some (.ok info) => (totalBytes + info.sizeBytes, entries ++ [⟨modified, stem, info.sizeBytes⟩])
  | _, _ => (totalBytes, entries)

def advanceSet (url : String) (value : CachedInlineData) (now : UInt64) : SetPhase → Option (Disk × SetPhase)
  | .createDir => some (dir, .createBody)
  | .createBody => some (dir.create (cfg.bodyPath url), .writeBody (dir.createdFile (cfg.bodyPath url)) 0)
  | .writeBody _ written => if written = value.bytes.length then some (dir, .createMeta) else none
  | .createMeta =>
    let bytes := cfg.codec.toVec ⟨value.mimeType, now + cfg.ttl, UInt64.ofNat value.bytes.length⟩
    some (dir.create (cfg.metaPath url), .writeMeta (dir.createdFile (cfg.metaPath url)) bytes 0)
  | .writeMeta _ bytes written => if written = bytes.length then some (dir, .readDir) else none
  | .readDir => none
  | .readEntries [] totalBytes entries =>
    some (dir, pruneNext cfg totalBytes (entries.insertionSort fun e e' => e.modified ≤ e'.modified))
  | .readEntries (.error text :: _) _ _ => some (dir, .returned (.error text))
  | .readEntries (.ok (name, modified) :: names) totalBytes entries =>
    let (totalBytes, entries) := readEntry cfg dir totalBytes entries name modified
    some (dir, .readEntries names totalBytes entries)
  | .removeMeta _ [] => none
  | .removeMeta totalBytes (entry :: entries) =>
    some (dir.unlink (entry.stem ++ ".json"), .removeBody totalBytes entry entries)
  | .removeBody totalBytes entry entries =>
    some (dir.unlink (entry.stem ++ ".bin"), pruneNext cfg (saturatingSub totalBytes entry.sizeBytes) entries)
  | .returned _ => none

/-- One part of what `fs::write` writes. -/
def writeSet (value : CachedInlineData) (count : ℕ) : SetPhase → Option (Disk × SetPhase)
  | .writeBody file written =>
    if 0 < count ∧ written + count ≤ value.bytes.length then
      some (dir.writeAt file written ((value.bytes.drop written).take count), .writeBody file (written + count))
    else none
  | .writeMeta file bytes written =>
    if 0 < count ∧ written + count ≤ bytes.length then
      some (dir.writeAt file written ((bytes.drop written).take count), .writeMeta file bytes (written + count))
    else none
  | _ => none

/-- `prune_if_needed` passes over what it cannot read or remove. -/
def failSet (value : CachedInlineData) (text : String) : SetPhase → Option SetPhase
  | .createDir | .createBody | .createMeta | .readDir => some (.returned (.error text))
  | .writeBody _ written => if written < value.bytes.length then some (.returned (.error text)) else none
  | .writeMeta _ bytes written => if written < bytes.length then some (.returned (.error text)) else none
  | .readEntries (.ok _ :: names) totalBytes entries => some (.readEntries names totalBytes entries)
  | .removeMeta totalBytes (entry :: entries) => some (.removeBody totalBytes entry entries)
  | .removeBody totalBytes entry entries =>
    some (pruneNext cfg (saturatingSub totalBytes entry.sizeBytes) entries)
  | .readEntries _ _ _ | .removeMeta _ [] | .returned _ => none

end

namespace DiskState

variable (cfg : DiskCacheConfig) (s : DiskState)

def setHolder (side : Side) (call : Option DiskCall) : DiskState :=
  { s with holder := Function.update s.holder side call }

/-- What is stored once the metadata is written. -/
def storedBy (url : String) (value : CachedInlineData) : SetPhase → List (String × CachedInlineData)
  | .writeMeta _ _ _ => (url, value) :: s.stored
  | _ => s.stored

def advance (side : Side) (now : UInt64) : DiskCall → Option DiskState
  | .get url phase => (advanceGet cfg s.dir url now phase).map fun (dir, phase) =>
      { s with dir }.setHolder side (some (.get url phase))
  | .set url value phase => (advanceSet cfg s.dir url value now phase).map fun (dir, phase') =>
      { s with dir, stored := s.storedBy url value phase }.setHolder side (some (.set url value phase'))

def fail (side : Side) (text : String) : DiskCall → Option DiskState
  | .get url phase => (failGet text phase).map fun phase => s.setHolder side (some (.get url phase))
  | .set url value phase => (failSet cfg value text phase).map fun phase =>
      s.setHolder side (some (.set url value phase))

def step : DiskEvent → Option DiskState
  | .get side url => if s.holder side = none then some (s.setHolder side (some (.get url .metaExists))) else none
  | .set side url value =>
    if s.holder side = none then
      some ({ s with begun := (url, value) :: s.begun }.setHolder side (some (.set url value .createDir)))
    else none
  | .advance side now => (s.holder side).bind (s.advance cfg side now)
  | .write side count =>
    match s.holder side with
    | some (.set url value phase) => (writeSet s.dir value count phase).map fun (dir, phase) =>
        { s with dir }.setHolder side (some (.set url value phase))
    | _ => none
  | .listDir side names =>
    match s.holder side with
    | some (.set url value .readDir) =>
      some (s.setHolder side (some (.set url value (.readEntries names 0 []))))
    | _ => none
  | .fail side text => (s.holder side).bind (s.fail cfg side text)
  | .release side =>
    match s.holder side with
    | some (.get _ (.returned _)) | some (.set _ _ (.returned _)) => some (s.setHolder side none)
    | _ => none

/-- A directory that holds what was stored before. -/
def start (dir : Disk) (stored : List (String × CachedInlineData)) : DiskState :=
  ⟨dir, fun _ => none, stored, stored⟩

end DiskState

end GeminiWorker
