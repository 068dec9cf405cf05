import GeminiWorker.Proof.DiskCache
import GeminiWorker.Spec.FetchServices

/-!
# Steps of `get`

What a step of the disk cache is to a call of `get`: one of its own, or one that it is not part of.

* `HolderStep` and `holder_step`: the steps by the call that they leave to the side that takes them.
* `advanceGet_dir`, `advanceGet_removing`: only a call that has found its files expired removes any.
-/

namespace GeminiWorker

/-- A call of `get` that is removing files. -/
def DiskCall.isRemoving : DiskCall → Bool
  | .get _ .removeMeta | .get _ .removeBody => true
  | _ => false

/-- A step of a side, with the call that has the `io_lock` of the side afterwards. -/
inductive HolderStep (cfg : DiskCacheConfig) (s s' : DiskState) (side : Side) : DiskEvent → Option DiskCall → Prop
  | beginGet {url : String} (hdir : s'.dir = s.dir) : HolderStep cfg s s' side (.get side url) (some (.get url .metaExists))
  | beginSet {url : String} {value : CachedInlineData} (hdir : s'.dir = s.dir) :
      HolderStep cfg s s' side (.set side url value) (some (.set url value .createDir))
  | advanceGet {url : String} {now : UInt64} {phase phase' : GetPhase} (hcall : s.holder side = some (.get url phase))
      (hget : advanceGet cfg s.dir url now phase = some (s'.dir, phase')) :
      HolderStep cfg s s' side (.advance side now) (some (.get url phase'))
  | failGet {url text : String} {phase phase' : GetPhase} (hcall : s.holder side = some (.get url phase))
      (hdir : s'.dir = s.dir) (hget : failGet text phase = some phase') :
      HolderStep cfg s s' side (.fail side text) (some (.get url phase'))
  | set {event : DiskEvent} {url : String} {value : CachedInlineData} {phase phase' : SetPhase}
      (hcall : s.holder side = some (.set url value phase)) :
      HolderStep cfg s s' side event (some (.set url value phase'))
  | release (hdir : s'.dir = s.dir) : HolderStep cfg s s' side (.release side) none

section

variable {cfg : DiskCacheConfig} {s s' : DiskState} {event : DiskEvent} {dir dir' : Disk} {url : String} {now : UInt64}
  {phase phase' : GetPhase}

theorem DiskState.stored_storedBy (s : DiskState) (url : String) (value : CachedInlineData) (phase : SetPhase) :
    s.stored ⊆ s.storedBy url value phase := by
  cases phase with
  | writeMeta => exact List.subset_cons_self _ _
  | _ => exact List.Subset.refl _

/-- **The steps, by the side that takes them.** Nothing that is stored is forgotten. -/
theorem holder_step (h : s.step cfg event = some s') :
    ∃ side call', event.side = side ∧ s'.holder = Function.update s.holder side call' ∧ s.stored ⊆ s'.stored ∧
      HolderStep cfg s s' side event call' := by
  cases event with
  | get side url =>
    rw [DiskState.step] at h
    split at h
    · obtain rfl := Option.some.inj h
      exact ⟨_, _, rfl, rfl, List.Subset.refl _, .beginGet rfl⟩
    · cases h
  | set side url value =>
    rw [DiskState.step] at h
    split at h
    · obtain rfl := Option.some.inj h
      exact ⟨_, _, rfl, rfl, List.Subset.refl _, .beginSet rfl⟩
    · cases h
  | advance side now =>
    obtain ⟨call, hcall, hnext⟩ := Option.bind_eq_some_iff.mp h
    cases call with
    | get url phase =>
      obtain ⟨⟨dir, phase'⟩, hget, rfl⟩ := Option.map_eq_some_iff.mp hnext
      exact ⟨_, _, rfl, rfl, List.Subset.refl _, .advanceGet hcall hget⟩
    | set url value phase =>
      obtain ⟨⟨dir, phase'⟩, -, rfl⟩ := Option.map_eq_some_iff.mp hnext
      exact ⟨_, _, rfl, rfl, s.stored_storedBy url value phase, .set hcall⟩
  | write side count =>
    rw [DiskState.step] at h
    split at h
    · rename_i url value phase hcall
      obtain ⟨⟨dir, phase'⟩, -, rfl⟩ := Option.map_eq_some_iff.mp h
      exact ⟨_, _, rfl, rfl, List.Subset.refl _, .set hcall⟩
    · cases h
  | listDir side names =>
    rw [DiskState.step] at h
    split at h
    · rename_i url value hcall
      obtain rfl := Option.some.inj h
      exact ⟨_, _, rfl, rfl, List.Subset.refl _, .set hcall⟩
    · cases h
  | fail side text =>
    obtain ⟨call, hcall, hnext⟩ := Option.bind_eq_some_iff.mp h
    cases call with
    | get url phase =>
      obtain ⟨phase', hget, rfl⟩ := Option.map_eq_some_iff.mp hnext
      exact ⟨_, _, rfl, rfl, List.Subset.refl _, .failGet hcall rfl hget⟩
    | set url value phase =>
      obtain ⟨phase', -, rfl⟩ := Option.map_eq_some_iff.mp hnext
      exact ⟨_, _, rfl, rfl, List.Subset.refl _, .set hcall⟩
  | release side =>
    have hfree (hs' : s' = s.setHolder side none) : ∃ side' call', side = side' ∧
        s'.holder = Function.update s.holder side' call' ∧ s.stored ⊆ s'.stored ∧
        HolderStep cfg s s' side' (.release side) call' := by
      subst hs'
      exact ⟨_, _, rfl, rfl, List.Subset.refl _, .release rfl⟩
    rw [DiskState.step] at h
    split at h
    · exact hfree (Option.some.inj h).symm
    · exact hfree (Option.some.inj h).symm
    · cases h

/-- What a step of `get` does to the directory. -/
theorem advanceGet_dir (h : advanceGet cfg dir url now phase = some (dir', phase')) :
    dir' = dir ∨ (phase = .removeMeta ∧ dir' = dir.unlink (cfg.metaPath url)) ∨
      (phase = .removeBody ∧ dir' = dir.unlink (cfg.bodyPath url)) := by
  cases get_step h with
  | metaThere | metaMissing | bodyThere | bodyMissing | broken | expired | fresh | readBody => exact .inl rfl
  | removeMeta => exact .inr (.inl ⟨rfl, rfl⟩)
  | removeBody => exact .inr (.inr ⟨rfl, rfl⟩)

/-- It begins to remove files that it finds expired. -/
theorem advanceGet_removing (h : advanceGet cfg dir url now phase = some (dir', phase'))
    (hremoving : (DiskCall.get url phase').isRemoving = true) :
    (DiskCall.get url phase).isRemoving = true ∨
      ∃ bytes info, dir.read (cfg.metaPath url) = some bytes ∧ cfg.codec.fromSlice bytes = .ok info ∧
        info.expiresAtUnixMs < now := by
  cases get_step h with
  | metaThere | metaMissing | bodyThere | bodyMissing | broken | fresh | readBody => cases hremoving
  | expired hread hinfo hexpired => exact .inr ⟨_, _, hread, hinfo, hexpired⟩
  | removeMeta | removeBody => exact .inl rfl

theorem failGet_removing {text : String} (h : failGet text phase = some phase')
    (hremoving : (DiskCall.get url phase').isRemoving = true) : (DiskCall.get url phase).isRemoving = true := by
  cases phase with
  | removeMeta | removeBody => rfl
  | metaExists | bodyExists | readMeta | readBody =>
    obtain rfl := Option.some.inj h
    cases hremoving
  | returned => cases h

end

end GeminiWorker
