import GeminiWorker.Proof.DiskHolder
import GeminiWorker.Proof.DiskMeta
import GeminiWorker.Proof.DiskRun

/-!
# How long the disk cache holds an image

* `set_files`: `set` leaves the body, and metadata with the time it expires at.
* `Entry.step` and `entry_reach`: they stay as long as `set` does not touch them, at least until that time.
* `lifetime_iff`: an image is returned for as long as it is to be exactly if that time is a 64-bit number.
-/

namespace GeminiWorker

open Transition (Reach run)

namespace DiskState

section

variable (cfg : DiskCacheConfig) (url : String) (value : CachedInlineData) (now : UInt64)

/-- Calls of `set` leave the two files of the URL as they are, so that they are neither overwritten nor
pruned, and no clock reads more than a time. -/
structure KeepsEntry (latest : UInt64) (s : DiskState) (event : DiskEvent) : Prop where
  clock : ∀ side now, event = .advance side now → now ≤ latest
  files : ∀ url' value' phase s', s.holder event.side = some (.set url' value' phase) → s.step cfg event = some s' →
    s'.dir.read (cfg.metaPath url) = s.dir.read (cfg.metaPath url) ∧
      s'.dir.read (cfg.bodyPath url) = s.dir.read (cfg.bodyPath url)

/-- No call of `get` is about to remove the files of the URL. -/
def NoRemoval (s : DiskState) : Prop :=
  ∀ side call, s.holder side = some call → cfg.cacheKey call.url = cfg.cacheKey url → call.isRemoving = false

/-- `set`, with nothing in between, has written both files and is about to prune the directory. And the other
side has not found older files expired that it would remove now. -/
structure StoredAt (side : Side) (s : DiskState) : Prop where
  ran : ∃ start events, start.holder side = none ∧
    (∀ event ∈ events, event = .advance side now ∨ ∃ count, event = .write side count) ∧
    run (DiskState.step cfg) start (.set side url value :: events) = some s
  phase : s.holder side = some (.set url value .readDir)
  noRemoval : NoRemoval cfg url s

/-- `get`, with nothing in between, returns the image. -/
def ReturnedBy (s : DiskState) (side : Side) : Prop :=
  ∃ count s', run (DiskState.step cfg) s (.get side url :: .replicate count (.advance side now)) = some s' ∧
    s'.holder side = some (.get url (.returned (.ok (some value))))

/-- What is stored at a time is returned later exactly if the time to live is not over. -/
def LivesFor : Prop :=
  ∀ side later s s', now ≤ later → StoredAt cfg url value now side s →
    Reach (DiskState.step cfg) (KeepsEntry cfg url later) s s' → ∀ side', s'.holder side' = none →
      (ReturnedBy cfg url value later s' side' ↔ later.toNat ≤ now.toNat + cfg.ttl.toNat)

/-- Where a call of `set` is, and what it has written. -/
def SetAt (dir : Disk) : SetPhase → Prop
  | .createDir | .createBody => True
  | .writeBody file written => written ≤ value.bytes.length ∧ dir.names (cfg.bodyPath url) = some file ∧
      dir.Holds [(cfg.bodyPath url, value.bytes.take written)]
  | .createMeta => dir.Holds [(cfg.bodyPath url, value.bytes)]
  | .writeMeta file bytes written => bytes = cfg.codec.toVec (metaOf cfg value now) ∧ written ≤ bytes.length ∧
      dir.names (cfg.metaPath url) = some file ∧
      dir.Holds [(cfg.metaPath url, bytes.take written), (cfg.bodyPath url, value.bytes)]
  | .readDir => dir.Holds [(cfg.metaPath url, cfg.codec.toVec (metaOf cfg value now)), (cfg.bodyPath url, value.bytes)]
  | _ => False

/-- What lies in the directory after that, until a time. -/
structure Entry (latest : UInt64) (s : DiskState) : Prop where
  info : s.dir.OnlyReads (cfg.metaPath url) (cfg.codec.toVec (metaOf cfg value now))
  fresh : latest ≤ now + cfg.ttl → s.dir.read (cfg.metaPath url) = some (cfg.codec.toVec (metaOf cfg value now)) ∧
    s.dir.read (cfg.bodyPath url) = some value.bytes ∧ NoRemoval cfg url s

end

variable {cfg : DiskCacheConfig} {url : String} {value : CachedInlineData} {now latest : UInt64} {s s' : DiskState}
  {side : Side} {event : DiskEvent} {dir dir' : Disk}

/-! ## `set` -/

theorem SetAt.advance {phase phase' : SetPhase} (h : SetAt cfg url value now dir phase)
    (hstep : advanceSet cfg dir url value now phase = some (dir', phase')) : SetAt cfg url value now dir' phase' := by
  cases phase with
  | createDir =>
    obtain ⟨rfl, rfl⟩ := Prod.mk.inj (Option.some.inj hstep)
    trivial
  | createBody =>
    obtain ⟨rfl, rfl⟩ := Prod.mk.inj (Option.some.inj hstep)
    have hnone : dir.Holds [] := ⟨List.nodup_nil, nofun⟩
    refine ⟨Nat.zero_le _, ?_, hnone.create List.not_mem_nil⟩
    rw [Disk.names_create, if_pos rfl]
  | writeBody file written =>
    rw [advanceSet] at hstep
    split at hstep
    · rename_i hwritten
      obtain ⟨rfl, rfl⟩ := Prod.mk.inj (Option.some.inj hstep)
      obtain ⟨-, -, hholds⟩ := h
      rwa [hwritten, List.take_length] at hholds
    · cases hstep
  | createMeta =>
    obtain ⟨rfl, rfl⟩ := Prod.mk.inj (Option.some.inj hstep)
    refine ⟨rfl, Nat.zero_le _, ?_, Disk.Holds.create h ?_⟩
    · rw [Disk.names_create, if_pos rfl]
    · intro hmem
      exact metaPath_ne_bodyPath (List.mem_singleton.mp hmem)
  | writeMeta file bytes written =>
    rw [advanceSet] at hstep
    split at hstep
    · rename_i hwritten
      obtain ⟨rfl, rfl⟩ := Prod.mk.inj (Option.some.inj hstep)
      obtain ⟨rfl, -, -, hholds⟩ := h
      rwa [hwritten, List.take_length] at hholds
    · cases hstep
  | readDir => cases hstep
  | readEntries | removeMeta | removeBody | returned => exact h.elim

theorem take_append_chunk (bytes : List UInt8) (written count : ℕ) :
    bytes.take written ++ (bytes.drop written).take count = bytes.take (written + count) := List.take_add.symm

theorem SetAt.write {phase phase' : SetPhase} {count : ℕ} (h : SetAt cfg url value now dir phase)
    (hstep : writeSet dir value count phase = some (dir', phase')) : SetAt cfg url value now dir' phase' := by
  cases phase with
  | writeBody file written =>
    rw [writeSet] at hstep
    split at hstep
    · rename_i hcount
      obtain ⟨rfl, rfl⟩ := Prod.mk.inj (Option.some.inj hstep)
      obtain ⟨hle, hname, hholds⟩ := h
      refine ⟨hcount.2, hname, ?_⟩
      have hlength : (value.bytes.take written).length = written := by
        rw [List.length_take]
        omega
      have hnext := hholds.write hname ((value.bytes.drop written).take count)
      rwa [take_append_chunk, hlength] at hnext
    · cases hstep
  | writeMeta file bytes written =>
    rw [writeSet] at hstep
    split at hstep
    · rename_i hcount
      obtain ⟨rfl, rfl⟩ := Prod.mk.inj (Option.some.inj hstep)
      obtain ⟨hbytes, hle, hname, hholds⟩ := h
      refine ⟨hbytes, hcount.2, hname, ?_⟩
      have hlength : (bytes.take written).length = written := by
        rw [List.length_take]
        omega
      have hnext := hholds.write hname ((bytes.drop written).take count)
      rwa [take_append_chunk, hlength] at hnext
    · cases hstep
  | createDir | createBody | createMeta | readDir | readEntries | removeMeta | removeBody | returned => cases hstep

theorem setAt_run {events : List DiskEvent} {phase phase' : SetPhase}
    (hevents : ∀ event ∈ events, event = .advance side now ∨ ∃ count, event = .write side count)
    (hcall : s.holder side = some (.set url value phase)) (hat : SetAt cfg url value now s.dir phase)
    (hrun : run (DiskState.step cfg) s events = some s') (hcall' : s'.holder side = some (.set url value phase')) :
    SetAt cfg url value now s'.dir phase' := by
  induction events generalizing s phase with
  | nil =>
    obtain rfl := Option.some.inj hrun
    obtain ⟨-, -, rfl⟩ := DiskCall.set.inj (Option.some.inj (hcall.symm.trans hcall'))
    exact hat
  | cons event events ih =>
    have hrest := fun e he => hevents e (List.mem_cons_of_mem _ he)
    obtain ⟨t, hstep, hrun⟩ := Option.bind_eq_some_iff.mp hrun
    rcases hevents event (List.mem_cons_self ..) with rfl | ⟨count, rfl⟩
    · rw [step, hcall, Option.bind_some] at hstep
      obtain ⟨⟨dir, next⟩, hadvance, rfl⟩ := Option.map_eq_some_iff.mp hstep
      refine @ih _ next hrest ?_ ?_ hrun
      · exact holder_setHolder_self _ _ _
      · exact hat.advance hadvance
    · rw [step, hcall] at hstep
      obtain ⟨⟨dir, next⟩, hwrite, rfl⟩ := Option.map_eq_some_iff.mp hstep
      refine @ih _ next hrest ?_ ?_ hrun
      · exact holder_setHolder_self _ _ _
      · exact hat.write hwrite

/-- **`set` leaves the body, and metadata with the time it expires at.** -/
theorem set_files (h : StoredAt cfg url value now side s) :
    s.dir.Holds [(cfg.metaPath url, cfg.codec.toVec (metaOf cfg value now)), (cfg.bodyPath url, value.bytes)] := by
  obtain ⟨start, events, hfree, hevents, hrun⟩ := h.ran
  obtain ⟨t, hstep, hrun⟩ := Option.bind_eq_some_iff.mp hrun
  rw [step, if_pos hfree] at hstep
  obtain rfl := Option.some.inj hstep
  have hat := setAt_run hevents (holder_setHolder_self _ _ _) (show SetAt cfg url value now _ .createDir from trivial)
    hrun h.phase
  exact hat

/-! ## After `set` -/

theorem NoRemoval.update {call' : Option DiskCall} (h : NoRemoval cfg url s)
    (hholder : s'.holder = Function.update s.holder side call')
    (hcall : ∀ call, call' = some call → cfg.cacheKey call.url = cfg.cacheKey url → call.isRemoving = false) :
    NoRemoval cfg url s' := by
  intro side' call hside hkey
  rw [hholder] at hside
  by_cases hsame : side' = side
  · subst hsame
    rw [Function.update_self] at hside
    exact hcall call hside hkey
  · rw [Function.update_of_ne hsame] at hside
    exact h side' call hside hkey

/-- A step that leaves both files as they are. -/
theorem Entry.same (h : Entry cfg url value now latest s)
    (hmeta : s'.dir.read (cfg.metaPath url) = s.dir.read (cfg.metaPath url))
    (hbody : s'.dir.read (cfg.bodyPath url) = s.dir.read (cfg.bodyPath url))
    (hremoval : latest ≤ now + cfg.ttl → NoRemoval cfg url s → NoRemoval cfg url s') :
    Entry cfg url value now latest s' := by
  refine ⟨fun bytes hread => h.info bytes (hmeta ▸ hread), fun hlatest => ?_⟩
  obtain ⟨hreadMeta, hreadBody, hnone⟩ := h.fresh hlatest
  exact ⟨hmeta.trans hreadMeta, hbody.trans hreadBody, hremoval hlatest hnone⟩

theorem read_unlink_of_ne {path path' : String} (hne : path' ≠ path) : (dir.unlink path).read path' = dir.read path' := by
  rw [Disk.read, Disk.names_unlink, if_neg hne]
  rfl

/-- A step of `get`: only files that have expired go. -/
theorem Entry.advanceGet (h : Entry cfg url value now latest s) {url' : String} {now' : UInt64} (hclock : now' ≤ latest)
    {phase phase' : GetPhase} (hcall : s.holder side = some (.get url' phase))
    (hget : advanceGet cfg s.dir url' now' phase = some (s'.dir, phase'))
    (hholder : s'.holder = Function.update s.holder side (some (.get url' phase'))) : Entry cfg url value now latest s' := by
  have hkept : s.dir.Kept s'.dir (cfg.metaPath url) := by
    rcases advanceGet_dir hget with hdir | ⟨-, hdir⟩ | ⟨-, hdir⟩
    · rw [hdir]
      exact .refl _ _
    · rw [hdir]
      exact .unlink _ _ _
    · rw [hdir]
      exact .unlink _ _ _
  refine ⟨h.info.kept hkept, fun hlatest => ?_⟩
  obtain ⟨hmeta, hbody, hnone⟩ := h.fresh hlatest
  have hother (hremoving : (DiskCall.get url' phase).isRemoving = true) : cfg.cacheKey url' ≠ cfg.cacheKey url := by
    intro hkey
    rw [hnone side _ hcall hkey] at hremoving
    cases hremoving
  have hreads : s'.dir.read (cfg.metaPath url) = s.dir.read (cfg.metaPath url) ∧
      s'.dir.read (cfg.bodyPath url) = s.dir.read (cfg.bodyPath url) := by
    rcases advanceGet_dir hget with hdir | ⟨rfl, hdir⟩ | ⟨rfl, hdir⟩
    · rw [hdir]
      exact ⟨rfl, rfl⟩
    · rw [hdir]
      exact ⟨read_unlink_of_ne fun heq => hother rfl (metaPath_inj heq).symm,
        read_unlink_of_ne fun heq => metaPath_ne_bodyPath heq.symm⟩
    · rw [hdir]
      exact ⟨read_unlink_of_ne fun heq => metaPath_ne_bodyPath heq,
        read_unlink_of_ne fun heq => hother rfl (bodyPath_inj heq).symm⟩
  refine ⟨hreads.1.trans hmeta, hreads.2.trans hbody, hnone.update hholder ?_⟩
  intro call hnew hkey
  obtain rfl := Option.some.inj hnew
  rw [← Bool.not_eq_true]
  intro hremoving
  rcases advanceGet_removing hget hremoving with hbefore | ⟨bytes, info, hread, hinfo, hexpired⟩
  · exact hother hbefore hkey
  · -- its metadata are those of the image, which has not expired
    have hpath : cfg.metaPath url' = cfg.metaPath url := congrArg (· ++ ".json") hkey
    rw [hpath, hmeta] at hread
    obtain rfl := Option.some.inj hread
    rw [cfg.codec.fromSlice_toVec] at hinfo
    obtain rfl := Except.ok.inj hinfo
    have hle := UInt64.le_trans hclock hlatest
    exact absurd hexpired (UInt64.not_lt.mpr hle)

/-- **One step.** -/
theorem Entry.step (h : Entry cfg url value now latest s) (hkeeps : KeepsEntry cfg url latest s event)
    (hstep : s.step cfg event = some s') : Entry cfg url value now latest s' := by
  obtain ⟨side, call', hside, hholder, -, hmoved⟩ := holder_step hstep
  have hsame (hdir : s'.dir = s.dir) (hcall : ∀ call, call' = some call → cfg.cacheKey call.url = cfg.cacheKey url →
      call.isRemoving = false ∨ ∃ before, s.holder side = some before ∧
        cfg.cacheKey before.url = cfg.cacheKey url ∧ before.isRemoving = call.isRemoving) :
      Entry cfg url value now latest s' := by
    refine h.same (by rw [hdir]) (by rw [hdir]) fun _ hnone => hnone.update hholder fun call hnew hkey => ?_
    rcases hcall call hnew hkey with hnot | ⟨before, hbefore, hkeyBefore, hsame⟩
    · exact hnot
    · rw [← hsame]
      exact hnone _ before hbefore hkeyBefore
  cases hmoved with
  | beginGet hdir | beginSet hdir =>
    refine hsame hdir fun call hnew _ => .inl ?_
    rw [← Option.some.inj hnew]
    rfl
  | advanceGet hcall hget => exact h.advanceGet (hkeeps.clock _ _ rfl) hcall hget hholder
  | @failGet url' text phase phase' hcall hdir hget =>
    refine hsame hdir fun call hnew hkey => ?_
    obtain rfl := Option.some.inj hnew
    by_cases hremoving : (DiskCall.get url' phase').isRemoving = true
    · exact .inr ⟨_, hcall, hkey, (failGet_removing hget hremoving).trans hremoving.symm⟩
    · exact .inl (Bool.eq_false_iff.mpr hremoving)
  | set hcall =>
    obtain ⟨hmeta, hbody⟩ := hkeeps.files _ _ _ s' (hside ▸ hcall) hstep
    refine h.same hmeta hbody fun _ hnone => hnone.update hholder fun call hnew _ => ?_
    rw [← Option.some.inj hnew]
    rfl
  | release hdir => exact hsame hdir nofun

/-- **The whole run.** -/
theorem entry_reach (h : StoredAt cfg url value now side s)
    (hreach : Reach (DiskState.step cfg) (KeepsEntry cfg url latest) s s') : Entry cfg url value now latest s' := by
  have hfiles := set_files h
  have hmeta := hfiles.read (cfg.metaPath url, cfg.codec.toVec (metaOf cfg value now)) (List.mem_cons_self ..)
  have hbody := hfiles.read (cfg.bodyPath url, value.bytes) (List.mem_cons_of_mem _ (List.mem_cons_self ..))
  have hfirst : Entry cfg url value now latest s := by
    refine ⟨fun bytes hread => ?_, fun _ => ⟨hmeta, hbody, h.noRemoval⟩⟩
    exact Option.some.inj (hread.symm.trans hmeta)
  exact hreach.invariant hfirst fun t event u hentry hkeeps hstep => hentry.step hkeeps hstep

/-! ## `get` -/

theorem Entry.returned (h : Entry cfg url value now latest s) (hlatest : latest ≤ now + cfg.ttl)
    (hfree : s.holder side = none) : ReturnedBy cfg url value latest s side := by
  obtain ⟨hmeta, hbody, -⟩ := h.fresh hlatest
  have hfresh : ¬ latest > (metaOf cfg value now).expiresAtUnixMs := UInt64.not_lt.mpr hlatest
  exact ⟨4, _, get_run hfree hmeta (cfg.codec.fromSlice_toVec _) hbody hfresh, holder_atCall _⟩

/-- After the time it expires at, `get` returns no image. -/
theorem quiet_run {count : ℕ} {phase : GetPhase} (hexpired : now + cfg.ttl < latest)
    (hinfo : s.dir.OnlyReads (cfg.metaPath url) (cfg.codec.toVec (metaOf cfg value now)))
    (hcall : s.holder side = some (.get url phase)) (hquiet : (DiskCall.get url phase).isQuiet = true)
    (hrun : run (DiskState.step cfg) s (.replicate count (.advance side latest)) = some s') :
    ∃ phase', s'.holder side = some (.get url phase') ∧ (DiskCall.get url phase').isQuiet = true := by
  induction count generalizing s phase with
  | zero =>
    obtain rfl := Option.some.inj hrun
    exact ⟨phase, hcall, hquiet⟩
  | succ count ih =>
    obtain ⟨t, hstep, hrun⟩ := Option.bind_eq_some_iff.mp hrun
    rw [DiskState.step, hcall, Option.bind_some] at hstep
    obtain ⟨⟨dir, phase'⟩, hget, rfl⟩ := Option.map_eq_some_iff.mp hstep
    have hkept : s.dir.Kept dir (cfg.metaPath url) := by
      rcases advanceGet_dir hget with rfl | ⟨-, rfl⟩ | ⟨-, rfl⟩
      · exact .refl _ _
      · exact .unlink _ _ _
      · exact .unlink _ _ _
    have hnext : (DiskCall.get url phase').isQuiet = true := by
      cases get_step hget with
      | metaThere | metaMissing | bodyThere | bodyMissing | expired | removeMeta | removeBody => rfl
      | broken hread hparsed =>
        obtain rfl := hinfo _ hread
        rw [cfg.codec.fromSlice_toVec] at hparsed
        cases hparsed
      | fresh hread hparsed hfresh =>
        -- the metadata are those of the image, which has expired
        obtain rfl := hinfo _ hread
        rw [cfg.codec.fromSlice_toVec] at hparsed
        obtain rfl := Except.ok.inj hparsed
        exact absurd hexpired hfresh
      | readBody => cases hquiet
    refine ih ?_ ?_ hnext hrun
    · exact hinfo.kept hkept
    · exact holder_setHolder_self _ _ _

theorem Entry.not_returned (h : Entry cfg url value now latest s) (hexpired : now + cfg.ttl < latest) :
    ¬ ReturnedBy cfg url value latest s side := by
  rintro ⟨count, t, hrun, hreturned⟩
  obtain ⟨u, hstep, hrun⟩ := Option.bind_eq_some_iff.mp hrun
  rw [DiskState.step] at hstep
  split at hstep
  · obtain rfl := Option.some.inj hstep
    have hinfo : (s.setHolder side (some (.get url .metaExists))).dir.OnlyReads (cfg.metaPath url)
        (cfg.codec.toVec (metaOf cfg value now)) := h.info
    obtain ⟨phase, hphase, hquiet⟩ := quiet_run hexpired hinfo (holder_setHolder_self _ _ _) rfl hrun
    obtain rfl := (DiskCall.get.inj (Option.some.inj (hphase.symm.trans hreturned))).2
    cases hquiet
  · cases hstep

/-! ## The time to live -/

/-- `set`, in an empty directory. -/
theorem storedAt_empty (cfg : DiskCacheConfig) (url : String) (value : CachedInlineData) (now : UInt64) :
    ∃ s, StoredAt cfg url value now .request s ∧ s.holder .response = none := by
  have hrun := @store_run cfg .request url value now (start .empty []) rfl
  refine ⟨_, ⟨⟨_, _, rfl, ?_, hrun⟩, holder_atCall _, ?_⟩, holder_atCall_of_ne (by decide) _⟩
  · have hwrites (count : ℕ) : ∀ event ∈ writeEvents .request count, ∃ count, event = .write .request count := by
      intro event hevent
      unfold writeEvents at hevent
      split at hevent
      · cases hevent
      · exact ⟨count, List.mem_singleton.mp hevent⟩
    intro event hevent
    simp only [List.mem_cons, List.mem_append, List.not_mem_nil, or_false] at hevent
    rcases hevent with h | h | h | h | h | h | h
    · exact .inl h
    · exact .inl h
    · exact .inr (hwrites _ event h)
    · exact .inl h
    · exact .inl h
    · exact .inr (hwrites _ event h)
    · exact .inl h
  · intro side call hcall _
    by_cases hside : side = .request
    · subst hside
      rw [holder_atCall] at hcall
      rw [← Option.some.inj hcall]
      rfl
    · rw [holder_atCall_of_ne hside] at hcall
      cases hcall

theorem not_livesFor (hwraps : 2 ^ 64 ≤ now.toNat + cfg.ttl.toNat) : ¬ LivesFor cfg url value now := by
  intro hlives
  obtain ⟨s, hstored, hfree⟩ := storedAt_empty cfg url value now
  have hreturned := (hlives .request now s s (UInt64.le_refl now) hstored .refl .response hfree).mpr (Nat.le_add_right _ _)
  have hexpired : now + cfg.ttl < now := by
    have hnow := now.toNat_lt
    have httl := cfg.ttl.toNat_lt
    rw [UInt64.lt_iff_toNat_lt, UInt64.toNat_add]
    omega
  exact (entry_reach hstored .refl).not_returned hexpired hreturned

/-- **An image is returned for as long as it is to be exactly if the time it expires at is a 64-bit number.** -/
theorem lifetime_iff (cfg : DiskCacheConfig) (url : String) (value : CachedInlineData) (now : UInt64) :
    (LivesFor cfg url value now ∧ (now + cfg.ttl).toNat = now.toNat + cfg.ttl.toNat) ↔
      now.toNat + cfg.ttl.toNat < 2 ^ 64 := by
  constructor
  · rintro ⟨hlives, -⟩
    by_contra hwraps
    exact not_livesFor (Nat.le_of_not_lt hwraps) hlives
  · intro hfits
    have hsum : (now + cfg.ttl).toNat = now.toNat + cfg.ttl.toNat := by
      rw [UInt64.toNat_add, Nat.mod_eq_of_lt hfits]
    refine ⟨fun side later s s' _ hstored hreach side' hfree => ?_, hsum⟩
    have hentry := @entry_reach cfg url value now later s s' side hstored hreach
    rw [← hsum, ← UInt64.le_iff_toNat_le]
    constructor
    · intro hreturned
      by_contra hlate
      exact hentry.not_returned (UInt64.not_le.mp hlate) hreturned
    · intro hlater
      exact hentry.returned hlater hfree

/-- The longest time to live: what is stored has expired at once. -/
theorem longestTtl_expired : ¬ ∀ cfg url value now, cfg.ttl ≠ 0 →
    LivesFor cfg url value now ∧ (now + cfg.ttl).toNat = now.toNat + cfg.ttl.toNat := by
  intro h
  have hlives := (h ⟨cachedUrlCodec, 2 ^ 64 - 1, 10⟩ cachedUrl ⟨"image/png", [1]⟩ 1 (by decide +kernel)).1
  exact not_livesFor (by decide +kernel) hlives

end DiskState

end GeminiWorker
