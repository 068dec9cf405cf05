import GeminiWorker.Lib.Evict
import GeminiWorker.Proof.DiskMeta
import GeminiWorker.Proof.DiskRun
import Mathlib.Data.List.Pairwise

/-!
# What pruning leaves

`prune_if_needed`, from the listing of the directory to the last file that is removed.

* `prune_run`: the entries are counted, sorted by age and evicted from the front.
* `remaining_perm`: the entries that are left are those that were not evicted.
* `prunesWell_iff`: the oldest entries go, as few as possible, exactly if the sizes add up in 64 bits.
-/

namespace GeminiWorker

open Transition (run)
open DiskState (atCall)

/-! ## Entries -/

/-- The entry of a name of the directory, where its metadata can be read. -/
def entryAt (cfg : DiskCacheConfig) (dir : Disk) (listed : String × ℕ) : Option PruneEntry :=
  match jsonStem listed.1, (dir.read listed.1).map cfg.codec.fromSlice with
  | some stem, some (.ok info) => some ⟨listed.2, stem, info.sizeBytes⟩
  | _, _ => none

def sizeOf (entry : PruneEntry) : ℕ := entry.sizeBytes.toNat

def bytesOf (entries : List PruneEntry) : ℕ := (entries.map sizeOf).sum

def byAge (entries : List PruneEntry) : List PruneEntry := entries.insertionSort fun e e' => e.modified ≤ e'.modified

/-- The two files of an entry are gone. -/
def removeFiles (dir : Disk) (entry : PruneEntry) : Disk :=
  (dir.unlink (entry.stem ++ ".json")).unlink (entry.stem ++ ".bin")

def removeAll (dir : Disk) (entries : List PruneEntry) : Disk := entries.foldl removeFiles dir

section

variable {cfg : DiskCacheConfig} {dir : Disk} {name stem : String} {modified : ℕ} {entry : PruneEntry}

theorem jsonStem_eq_some (h : jsonStem name = some stem) : name = stem ++ ".json" := by
  unfold jsonStem at h
  dsimp only at h
  split at h
  · rename_i hjson
    obtain ⟨before, hbefore⟩ := List.isSuffixOf_iff_suffix.mp hjson.1
    have hlength : name.toList.length - 5 = before.length := by
      rw [← hbefore, List.length_append]
      exact Nat.add_sub_cancel ..
    have htake : name.toList.take (name.toList.length - 5) = before := by
      rw [hlength, ← hbefore, List.take_left]
    rw [← Option.some.inj h, htake, ← String.toList_inj, String.toList_append, String.toList_ofList, hbefore]
  · cases h

theorem entryAt_eq_some : entryAt cfg dir (name, modified) = some entry ↔
    jsonStem name = some entry.stem ∧ entry.modified = modified ∧
      ∃ bytes info, dir.read name = some bytes ∧ cfg.codec.fromSlice bytes = .ok info ∧ entry.sizeBytes = info.sizeBytes := by
  unfold entryAt
  rcases jsonStem name with _ | stem
  · simp
  · rcases dir.read name with _ | bytes
    · simp
    · rw [Option.map_some]
      rcases hinfo : cfg.codec.fromSlice bytes with text | info
      · simp [hinfo]
      · constructor
        · intro h
          obtain rfl := Option.some.inj h
          exact ⟨rfl, rfl, bytes, info, rfl, hinfo, rfl⟩
        · rintro ⟨hstem, rfl, bytes', info', hbytes, hinfo', hsize⟩
          obtain rfl := Option.some.inj hbytes
          obtain rfl := Except.ok.inj (hinfo.symm.trans hinfo')
          obtain rfl := Option.some.inj hstem
          show some (⟨entry.modified, entry.stem, info.sizeBytes⟩ : PruneEntry) = some entry
          rw [← hsize]

theorem readEntry_eq (totalBytes : UInt64) (entries : List PruneEntry) : readEntry cfg dir totalBytes entries name modified =
    ((entryAt cfg dir (name, modified)).toList.foldl (fun total entry => total + entry.sizeBytes) totalBytes,
      entries ++ (entryAt cfg dir (name, modified)).toList) := by
  unfold readEntry entryAt
  rcases jsonStem name with _ | stem
  · simp
  · rcases dir.read name with _ | bytes
    · simp
    · rw [Option.map_some]
      rcases cfg.codec.fromSlice bytes with text | info
      · simp
      · simp

theorem bytesOf_cons (entry : PruneEntry) (entries : List PruneEntry) :
    bytesOf (entry :: entries) = sizeOf entry + bytesOf entries := List.sum_cons

/-- The sizes are added up in 64 bits. -/
theorem foldl_sizeBytes (totalBytes : UInt64) (entries : List PruneEntry) :
    (entries.foldl (fun total entry => total + entry.sizeBytes) totalBytes).toNat =
      (totalBytes.toNat + bytesOf entries) % 2 ^ 64 := by
  induction entries generalizing totalBytes with
  | nil =>
    have hlt := totalBytes.toNat_lt
    rw [List.foldl_nil, bytesOf, List.map_nil, List.sum_nil, Nat.add_zero, Nat.mod_eq_of_lt hlt]
  | cons entry entries ih =>
    rw [List.foldl_cons, ih, UInt64.toNat_add, bytesOf_cons, sizeOf, Nat.mod_add_mod, Nat.add_assoc]

theorem toNat_saturatingSub (a b : UInt64) : (saturatingSub a b).toNat = a.toNat - b.toNat := by
  unfold saturatingSub
  split
  · rename_i hle
    exact UInt64.toNat_sub_of_le a b hle
  · rename_i hlt
    have hle : ¬ b.toNat ≤ a.toNat := fun h => hlt (UInt64.le_iff_toNat_le.mpr h)
    have hzero : (0 : UInt64).toNat = 0 := rfl
    rw [hzero]
    omega

theorem byAge_perm (entries : List PruneEntry) : (byAge entries).Perm entries := List.perm_insertionSort _ _

theorem byAge_sorted (entries : List PruneEntry) : (byAge entries).Pairwise fun e e' => e.modified ≤ e'.modified :=
  List.pairwise_insertionSort _ _

end

/-! ## The run -/

section

variable {cfg : DiskCacheConfig} {side : Side} {url : String} {value : CachedInlineData} {dir : Disk}
  {holder : Side → Option DiskCall} {begun stored : List (String × CachedInlineData)}

/-- The names are read one by one. -/
theorem readEntries_run (names : List (String × ℕ)) {nows : List UInt64} (hnows : nows.length = names.length)
    (totalBytes : UInt64) (entries : List PruneEntry) (events : List DiskEvent) :
    run (DiskState.step cfg) (atCall holder begun stored side dir
        (.set url value (.readEntries (names.map .ok) totalBytes entries))) (nows.map (.advance side) ++ events) =
      run (DiskState.step cfg) (atCall holder begun stored side dir (.set url value (.readEntries []
        ((names.filterMap (entryAt cfg dir)).foldl (fun total entry => total + entry.sizeBytes) totalBytes)
        (entries ++ names.filterMap (entryAt cfg dir))))) events := by
  induction names generalizing nows totalBytes entries with
  | nil =>
    obtain rfl := List.length_eq_zero_iff.mp hnows
    rw [List.filterMap_nil, List.append_nil]
    rfl
  | cons listed names ih =>
    obtain ⟨now, nows, rfl⟩ := List.exists_cons_of_length_eq_add_one hnows
    obtain ⟨name, modified⟩ := listed
    have hnext : advanceSet cfg dir url value now (.readEntries (.ok (name, modified) :: names.map .ok) totalBytes entries) =
        some (dir, .readEntries (names.map .ok) (readEntry cfg dir totalBytes entries name modified).1
          (readEntry cfg dir totalBytes entries name modified).2) := rfl
    have hfilter : ((name, modified) :: names).filterMap (entryAt cfg dir) =
        (entryAt cfg dir (name, modified)).toList ++ names.filterMap (entryAt cfg dir) := by
      rw [List.filterMap_cons]
      rcases entryAt cfg dir (name, modified) with _ | entry <;> rfl
    rw [List.map_cons, List.map_cons, List.cons_append, run_cons_of_step (DiskState.step_advance_set hnext)]
    rw [hfilter, List.foldl_append, ← List.append_assoc]
    have hrest := ih (Nat.succ.inj hnows) (readEntry cfg dir totalBytes entries name modified).1
      (readEntry cfg dir totalBytes entries name modified).2
    rw [readEntry_eq] at hrest
    rw [readEntry_eq]
    exact hrest

/-- The entries go, each with both files, until the rest fits. -/
theorem remove_run (entries : List PruneEntry) (totalBytes : UInt64) {nows : List UInt64}
    (hnows : nows.length = 2 * (Evict.evicted sizeOf cfg.maxBytes.toNat totalBytes.toNat entries).length) :
    run (DiskState.step cfg) (atCall holder begun stored side dir (.set url value (pruneNext cfg totalBytes entries)))
        (nows.map (.advance side)) =
      some (atCall holder begun stored side
        (removeAll dir (Evict.evicted sizeOf cfg.maxBytes.toNat totalBytes.toNat entries))
        (.set url value (.returned (.ok ())))) := by
  induction entries generalizing nows totalBytes dir with
  | nil =>
    obtain rfl := List.length_eq_zero_iff.mp hnows
    rw [pruneNext, if_pos (.inr rfl)]
    rfl
  | cons entry entries ih =>
    by_cases hfits : totalBytes ≤ cfg.maxBytes
    · rw [Evict.evicted_of_le (UInt64.le_iff_toNat_le.mp hfits)] at hnows ⊢
      obtain rfl := List.length_eq_zero_iff.mp hnows
      rw [pruneNext, if_pos (.inl hfits)]
      rfl
    · have hover : ¬ totalBytes.toNat ≤ cfg.maxBytes.toNat := fun h => hfits (UInt64.le_iff_toNat_le.mpr h)
      have hleft : (saturatingSub totalBytes entry.sizeBytes).toNat = totalBytes.toNat - sizeOf entry :=
        toNat_saturatingSub totalBytes entry.sizeBytes
      rw [Evict.evicted, if_neg hover, ← hleft] at hnows ⊢
      rw [List.length_cons] at hnows
      obtain ⟨now, nows, rfl⟩ := List.exists_cons_of_length_eq_add_one hnows
      obtain ⟨now', nows, rfl⟩ := List.exists_cons_of_length_eq_add_one (Nat.succ.inj hnows)
      have hmeta : advanceSet cfg dir url value now (.removeMeta totalBytes (entry :: entries)) =
          some (dir.unlink (entry.stem ++ ".json"), .removeBody totalBytes entry entries) := rfl
      have hbody : advanceSet cfg (dir.unlink (entry.stem ++ ".json")) url value now' (.removeBody totalBytes entry entries) =
          some (removeFiles dir entry, pruneNext cfg (saturatingSub totalBytes entry.sizeBytes) entries) := rfl
      have hstep : pruneNext cfg totalBytes (entry :: entries) = .removeMeta totalBytes (entry :: entries) := by
        rw [pruneNext, if_neg (not_or.mpr ⟨hfits, List.cons_ne_nil _ _⟩)]
      rw [hstep, List.map_cons, List.map_cons, run_cons_of_step (DiskState.step_advance_set hmeta),
        run_cons_of_step (DiskState.step_advance_set hbody)]
      refine ih _ ?_
      rw [List.length_cons, List.length_cons] at hnows
      omega

end

/-! ## What is left -/

/-- A listing of the directory, each file with the time it was modified. -/
structure Listing (dir : Disk) (names : List (String × ℕ)) : Prop where
  nodup : (names.map Prod.fst).Nodup
  mem_iff : ∀ name, name ∈ names.map Prod.fst ↔ (dir.names name).isSome

/-- What is to be left of a directory, and what is to be gone. -/
structure Evicted (cfg : DiskCacheConfig) (dir : Disk) (names : List (String × ℕ)) (dir' : Disk)
    (removed kept : List PruneEntry) : Prop where
  perm : (removed ++ kept).Perm (names.filterMap (entryAt cfg dir))
  /-- The oldest go first, -/
  sorted : (removed ++ kept).Pairwise fun e e' => e.modified ≤ e'.modified
  /-- until the rest fits, -/
  fits : bytesOf kept ≤ cfg.maxBytes.toNat
  /-- and not more of them. -/
  shortest : ∀ fewer rest, removed ++ kept = fewer ++ rest → fewer.length < removed.length →
    cfg.maxBytes.toNat < bytesOf rest
  remaining : (names.filterMap (entryAt cfg dir')).Perm kept
  /-- Both files of what is removed are gone. -/
  gone : ∀ entry ∈ removed, dir'.names (entry.stem ++ ".json") = none ∧ dir'.names (entry.stem ++ ".bin") = none
  others : ∀ name, (∀ entry ∈ removed, name ≠ entry.stem ++ ".json" ∧ name ≠ entry.stem ++ ".bin") →
    dir'.names name = dir.names name
  contents : dir'.contents = dir.contents

section

variable {cfg : DiskCacheConfig} {dir : Disk} {names : List (String × ℕ)} {removed kept : List PruneEntry}

theorem names_removeFiles (entry : PruneEntry) (name : String) : (removeFiles dir entry).names name =
    if name = entry.stem ++ ".bin" then none else if name = entry.stem ++ ".json" then none else dir.names name := rfl

theorem contents_removeAll (dir : Disk) (entries : List PruneEntry) : (removeAll dir entries).contents = dir.contents := by
  induction entries generalizing dir with
  | nil => rfl
  | cons entry entries ih => exact (ih _).trans rfl

theorem names_removeAll_of_none {name : String} (h : dir.names name = none) (entries : List PruneEntry) :
    (removeAll dir entries).names name = none := by
  induction entries generalizing dir with
  | nil => exact h
  | cons entry entries ih =>
    refine ih ?_
    rw [names_removeFiles, h]
    split
    · rfl
    · split <;> rfl

theorem names_removeAll_of_mem {entry : PruneEntry} {entries : List PruneEntry} (h : entry ∈ entries) :
    (removeAll dir entries).names (entry.stem ++ ".json") = none ∧
      (removeAll dir entries).names (entry.stem ++ ".bin") = none := by
  induction entries generalizing dir with
  | nil => cases h
  | cons first entries ih =>
    rcases List.mem_cons.mp h with rfl | h
    · constructor
      · refine names_removeAll_of_none ?_ entries
        rw [names_removeFiles]
        split
        · rfl
        · rw [if_pos rfl]
      · refine names_removeAll_of_none ?_ entries
        rw [names_removeFiles, if_pos rfl]
    · exact ih h

theorem names_removeAll_of_other {name : String} {entries : List PruneEntry}
    (h : ∀ entry ∈ entries, name ≠ entry.stem ++ ".json" ∧ name ≠ entry.stem ++ ".bin") :
    (removeAll dir entries).names name = dir.names name := by
  induction entries generalizing dir with
  | nil => rfl
  | cons entry entries ih =>
    obtain ⟨hjson, hbin⟩ := h entry (List.mem_cons_self ..)
    have hrest := @ih (removeFiles dir entry) fun e he => h e (List.mem_cons_of_mem _ he)
    rw [names_removeFiles, if_neg hbin, if_neg hjson] at hrest
    exact hrest

theorem pairwise_stem (hnames : (names.map Prod.fst).Nodup) :
    (names.filterMap (entryAt cfg dir)).Pairwise fun e e' => e.stem ≠ e'.stem := by
  refine List.Pairwise.filterMap (entryAt cfg dir) ?_ (List.pairwise_map.mp hnames)
  rintro ⟨name, modified⟩ ⟨name', modified'⟩ hne entry hentry entry' hentry' hstem
  have hname := jsonStem_eq_some (entryAt_eq_some.mp hentry).1
  have hname' := jsonStem_eq_some (entryAt_eq_some.mp hentry').1
  exact hne (by rw [hname, hname', hstem])

/-- **The entries left are those that are not removed.** -/
theorem remaining_perm (hnames : (names.map Prod.fst).Nodup)
    (hperm : (removed ++ kept).Perm (names.filterMap (entryAt cfg dir))) :
    (names.filterMap (entryAt cfg (removeAll dir removed))).Perm kept := by
  have hstems : (names.filterMap (entryAt cfg dir)).Pairwise fun e e' => e.stem ≠ e'.stem := pairwise_stem hnames
  have hdistinct : (removed ++ kept).Pairwise fun e e' => e.stem ≠ e'.stem :=
    hperm.symm.pairwise hstems fun h heq => h heq.symm
  have hsame : ∀ e ∈ removed ++ kept, ∀ e' ∈ removed ++ kept, e.stem = e'.stem → e = e' := by
    intro e he e' he' hstem
    by_contra hne
    have hsymm : Std.Symm fun e e' : PruneEntry => e.stem ≠ e'.stem := ⟨fun _ _ h heq => h heq.symm⟩
    exact hdistinct.forall he he' hne hstem
  have hentry : ∀ listed ∈ names, entryAt cfg (removeAll dir removed) listed =
      (entryAt cfg dir listed).filter fun e => decide (e ∉ removed) := by
    rintro ⟨name, modified⟩ hlisted
    have hkept (hother : ∀ e ∈ removed, name ≠ e.stem ++ ".json" ∧ name ≠ e.stem ++ ".bin") :
        entryAt cfg (removeAll dir removed) (name, modified) = entryAt cfg dir (name, modified) := by
      rw [entryAt, entryAt, Disk.read, Disk.read, names_removeAll_of_other hother, contents_removeAll]
    rcases hbefore : entryAt cfg dir (name, modified) with _ | entry
    · rw [Option.filter_none, Option.eq_none_iff_forall_ne_some]
      intro entry hafter
      obtain ⟨hstem, hmodified, bytes, info, hread, hinfo, hsize⟩ := entryAt_eq_some.mp hafter
      obtain ⟨file, hname, hcontents⟩ := Option.map_eq_some_iff.mp hread
      have hthere : dir.names name = some file := by
        rcases hdir : dir.names name with _ | file'
        · rw [names_removeAll_of_none hdir] at hname
          cases hname
        · by_cases hother : ∀ e ∈ removed, name ≠ e.stem ++ ".json" ∧ name ≠ e.stem ++ ".bin"
          · rw [names_removeAll_of_other hother] at hname
            exact hdir.symm.trans hname
          · push Not at hother
            obtain ⟨e, he, hfile⟩ := hother
            obtain ⟨hjson, hbin⟩ := @names_removeAll_of_mem dir e removed he
            by_cases heq : name = e.stem ++ ".json"
            · rw [heq, hjson] at hname
              cases hname
            · rw [hfile heq, hbin] at hname
              cases hname
      have hread' : dir.read name = some bytes := by
        rw [Disk.read, hthere, Option.map_some, ← hcontents, contents_removeAll]
      have hsome := entryAt_eq_some.mpr ⟨hstem, hmodified, bytes, info, hread', hinfo, hsize⟩
      rw [hbefore] at hsome
      cases hsome
    · have hname := jsonStem_eq_some (entryAt_eq_some.mp hbefore).1
      have hmem : entry ∈ removed ++ kept :=
        hperm.mem_iff.mpr (List.mem_filterMap.mpr ⟨(name, modified), hlisted, hbefore⟩)
      by_cases hremoved : entry ∈ removed
      · have hgone := (@names_removeAll_of_mem dir entry removed hremoved).1
        rw [Option.filter_some, if_neg (by simpa using hremoved), entryAt, Disk.read, hname, hgone]
        rcases jsonStem (entry.stem ++ ".json") with _ | stem <;> rfl
      · rw [Option.filter_some, if_pos (by simpa using hremoved), hkept, hbefore]
        intro e he
        refine ⟨fun heq => ?_, fun heq => json_ne_bin _ _ (hname.symm.trans heq)⟩
        have hstem := (append_inj_of_length rfl (hname.symm.trans heq)).1
        exact hremoved (hsame entry hmem e (List.mem_append_left _ he) hstem ▸ he)
  have hfilter : names.filterMap (entryAt cfg (removeAll dir removed)) =
      (names.filterMap (entryAt cfg dir)).filter fun e => decide (e ∉ removed) := by
    rw [List.filter_filterMap]
    exact List.filterMap_congr hentry
  have hremoved : removed.filter (fun e => decide (e ∉ removed)) = [] := by
    rw [List.filter_eq_nil_iff]
    intro e he
    simpa using he
  have hrest : kept.filter (fun e => decide (e ∉ removed)) = kept := by
    rw [List.filter_eq_self]
    intro e he
    have hnot : e ∉ removed := fun hmem =>
      (List.pairwise_append.mp hdistinct).2.2 e hmem e he rfl
    simpa using hnot
  have hafter := (hperm.symm.filter fun e => decide (e ∉ removed))
  rw [List.filter_append, hremoved, List.nil_append, hrest, ← hfilter] at hafter
  exact hafter

end

/-! ## The oldest go, as few as possible -/

section

variable (cfg : DiskCacheConfig) (s : DiskState) (side : Side) (url : String) (value : CachedInlineData)
  (names : List (String × ℕ))

def listed : List PruneEntry := names.filterMap (entryAt cfg s.dir)

/-- The 64-bit sum. -/
def totalOf : UInt64 := (listed cfg s names).foldl (fun total entry => total + entry.sizeBytes) 0

def evictedOf : List PruneEntry :=
  Evict.evicted sizeOf cfg.maxBytes.toNat (totalOf cfg s names).toNat (byAge (listed cfg s names))

def keptOf : List PruneEntry :=
  Evict.kept sizeOf cfg.maxBytes.toNat (totalOf cfg s names).toNat (byAge (listed cfg s names))

/-- `prune_if_needed` with nothing in between, once the directory is listed. -/
def pruneEvents (nows : List UInt64) : List DiskEvent := .listDir side (names.map .ok) :: nows.map (.advance side)

def pruneLength : ℕ := names.length + 1 + 2 * (evictedOf cfg s names).length

/-- It ends, with what is to be left of the directory. -/
def PrunesWell : Prop :=
  ∃ count, ∀ nows : List UInt64, nows.length = count → ∃ s' removed kept,
    run (DiskState.step cfg) s (pruneEvents side names nows) = some s' ∧
      s'.holder side = some (.set url value (.returned (.ok ()))) ∧ Evicted cfg s.dir names s'.dir removed kept

end

section

variable {cfg : DiskCacheConfig} {s s' : DiskState} {side : Side} {url : String} {value : CachedInlineData}
  {names : List (String × ℕ)}

/-- **The whole run.** -/
theorem prune_run (hcall : s.holder side = some (.set url value .readDir)) {nows : List UInt64}
    (hnows : nows.length = pruneLength cfg s names) :
    run (DiskState.step cfg) s (pruneEvents side names nows) =
      some (atCall s.holder s.begun s.stored side (removeAll s.dir (evictedOf cfg s names))
        (.set url value (.returned (.ok ())))) := by
  have hlist : s.step cfg (.listDir side (names.map .ok)) =
      some (atCall s.holder s.begun s.stored side s.dir (.set url value (.readEntries (names.map .ok) 0 []))) := by
    rw [DiskState.step, hcall]
    rfl
  have hsplit := List.take_append_drop names.length nows
  have hlength : (nows.take names.length).length = names.length := by
    rw [List.length_take]
    unfold pruneLength at hnows
    omega
  obtain ⟨now, later, hlater⟩ : ∃ now later, nows.drop names.length = now :: later := by
    refine List.exists_cons_of_length_pos ?_
    rw [List.length_drop]
    unfold pruneLength at hnows
    omega
  have hlaterLength : later.length = 2 * (evictedOf cfg s names).length := by
    have hdrop := congrArg List.length hlater
    rw [List.length_drop, List.length_cons] at hdrop
    unfold pruneLength at hnows
    omega
  have hnext : advanceSet cfg s.dir url value now (.readEntries [] (totalOf cfg s names) (listed cfg s names)) =
      some (s.dir, pruneNext cfg (totalOf cfg s names) (byAge (listed cfg s names))) := rfl
  rw [pruneEvents, run_cons_of_step hlist, ← hsplit, List.map_append,
    readEntries_run names hlength 0 [] _, hlater, List.map_cons, List.nil_append]
  change run _ (atCall _ _ _ _ _ (.set url value (.readEntries [] (totalOf cfg s names) (listed cfg s names)))) _ = _
  rw [run_cons_of_step (DiskState.step_advance_set hnext)]
  exact remove_run _ _ hlaterLength

theorem toNat_totalOf : (totalOf cfg s names).toNat = bytesOf (listed cfg s names) % 2 ^ 64 := by
  rw [totalOf, foldl_sizeBytes, UInt64.toNat_zero, Nat.zero_add]

theorem bytesOf_perm {entries entries' : List PruneEntry} (h : entries.Perm entries') : bytesOf entries = bytesOf entries' :=
  (h.map sizeOf).sum_nat

theorem evicted_perm : (evictedOf cfg s names ++ keptOf cfg s names).Perm (names.filterMap (entryAt cfg s.dir)) := by
  rw [evictedOf, keptOf, Evict.evicted_append_kept]
  exact byAge_perm _

/-- With a sum that fits in 64 bits. -/
theorem pruned_of_lt (hnames : (names.map Prod.fst).Nodup) (hsum : bytesOf (listed cfg s names) < 2 ^ 64) :
    Evicted cfg s.dir names (removeAll s.dir (evictedOf cfg s names)) (evictedOf cfg s names) (keptOf cfg s names) := by
  have htotal : (totalOf cfg s names).toNat = ((byAge (listed cfg s names)).map sizeOf).sum := by
    rw [toNat_totalOf, Nat.mod_eq_of_lt hsum]
    exact (bytesOf_perm (byAge_perm _)).symm
  refine ⟨evicted_perm, ?_, ?_, ?_, remaining_perm hnames evicted_perm, fun entry => names_removeAll_of_mem,
    fun name => names_removeAll_of_other, contents_removeAll _ _⟩
  · rw [evictedOf, keptOf, Evict.evicted_append_kept]
    exact byAge_sorted _
  · rw [keptOf, htotal]
    exact Evict.sum_kept_le _
  · intro fewer rest hsplit hfewer
    rw [evictedOf, keptOf, Evict.evicted_append_kept] at hsplit
    rw [evictedOf, htotal] at hfewer
    exact Evict.lt_sum_rest hsplit hfewer

/-- **With a sum that does not, what is left does not fit.** -/
theorem lt_bytesOf_kept (hsum : 2 ^ 64 ≤ bytesOf (listed cfg s names)) :
    cfg.maxBytes.toNat < bytesOf (keptOf cfg s names) := by
  have hage := bytesOf_perm (byAge_perm (listed cfg s names))
  have htotal := @toNat_totalOf cfg s names
  refine Evict.lt_sum_kept_of_lost (fun entry _ => entry.sizeBytes.toNat_lt) cfg.maxBytes.toNat_lt ?_
  change (totalOf cfg s names).toNat + 2 ^ 64 ≤ bytesOf (byAge (listed cfg s names))
  omega

/-- A call that has returned does not go on. -/
theorem run_returned {result : Except String Unit} (h : s.holder side = some (.set url value (.returned result)))
    {nows : List UInt64} (hrun : run (DiskState.step cfg) s (nows.map (.advance side)) = some s') : nows = [] := by
  rcases nows with _ | ⟨now, nows⟩
  · rfl
  · have hstuck : s.step cfg (.advance side now) = none := by
      rw [DiskState.step, h]
      rfl
    rw [List.map_cons, run, hstuck] at hrun
    cases hrun

/-- So it returns once. -/
theorem run_returned_unique {t t' : DiskState} {result result' : Except String Unit} {count count' : ℕ} {now : UInt64}
    (hrun : run (DiskState.step cfg) s (pruneEvents side names (.replicate count now)) = some t)
    (hreturned : t.holder side = some (.set url value (.returned result)))
    (hrun' : run (DiskState.step cfg) s (pruneEvents side names (.replicate count' now)) = some t')
    (hreturned' : t'.holder side = some (.set url value (.returned result'))) : t = t' := by
  have hmore : ∀ count more, pruneEvents side names (.replicate (count + more) now) =
      pruneEvents side names (.replicate count now) ++ (List.replicate more now).map (.advance side) := by
    intro count more
    rw [pruneEvents, pruneEvents, List.cons_append, ← List.map_append, List.replicate_append_replicate]
  rcases Nat.le_total count count' with hle | hle
  · obtain ⟨more, rfl⟩ := Nat.exists_eq_add_of_le hle
    rw [hmore, Transition.run_append, hrun, Option.bind_some] at hrun'
    rw [run_returned hreturned hrun'] at hrun'
    exact Option.some.inj hrun'
  · obtain ⟨more, rfl⟩ := Nat.exists_eq_add_of_le hle
    rw [hmore, Transition.run_append, hrun', Option.bind_some] at hrun
    rw [run_returned hreturned' hrun] at hrun
    exact (Option.some.inj hrun).symm

theorem not_prunesWell (hcall : s.holder side = some (.set url value .readDir)) (hnames : (names.map Prod.fst).Nodup)
    (hsum : 2 ^ 64 ≤ bytesOf (listed cfg s names)) : ¬ PrunesWell cfg s side url value names := by
  rintro ⟨count, hcount⟩
  obtain ⟨t, removed, kept, hrun, hreturned, hpruned⟩ := hcount (.replicate count 0) List.length_replicate
  have hrun' := @prune_run cfg s side url value names hcall (.replicate (pruneLength cfg s names) 0) List.length_replicate
  obtain rfl := run_returned_unique hrun hreturned hrun' (DiskState.holder_atCall _)
  have hremaining : (names.filterMap (entryAt cfg (removeAll s.dir (evictedOf cfg s names)))).Perm (keptOf cfg s names) :=
    remaining_perm hnames evicted_perm
  have hkept := bytesOf_perm (hpruned.remaining.symm.trans hremaining)
  have hover := lt_bytesOf_kept hsum
  have hfits := hpruned.fits
  omega

/-- **The oldest entries go, as few as possible, exactly if the sizes add up in 64 bits.** -/
theorem prunesWell_iff (hcall : s.holder side = some (.set url value .readDir)) (hlist : Listing s.dir names) :
    PrunesWell cfg s side url value names ↔ bytesOf (names.filterMap (entryAt cfg s.dir)) < 2 ^ 64 := by
  constructor
  · intro hwell
    by_contra hsum
    exact not_prunesWell hcall hlist.nodup (Nat.le_of_not_lt hsum) hwell
  · intro hsum
    exact ⟨pruneLength cfg s names, fun nows hnows => ⟨_, _, _, prune_run hcall hnows, DiskState.holder_atCall _,
      pruned_of_lt hlist.nodup hsum⟩⟩

end

/-! ## Two entries -/

/-- Entries `a` and `b` of one size each. -/
def twoEntries (cfg : DiskCacheConfig) (size : UInt64) : Disk where
  names name := if name = "a.json" then some 0 else if name = "b.json" then some 1 else none
  contents _ := cfg.codec.toVec ⟨"image/png", 0, size⟩
  next := 2
  names_lt name file h := by
    split at h
    · obtain rfl := Option.some.inj h
      decide
    · split at h
      · obtain rfl := Option.some.inj h
        decide
      · cases h
  names_inj name name' file h h' := by
    split at h
    · obtain rfl := Option.some.inj h
      split at h'
      · rename_i ha ha'
        rw [ha, ha']
      · split at h' <;> cases h'
    · split at h
      · obtain rfl := Option.some.inj h
        split at h'
        · cases h'
        · split at h'
          · rename_i hb _ hb'
            rw [hb, hb']
          · cases h'
      · cases h

def twoNames : List (String × ℕ) := [("a.json", 2), ("b.json", 1)]

theorem twoEntries_listing (cfg : DiskCacheConfig) (size : UInt64) : Listing (twoEntries cfg size) twoNames := by
  refine ⟨by decide, fun name => ?_⟩
  change name ∈ ["a.json", "b.json"] ↔ (if name = "a.json" then some 0 else if name = "b.json" then some 1 else none).isSome
  by_cases ha : name = "a.json"
  · simp [ha]
  · by_cases hb : name = "b.json"
    · simp [hb]
    · simp [ha, hb]

theorem twoEntries_entries (cfg : DiskCacheConfig) (size : UInt64) :
    twoNames.filterMap (entryAt cfg (twoEntries cfg size)) = [⟨2, "a", size⟩, ⟨1, "b", size⟩] := by
  have hread : ∀ name ∈ ["a.json", "b.json"],
      (twoEntries cfg size).read name = some (cfg.codec.toVec ⟨"image/png", 0, size⟩) := by
    intro name hname
    obtain ⟨file, hfile⟩ := Option.isSome_iff_exists.mp (((twoEntries_listing cfg size).mem_iff name).mp hname)
    rw [Disk.read, hfile]
    rfl
  have hcodec := cfg.codec.fromSlice_toVec ⟨"image/png", 0, size⟩
  have hstemA : jsonStem "a.json" = some "a" := by decide +kernel
  have hstemB : jsonStem "b.json" = some "b" := by decide +kernel
  have ha : entryAt cfg (twoEntries cfg size) ("a.json", 2) = some ⟨2, "a", size⟩ :=
    entryAt_eq_some.mpr ⟨hstemA, rfl, _, _, hread "a.json" (by decide), hcodec, rfl⟩
  have hb : entryAt cfg (twoEntries cfg size) ("b.json", 1) = some ⟨1, "b", size⟩ :=
    entryAt_eq_some.mpr ⟨hstemB, rfl, _, _, hread "b.json" (by decide), hcodec, rfl⟩
  rw [twoNames, List.filterMap_cons_some ha, List.filterMap_cons_some hb, List.filterMap_nil]

/-- With room for 10 bytes. -/
def smallConfig : DiskCacheConfig := ⟨cachedUrlCodec, 1000, 10⟩

def smallImage : CachedInlineData := ⟨"image/png", [1]⟩

/-- A call of `set` that is about to prune. -/
def aboutToPrune (size : UInt64) : DiskState :=
  atCall (fun _ => none) [] [] .request (twoEntries smallConfig size) (.set cachedUrl smallImage .readDir)

theorem prunesWell_iff_example : PrunesWell smallConfig (aboutToPrune 8) .request cachedUrl smallImage twoNames := by
  have hcall : (aboutToPrune 8).holder .request = some (.set cachedUrl smallImage .readDir) := DiskState.holder_atCall _
  have hlist : Listing (aboutToPrune 8).dir twoNames := twoEntries_listing smallConfig 8
  refine (prunesWell_iff hcall hlist).mpr ?_
  have hentries : twoNames.filterMap (entryAt smallConfig (aboutToPrune 8).dir) = [⟨2, "a", 8⟩, ⟨1, "b", 8⟩] :=
    twoEntries_entries smallConfig 8
  rw [hentries]
  decide +kernel

/-- Two sizes that add up to nothing in 64 bits: everything is left. -/
theorem twoEntries_kept : ¬ ∀ cfg s side url value names, s.holder side = some (.set url value .readDir) →
    Listing s.dir names → PrunesWell cfg s side url value names := by
  intro h
  have hlist := twoEntries_listing smallConfig (2 ^ 63)
  have hentries : listed smallConfig (aboutToPrune (2 ^ 63)) twoNames = [⟨2, "a", 2 ^ 63⟩, ⟨1, "b", 2 ^ 63⟩] :=
    twoEntries_entries smallConfig (2 ^ 63)
  have hsum : 2 ^ 64 ≤ bytesOf (listed smallConfig (aboutToPrune (2 ^ 63)) twoNames) := by
    rw [hentries]
    decide +kernel
  have hcall : (aboutToPrune (2 ^ 63)).holder .request = some (.set cachedUrl smallImage .readDir) :=
    DiskState.holder_atCall _
  exact not_prunesWell hcall hlist.nodup hsum (h smallConfig _ .request cachedUrl smallImage twoNames hcall hlist)

end GeminiWorker
