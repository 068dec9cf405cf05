import GeminiWorker.Spec.FetchServices

/-!
# What a step of the two fetch services is

* `services_fetch_step`: a step of one service, which may take what a call of the disk cache has returned.
* `services_disk_step`: a step of the disk cache, for a service that is where it calls it.
* `step_diskAnswer`: what a service makes of an answer of the disk cache.
-/

namespace GeminiWorker

variable {config : InlineDataUrlConfig} {codec : DiskCodec} {encodeWebp : List UInt8 → Option (List UInt8)}
  {s s' : FetchServices} {side : Side}

/-- A step of one service. -/
theorem services_fetch_step {event : FetchEvent ImageExchange}
    (h : s.step config codec encodeWebp (.fetch side event) = some s') :
    ∃ service fetch, config.service side = some service ∧
      (s.fetches side).step (service.fetchConfig encodeWebp) event = some fetch ∧
      (∀ use, (s.fetches side).diskUse event = some use → service.hasDiskCache = true →
        (s.disk.holder side).bind DiskCall.use = some use) ∧
      ∃ disk, (disk = s.disk ∨ disk = s.disk.setHolder side none) ∧
        s' = ⟨Function.update s.fetches side fetch, disk⟩ := by
  obtain ⟨service, hservice, hstep⟩ := Option.bind_eq_some_iff.mp h
  dsimp only at hstep
  split at hstep
  · rename_i hnone
    obtain ⟨fetch, hfetch, rfl⟩ := Option.map_eq_some_iff.mp hstep
    exact ⟨service, fetch, hservice, hfetch, fun use huse => (by rw [hnone] at huse; cases huse), _, .inl rfl, rfl⟩
  · rename_i use huse
    split at hstep
    · split at hstep
      · rename_i hholder
        obtain ⟨_, hmap, rfl⟩ := Option.map_eq_some_iff.mp hstep
        obtain ⟨fetch, hfetch, rfl⟩ := Option.map_eq_some_iff.mp hmap
        refine ⟨service, fetch, hservice, hfetch, fun use' huse' _ => ?_, _, .inr rfl, rfl⟩
        rw [hholder, ← huse, huse']
      · cases hstep
    · rename_i hno
      obtain ⟨fetch, hfetch, rfl⟩ := Option.map_eq_some_iff.mp hstep
      exact ⟨service, fetch, hservice, hfetch, fun _ _ hhas => absurd hhas hno, _, .inl rfl, rfl⟩

/-- A step of the disk cache. -/
theorem services_disk_step {event : DiskEvent} (h : s.step config codec encodeWebp (.disk event) = some s') :
    (s.fetches event.side).mayStart event = true ∧
      ∃ disk, s.disk.step (config.diskCacheConfig codec) event = some disk ∧ s' = { s with disk } := by
  obtain ⟨service, -, hstep⟩ := Option.bind_eq_some_iff.mp h
  split at hstep
  · rename_i hmay
    rw [Bool.and_eq_true] at hmay
    obtain ⟨disk, hdisk, rfl⟩ := Option.map_eq_some_iff.mp hstep
    exact ⟨hmay.2, disk, hdisk, rfl⟩
  · cases hstep

/-- What a service makes of an answer. -/
theorem step_diskAnswer {Response : Type} {cfg : FetchConfig Response} {fetch fetch' : FetchState} {c : ℕ}
    {answer : Except String (Option CachedInlineData)} (h : fetch.step cfg (.diskAnswer c answer) = some fetch') :
    cfg.hasDiskCache = true ∧ ∃ call, fetch.calls[c]? = some call ∧
      (answer = .ok none → fetch' = fetch.setPhase c call .lookup) ∧
      ∀ hit, answer = .ok (some hit) → fetch' = fetch.setPhase c call (.diskHit hit) := by
  obtain ⟨call, hcall, hnext⟩ := Option.bind_eq_some_iff.mp h
  by_cases hdisk : call.phase = .disk ∧ cfg.hasDiskCache = true
  · rw [if_pos hdisk] at hnext
    refine ⟨hdisk.2, call, hcall, ?_, ?_⟩
    · rintro rfl
      exact (Option.some.inj hnext).symm
    · rintro hit rfl
      exact (Option.some.inj hnext).symm
  · rw [if_neg hdisk] at hnext
    cases hnext

theorem get_of_use {call : DiskCall} {url : String} {answer : Except String (Option CachedInlineData)}
    (h : call.use = some (.got url answer)) : call = .get url (.returned answer) := by
  unfold DiskCall.use at h
  split at h
  · obtain ⟨rfl, rfl⟩ := DiskUse.got.inj (Option.some.inj h)
    rfl
  · cases h
  · cases h

end GeminiWorker
