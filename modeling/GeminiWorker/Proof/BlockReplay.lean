import GeminiWorker.Lib.JsonLayout
import GeminiWorker.Spec.BlockReplay

/-!
# Replaying blocked requests

* `blockErrorResponseBody_idem`: a rewritten body is not rewritten again.
* `forward_usesCache`: a flow leaves the cache as it is, or stores what it answers.
* `run_keeps`: a stored answer stays until it expires, is replaced or is evicted.
* `blocked_answer_is_replayed`: a request with the same key gets the same answer.
-/

namespace GeminiWorker

open Json (Value Map)

/-- What the proxy relies on of `serde_json`: the texts that it prints for its values are read
back as these values, and its objects are maps. -/
structure SerdeJson (fromSlice : List UInt8 → Option Value) (IsValue : Value → Prop) : Prop where
  isValue_fromSlice : ∀ bytes v, fromSlice bytes = some v → IsValue v
  isValue_string : ∀ s, IsValue (.string s)
  isValue_member : ∀ map key v, IsValue (.object map) → Map.get map key = some v → IsValue v
  isValue_insert : ∀ map key v, IsValue (.object map) → IsValue v → IsValue (.object (Map.insert map key v))
  fromSlice_print : ∀ v, IsValue v → fromSlice (Json.print v) = some v

variable {fromSlice : List UInt8 → Option Value} {IsValue : Value → Prop}

/-! ## Rewriting the body -/

theorem classify_blockedMessage (status : StatusCode) :
    classifyBlockableUpstreamError status (Text.bytes MSG_UPSTREAM_BLOCKED_INPUT) = none := by
  have htext : ∀ needle ∈ ["image_unsafe", "upstream moderation triggered", "content blocked",
      "请求无法用于生成图像"], Text.contains needle (Text.toAsciiLowercase
        (Text.fromUtf8Lossy (Text.bytes MSG_UPSTREAM_BLOCKED_INPUT))) = false := by
    decide +kernel
  unfold classifyBlockableUpstreamError
  split
  · rfl
  · dsimp only
    rw [htext "image_unsafe" (by simp), htext "upstream moderation triggered" (by simp),
      htext "content blocked" (by simp), htext "请求无法用于生成图像" (by simp)]
    rfl

/-- The text of the message as a value. -/
def blockedMessage : Value := .string MSG_UPSTREAM_BLOCKED_INPUT

/-- The two places of the message. -/
theorem withBlockedMessage_eq_some {v w : Value} :
    withBlockedMessage v = some w ↔ ∃ map, v = .object map ∧
      ((∃ error, Map.get map "error" = some (.object error) ∧
          w = .object (Map.insert map "error" (.object (Map.insert error "message" blockedMessage)))) ∨
        ((Map.get map "error").bind Value.asObject = none ∧
          w = .object (Map.insert map "message" blockedMessage))) := by
  have hobject : ∀ {x : Value} {members : Map}, x.asObject = some members ↔ x = .object members := by
    intro x members
    unfold Value.asObject
    split
    · simp
    · rename_i hnot
      exact iff_of_false (fun h => by cases h) fun h => hnot members h
  unfold withBlockedMessage
  rw [Option.bind_eq_bind, Option.bind_eq_some_iff]
  constructor
  · rintro ⟨map, hmap, h⟩
    refine ⟨map, hobject.1 hmap, ?_⟩
    split at h
    · rename_i error herror
      obtain ⟨x, hget, hx⟩ := Option.bind_eq_some_iff.1 herror
      rw [hobject.1 hx] at hget
      exact Or.inl ⟨error, hget, (Option.some.inj h).symm⟩
    · rename_i herror
      exact Or.inr ⟨herror, (Option.some.inj h).symm⟩
  · rintro ⟨map, rfl, ⟨error, hget, rfl⟩ | ⟨herror, rfl⟩⟩
    · refine ⟨map, rfl, ?_⟩
      rw [hget, Option.bind_some]
      rfl
    · refine ⟨map, rfl, ?_⟩
      rw [herror]
      rfl

/-- The message is written where it was written before. -/
theorem withBlockedMessage_idem {v w : Value} (h : withBlockedMessage v = some w) :
    withBlockedMessage w = some w := by
  obtain ⟨map, rfl, ⟨error, hget, rfl⟩ | ⟨herror, rfl⟩⟩ := withBlockedMessage_eq_some.1 h
  · refine withBlockedMessage_eq_some.2 ⟨_, rfl, Or.inl ⟨Map.insert error "message" blockedMessage, ?_, ?_⟩⟩
    · rw [Map.get_insert, if_pos rfl]
    · rw [Map.insert_insert, Map.insert_insert]
  · refine withBlockedMessage_eq_some.2 ⟨_, rfl, Or.inr ⟨?_, ?_⟩⟩
    · rw [Map.get_insert, if_neg (by decide)]
      exact herror
    · rw [Map.insert_insert]

theorem isValue_withBlockedMessage (hserde : SerdeJson fromSlice IsValue) {v w : Value}
    (hv : IsValue v) (h : withBlockedMessage v = some w) : IsValue w := by
  have hmessage : IsValue blockedMessage := hserde.isValue_string _
  obtain ⟨map, rfl, ⟨error, hget, rfl⟩ | ⟨-, rfl⟩⟩ := withBlockedMessage_eq_some.1 h
  · have hinner := hserde.isValue_member _ _ _ hv hget
    exact hserde.isValue_insert _ _ _ hv (hserde.isValue_insert _ _ _ hinner hmessage)
  · exact hserde.isValue_insert _ _ _ hv hmessage

/-- **A rewritten body is a fixed point of rewriting.** -/
theorem blockErrorResponseBody_idem (hserde : SerdeJson fromSlice IsValue) (status : StatusCode)
    (body : List UInt8) :
    blockErrorResponseBody fromSlice status (blockErrorResponseBody fromSlice status body) =
      blockErrorResponseBody fromSlice status body := by
  -- what stays unclassified is left alone
  have hnone : ∀ bytes, classifyBlockableUpstreamError status bytes = none →
      blockErrorResponseBody fromSlice status bytes = bytes := by
    intro bytes h
    unfold blockErrorResponseBody
    rw [h]
    rfl
  cases hclassify : classifyBlockableUpstreamError status body with
  | none => rw [hnone body hclassify, hnone body hclassify]
  | some reason =>
    have hrewrite : ∀ bytes reason, classifyBlockableUpstreamError status bytes = some reason →
        blockErrorResponseBody fromSlice status bytes =
          (((fromSlice bytes).bind withBlockedMessage).map Json.print).getD
            (Text.bytes MSG_UPSTREAM_BLOCKED_INPUT) := by
      intro bytes reason h
      unfold blockErrorResponseBody
      rw [h]
      cases (fromSlice bytes).bind withBlockedMessage <;> rfl
    rw [hrewrite body reason hclassify]
    cases hvalue : (fromSlice body).bind withBlockedMessage with
    | none => exact hnone _ (classify_blockedMessage status)
    | some w =>
      rw [Option.map_some, Option.getD_some]
      obtain ⟨v, hparse, hw⟩ := Option.bind_eq_some_iff.1 hvalue
      have hread := hserde.fromSlice_print w
        (isValue_withBlockedMessage hserde (hserde.isValue_fromSlice _ _ hparse) hw)
      -- the rewritten document may still hold a keyword in another field
      cases hagain : classifyBlockableUpstreamError status (Json.print w) with
      | none => exact hnone _ hagain
      | some reason' =>
        rw [hrewrite _ reason' hagain, hread, Option.bind_some, withBlockedMessage_idem hw]
        rfl

/-! ## The five places that store -/

/-- The cache once a response is inserted, where there is a cache and a key. -/
def BlockScope.store (scope : BlockScope) (response : CachedBlockResponse) : Option UpstreamBlockCache :=
  match scope.cache, scope.key with
  | some cache, some key => some (cache.insert scope.now key response)
  | cache, _ => cache

/-- The answer to an upstream error. -/
def blockAnswer (fromSlice : List UInt8 → Option Value) (status : StatusCode)
    (contentType : HeaderValue) (body : List UInt8) : Response :=
  rawResponseWithUpstreamStatus fromSlice (blockErrorResponseStatus status body) status contentType body

theorem status_blockAnswer (fromSlice : List UInt8 → Option Value) (status : StatusCode)
    (contentType : HeaderValue) (body : List UInt8) :
    (blockAnswer fromSlice status contentType body).status = blockErrorResponseStatus status body :=
  rfl

theorem contentType_blockAnswer (fromSlice : List UInt8 → Option Value) (status : StatusCode)
    (contentType : HeaderValue) (body : List UInt8) :
    (blockAnswer fromSlice status contentType body).contentType = contentType :=
  rfl

/-- A flow that leaves the cache as it is, or answers a blocked input and stores the answer.
What it does is the same whatever the cache holds. -/
def UsesCache {α : Type} (fromSlice : List UInt8 → Option Value) (answer : Response → α)
    (flow : BlockScope → Option (α × Option UpstreamBlockCache)) : Prop :=
  (∃ result : Option α, ∀ scope, flow scope = result.map fun a => (a, scope.cache)) ∨
  ∃ status contentType body response,
    blockResponseToStore fromSlice status contentType body = some response ∧
    ∀ scope, flow scope =
      some (answer (blockAnswer fromSlice status contentType body), scope.store response)

theorem maybeStore_eq (scope : BlockScope) (status : StatusCode) (contentType : HeaderValue)
    (body : List UInt8) :
    maybeStoreUpstreamBlockError fromSlice scope status contentType body =
      match blockResponseToStore fromSlice status contentType body with
      | some response => scope.store response
      | none => scope.cache := by
  obtain ⟨cache, key, now⟩ := scope
  unfold maybeStoreUpstreamBlockError BlockScope.store
  cases hstore : blockResponseToStore fromSlice status contentType body <;> cases cache <;>
    cases key <;> simp

/-- What is not classified is not stored. -/
theorem blockResponseToStore_none {status : StatusCode} {contentType : HeaderValue}
    {body : List UInt8} (h : classifyBlockableUpstreamError status body = none) :
    blockResponseToStore fromSlice status contentType body = none := by
  unfold blockResponseToStore
  rw [h, Option.map_none, ite_self]

/-- What is stored is a short answer to a blocked input. -/
theorem blockResponseToStore_some {status : StatusCode} {contentType : HeaderValue} {body : List UInt8}
    {stored : CachedBlockResponse} (h : blockResponseToStore fromSlice status contentType body = some stored) :
    (classifyBlockableUpstreamError status body).isSome = true ∧ body.length ≤ maxUpstreamBlockCacheBodyBytes := by
  unfold blockResponseToStore at h
  split at h
  · cases h
  · rename_i hshort
    obtain ⟨reason, hclassify, -⟩ := Option.map_eq_some_iff.1 h
    exact ⟨Option.isSome_of_eq_some hclassify, Nat.not_lt.1 hshort⟩

/-- A flow that answers an upstream error and then stores, if it is to be stored. -/
theorem usesCache_site {α : Type} {answer : Response → α}
    {flow : BlockScope → Option (α × Option UpstreamBlockCache)} (status : StatusCode)
    (contentType : HeaderValue) (body : List UInt8)
    (hflow : ∀ scope, flow scope = some (answer (blockAnswer fromSlice status contentType body),
      maybeStoreUpstreamBlockError fromSlice scope status contentType body)) :
    UsesCache fromSlice answer flow := by
  cases hstore : blockResponseToStore fromSlice status contentType body with
  | some response =>
    refine Or.inr ⟨status, contentType, body, response, hstore, fun scope => ?_⟩
    rw [hflow, maybeStore_eq, hstore]
  | none =>
    refine Or.inl ⟨some (answer (blockAnswer fromSlice status contentType body)), fun scope => ?_⟩
    rw [hflow, maybeStore_eq, hstore]
    rfl

theorem usesCache_keeps {α : Type} {answer : Response → α}
    {flow : BlockScope → Option (α × Option UpstreamBlockCache)} (a : α)
    (hflow : ∀ scope, flow scope = some (a, scope.cache)) : UsesCache fromSlice answer flow :=
  Or.inl ⟨some a, hflow⟩

theorem handleNonStreamResponse_usesCache (finish : List UInt8 → Response) (status : StatusCode)
    (contentType : Option HeaderValue) (body : List UInt8) :
    UsesCache fromSlice id fun scope =>
      some (handleNonStreamResponse fromSlice finish scope status contentType body) := by
  by_cases hsuccess : isSuccess status = true
  · refine usesCache_keeps (finish body) fun scope => ?_
    unfold handleNonStreamResponse
    simp [hsuccess]
  · refine usesCache_site status (contentType.getD applicationJson)
      ((annotateUpstreamErrorJson fromSlice status body).getD body) fun scope => ?_
    unfold handleNonStreamResponse
    simp [hsuccess, blockAnswer]

theorem handleOpenaiImageResponse_usesCache (finish : List UInt8 → Response) (status : StatusCode)
    (contentType : Option HeaderValue) (body : List UInt8) :
    UsesCache fromSlice id fun scope =>
      some (handleOpenaiImageResponse fromSlice finish scope status contentType body) := by
  by_cases hsuccess : isSuccess status = true
  · refine usesCache_keeps (finish body) fun scope => ?_
    unfold handleOpenaiImageResponse
    simp [hsuccess]
  · refine usesCache_site status (contentType.getD applicationJson) body fun scope => ?_
    unfold handleOpenaiImageResponse
    simp [hsuccess, blockAnswer]

theorem rawReqwestResponse_usesCache (status : StatusCode) (contentType : Option HeaderValue)
    (body : Option (List UInt8)) :
    UsesCache fromSlice id fun scope =>
      some (rawReqwestResponse fromSlice scope status contentType body) := by
  cases body with
  | none => exact usesCache_keeps _ fun scope => rfl
  | some bytes =>
    exact usesCache_site status (contentType.getD applicationJson) bytes fun _ => rfl

theorem upstreamBlockCacheJsonErrorResponse_usesCache (status : StatusCode) (value : Value) :
    UsesCache fromSlice id fun scope =>
      some (upstreamBlockCacheJsonErrorResponse fromSlice scope status value) :=
  usesCache_site status applicationJson (Json.print value) fun _ => rfl

/-- One turn of the polling loop. -/
theorem pollTurn_usesCache (deadline failures : ℕ) (poll : Poll) :
    UsesCache fromSlice (fun response => PollTurn.done (.error response)) fun scope =>
      some (pollTurn fromSlice scope deadline failures poll) := by
  unfold pollTurn
  cases poll.outcome with
  | sendFailed message =>
    dsimp only
    by_cases hmany : failures + 1 ≥ aiapidevMaxConsecutivePollFailures
    · exact usesCache_keeps _ fun scope => by rw [if_pos hmany]
    · by_cases hlate : poll.clock ≥ deadline
      · exact usesCache_keeps _ fun scope => by rw [if_neg hmany, if_pos hlate]
      · exact usesCache_keeps _ fun scope => by rw [if_neg hmany, if_neg hlate]
  | answered status contentType body =>
    dsimp only
    cases hsuccess : isSuccess status with
    | false =>
      simp only [Bool.not_false, if_true]
      cases body with
      | none => exact usesCache_keeps _ fun scope => rfl
      | some bytes =>
        dsimp only
        cases hclassify : classifyBlockableUpstreamError status bytes with
        | some reason =>
          exact usesCache_site status (contentType.getD applicationJson) bytes fun scope => rfl
        | none =>
          -- nothing is stored, neither here nor at the last failure
          have hkeeps : ∀ scope : BlockScope, maybeStoreUpstreamBlockError fromSlice scope status
              (contentType.getD applicationJson) bytes = scope.cache := by
            intro scope
            rw [maybeStore_eq, blockResponseToStore_none hclassify]
          simp only [hkeeps, Option.isSome_none, Bool.false_eq_true, if_false]
          cases hretry : isAiapidevRetryablePollStatus status with
          | false => exact usesCache_keeps _ fun scope => rfl
          | true =>
            simp only [Bool.not_true, Bool.false_eq_true, if_false]
            by_cases hmany : failures + 1 ≥ aiapidevMaxConsecutivePollFailures
            · exact usesCache_keeps _ fun scope => by rw [if_pos hmany]
            · by_cases hlate : poll.clock ≥ deadline
              · exact usesCache_keeps _ fun scope => by rw [if_neg hmany, if_pos hlate]
              · exact usesCache_keeps _ fun scope => by rw [if_neg hmany, if_neg hlate]
    | true =>
      simp only [Bool.not_true, Bool.false_eq_true, if_false]
      cases body.bind fromSlice with
      | none => exact usesCache_keeps _ fun scope => rfl
      | some task =>
        dsimp only
        by_cases hterminal : isAiapidevTerminalStatus (taskStatus task) = true
        · exact usesCache_keeps _ fun scope => by rw [if_pos hterminal]
        · by_cases hlate : poll.clock ≥ deadline
          · exact usesCache_keeps _ fun scope => by rw [if_neg hterminal, if_pos hlate]
          · exact usesCache_keeps _ fun scope => by rw [if_neg hterminal, if_neg hlate]

/-- **The polling loop stores at most what it answers**: every turn but the last leaves the
cache. -/
theorem pollLoop_usesCache (deadline : ℕ) (polls : List Poll) :
    ∀ failures, UsesCache fromSlice Except.error fun scope =>
      pollLoop fromSlice scope deadline failures polls := by
  induction polls with
  | nil =>
    intro failures
    exact Or.inl ⟨none, fun scope => rfl⟩
  | cons poll polls ih =>
    intro failures
    rcases @pollTurn_usesCache fromSlice deadline failures poll with
      ⟨turn, hturn⟩ | ⟨status, contentType, body, response, hstore, hturn⟩
    · -- the turn leaves the cache, and the loop ends with it or goes on
      cases turn with
      | none =>
        have hnone := hturn ⟨none, none, 0⟩
        cases hnone
      | some turn =>
        have hturn' : ∀ scope, pollTurn fromSlice scope deadline failures poll = (turn, scope.cache) :=
          fun scope => Option.some.inj (hturn scope)
        cases turn with
        | done result =>
          refine usesCache_keeps result fun scope => ?_
          unfold pollLoop
          rw [hturn']
        | again failures' =>
          have hloop : (fun scope => pollLoop fromSlice scope deadline failures (poll :: polls)) =
              fun scope => pollLoop fromSlice scope deadline failures' polls := by
            funext scope
            conv_lhs => unfold pollLoop
            rw [hturn']
          rw [hloop]
          exact ih failures'
    · -- a turn that stores ends the loop
      refine Or.inr ⟨status, contentType, body, response, hstore, fun scope => ?_⟩
      have hturn' := Option.some.inj (hturn scope)
      dsimp only
      unfold pollLoop
      rw [hturn']

theorem pollTask_usesCache (url : Option String) (deadline : ℕ) (polls : List Poll) :
    UsesCache fromSlice Except.error fun scope =>
      match url with
      | none => some (.error (jsonResponse badGateway (errorJson badGateway MSG_UPSTREAM_URL_INVALID)),
          scope.cache)
      | some _ => pollLoop fromSlice scope deadline 0 polls := by
  cases url with
  | none => exact usesCache_keeps _ fun scope => rfl
  | some url => exact pollLoop_usesCache deadline polls 0

/-- A task is answered where its creation fails, where its polling ends, or where it has
failed itself. -/
theorem handleAiapidevTask_usesCache
    {pollTask : BlockScope → String → Option (Except Response Value × Option UpstreamBlockCache)}
    (hpoll : ∀ requestId, UsesCache fromSlice Except.error fun scope => pollTask scope requestId)
    (finish : Value → Response) (url : Option String) (create : UpstreamOutcome) :
    UsesCache fromSlice id fun scope =>
      handleAiapidevTask fromSlice (pollTask scope) finish scope url create := by
  unfold handleAiapidevTask
  cases url with
  | none => exact usesCache_keeps _ fun scope => rfl
  | some url =>
    cases create with
    | sendFailed message => exact usesCache_keeps _ fun scope => rfl
    | answered status contentType body =>
      dsimp only
      cases hsuccess : isSuccess status with
      | false =>
        -- the creation has failed
        simp only [Bool.not_false, if_true]
        exact rawReqwestResponse_usesCache status contentType body
      | true =>
        simp only [Bool.not_true, Bool.false_eq_true, if_false]
        cases body.bind fromSlice with
        | none => exact usesCache_keeps _ fun scope => rfl
        | some createdTask =>
          dsimp only
          cases nonBlankText createdTask "requestId" with
          | none => exact usesCache_keeps _ fun scope => rfl
          | some requestId =>
            dsimp only
            rcases hpoll requestId with
              ⟨result, hresult⟩ | ⟨status', contentType', bytes, response, hstore, hresult⟩
            · dsimp only at hresult
              cases result with
              | none =>
                simp only [hresult]
                exact Or.inl ⟨none, fun scope => rfl⟩
              | some result =>
                simp only [hresult, Option.map_some]
                cases result with
                | error response => exact usesCache_keeps response fun scope => rfl
                | ok task =>
                  dsimp only
                  by_cases hfailed : taskStatus task ≠ "succeeded"
                  · simp only [if_pos hfailed]
                    exact upstreamBlockCacheJsonErrorResponse_usesCache _ _
                  · simp only [if_neg hfailed]
                    exact usesCache_keeps _ fun scope => rfl
            · -- the polling has stored what it ends with
              dsimp only at hresult
              simp only [hresult]
              exact Or.inr ⟨status', contentType', bytes, response, hstore, fun scope => rfl⟩

/-- **A flow stores at most what it answers.** -/
theorem forward_usesCache (forwarding : Forwarding) :
    UsesCache fromSlice id fun scope => forward fromSlice scope forwarding := by
  cases forwarding with
  | transparentGemini status contentType body finish =>
    exact handleNonStreamResponse_usesCache finish status contentType body
  | transparentOpenaiImage status contentType body finish =>
    exact handleOpenaiImageResponse_usesCache finish status contentType body
  | aiapidevGemini targetPath run | aiapidevOpenaiImage run =>
    exact handleAiapidevTask_usesCache (fun requestId => pollTask_usesCache _ _ _) _ _ _
  | other response => exact usesCache_keeps response fun scope => rfl

/-! ## The cache -/

namespace UpstreamBlockCache

theorem peek_foldl_pop {k : UpstreamBlockCacheKey} (keys : List UpstreamBlockCacheKey) (hk : k ∉ keys) :
    ∀ entries : Lru UpstreamBlockCacheKey StoredBlockResponse,
      (keys.foldl Lru.pop entries).peek k = entries.peek k := by
  induction keys with
  | nil => exact fun entries => rfl
  | cons key keys ih =>
    intro entries
    rw [List.mem_cons, not_or] at hk
    rw [List.foldl_cons, ih hk.2, Lru.peek_pop_of_ne hk.1]

/-- Pruning leaves what has not expired. -/
theorem peek_prune {entries : Lru UpstreamBlockCacheKey StoredBlockResponse} {now : ℕ}
    {k : UpstreamBlockCacheKey} {entry : StoredBlockResponse} (hpeek : entries.peek k = some entry)
    (hfresh : now < entry.expiresAt) : (pruneExpiredEntries entries now).peek k = some entry := by
  unfold pruneExpiredEntries
  rw [peek_foldl_pop _ _ entries, hpeek]
  intro hmem
  obtain ⟨e, he, rfl⟩ := List.mem_map.1 hmem
  obtain ⟨he, hexpired⟩ := List.mem_filter.1 he
  -- keys are distinct, so this is the entry itself
  have hsame := (Assoc.lookup_eq_some_iff_mem entries.nodup).2 he
  unfold Lru.peek at hpeek
  rw [hpeek] at hsame
  obtain rfl := Option.some.inj hsame
  have := of_decide_eq_true hexpired
  omega

/-- A lookup of a stored answer that has not expired. -/
theorem get_hit {cache : UpstreamBlockCache} {now : ℕ} {k : UpstreamBlockCacheKey}
    {entry : StoredBlockResponse} (hpeek : cache.entries.peek k = some entry)
    (hfresh : now < entry.expiresAt) :
    (cache.get now k).1 = some ⟨entry.response.status, entry.response.upstreamStatus,
      entry.response.contentType, entry.response.body, entry.response.reason⟩ := by
  obtain ⟨entries, hget⟩ := Lru.get_of_peek hpeek
  unfold get
  split
  · rename_i hnone
    rw [hget] at hnone
    cases hnone
  · rename_i entry' entries' hsome
    rw [hget] at hsome
    obtain ⟨rfl, rfl⟩ := Prod.mk.inj (Option.some.inj hsome)
    rw [if_neg (by omega)]

/-- **A lookup keeps what has not expired**, whatever is looked up. -/
theorem get_keeps {cache : UpstreamBlockCache} {now : ℕ} {k key : UpstreamBlockCacheKey}
    {entry : StoredBlockResponse} (hpeek : cache.entries.peek k = some entry)
    (hfresh : now < entry.expiresAt) : (cache.get now key).2.entries.peek k = some entry := by
  unfold get
  split
  · exact hpeek
  · rename_i found entries hsome
    dsimp only
    split
    · rename_i hexpired
      by_cases hkey : k = key
      · subst hkey
        have hfound := (Lru.get_eq_some hsome).1
        rw [hpeek] at hfound
        obtain rfl := Option.some.inj hfound
        omega
      · rw [Lru.peek_pop_of_ne hkey, Lru.peek_get hsome, hpeek]
    · rw [Lru.peek_get hsome, hpeek]

theorem peek_insert_self (cache : UpstreamBlockCache) (now : ℕ) (k : UpstreamBlockCacheKey)
    (response : CachedBlockResponse) :
    (cache.insert now k response).entries.peek k = some ⟨response, now + cache.ttl⟩ := by
  unfold insert
  dsimp only
  rw [Lru.peek_put_self]

/-- **An insertion under another key keeps what has not expired**, unless it evicts it. -/
theorem insert_keeps {cache : UpstreamBlockCache} {now : ℕ} {k key : UpstreamBlockCacheKey}
    {entry : StoredBlockResponse} (response : CachedBlockResponse)
    (hpeek : cache.entries.peek k = some entry) (hfresh : now < entry.expiresAt) (hne : k ≠ key)
    (hkept : (pruneExpiredEntries cache.entries now).evicted key ≠ some k) :
    (cache.insert now key response).entries.peek k = some entry := by
  unfold insert
  dsimp only
  rw [Lru.peek_put_of_ne _ _ hne hkept]
  exact peek_prune hpeek hfresh

end UpstreamBlockCache

/-! ## Runs of the proxy -/

/-- The forwarding hands this answer to the cache, whatever the cache holds. -/
def Forwarding.Stores (fromSlice : List UInt8 → Option Value) (forwarding : Forwarding)
    (stored : CachedBlockResponse) : Prop :=
  ∃ response, ∀ scope, forward fromSlice scope forwarding = some (response, scope.store stored)

/-- The event stores an answer under the key. -/
def StoresUnder (fromSlice : List UInt8 → Option Value) (k : UpstreamBlockCacheKey) (proxy : Proxy) :
    ProxyEvent → Prop
  | .arrives .. => False
  | .answered id forwarding => proxy.forwarding.lookup id = some (some k) ∧
      ∃ stored, forwarding.Stores fromSlice stored

/-- The event stores an answer under another key, and the cache evicts this one for it. -/
def Evicts (fromSlice : List UInt8 → Option Value) (k : UpstreamBlockCacheKey) (proxy : Proxy)
    (now : ℕ) (event : ProxyEvent) : Prop :=
  ∃ key cache, StoresUnder fromSlice key proxy event ∧ proxy.cache = some cache ∧
    (UpstreamBlockCache.pruneExpiredEntries cache.entries now).evicted key = some k

/-- A run in which no event stores under the key or evicts it. -/
def Quiet (fromSlice : List UInt8 → Option Value) (sha256Hex : List UInt8 → String)
    (k : UpstreamBlockCacheKey) : Proxy → List (ℕ × ProxyEvent) → Prop
  | _, [] => True
  | proxy, (now, event) :: events =>
    ¬ StoresUnder fromSlice k proxy event ∧ ¬ Evicts fromSlice k proxy now event ∧
      ∀ proxy' effect, proxy.step fromSlice sha256Hex now event = some (proxy', effect) →
        Quiet fromSlice sha256Hex k proxy' events

/-- The cache holds this entry under the key. -/
def Holds (proxy : Proxy) (k : UpstreamBlockCacheKey) (entry : StoredBlockResponse) : Prop :=
  ∃ cache, proxy.cache = some cache ∧ cache.entries.peek k = some entry

variable {sha256Hex : List UInt8 → String}

/-- **One event keeps an entry** that has not expired. -/
theorem step_keeps {proxy proxy' : Proxy} {now : ℕ} {event : ProxyEvent} {effect : ProxyEffect}
    {k : UpstreamBlockCacheKey} {entry : StoredBlockResponse}
    (hstep : proxy.step fromSlice sha256Hex now event = some (proxy', effect))
    (hholds : Holds proxy k entry) (hfresh : now < entry.expiresAt)
    (hstores : ¬ StoresUnder fromSlice k proxy event)
    (hevicts : ¬ Evicts fromSlice k proxy now event) : Holds proxy' k entry := by
  obtain ⟨cache, hcache, hpeek⟩ := hholds
  cases event with
  | arrives id path baseUrl body =>
    have hkeeps := @UpstreamBlockCache.get_keeps cache now k
      (UpstreamBlockCacheKey.new sha256Hex path baseUrl body) entry hpeek hfresh
    unfold Proxy.step at hstep
    rw [hcache] at hstep
    dsimp only at hstep
    split at hstep
    · rename_i hit cache' hget
      rw [hget] at hkeeps
      obtain ⟨rfl, -⟩ := Prod.mk.inj (Option.some.inj hstep)
      exact ⟨cache', rfl, hkeeps⟩
    · rename_i cache' hget
      rw [hget] at hkeeps
      obtain ⟨rfl, -⟩ := Prod.mk.inj (Option.some.inj hstep)
      exact ⟨cache', rfl, hkeeps⟩
  | answered id forwarding =>
    unfold Proxy.step at hstep
    dsimp only at hstep
    split at hstep
    · cases hstep
    rename_i key hlookup
    rcases @forward_usesCache fromSlice forwarding with
      ⟨result, hresult⟩ | ⟨status, contentType, body, response, -, hresult⟩
    · -- the forwarding leaves the cache
      dsimp only at hresult
      rw [hresult] at hstep
      cases result with
      | none => cases hstep
      | some response =>
        obtain ⟨rfl, -⟩ := Prod.mk.inj (Option.some.inj hstep)
        exact ⟨cache, hcache, hpeek⟩
    · dsimp only at hresult
      rw [hresult] at hstep
      obtain ⟨rfl, -⟩ := Prod.mk.inj (Option.some.inj hstep)
      unfold BlockScope.store Holds
      dsimp only
      rw [hcache]
      cases key with
      | none => exact ⟨cache, rfl, hpeek⟩
      | some key =>
        have hunder : StoresUnder fromSlice key proxy (.answered id forwarding) :=
          ⟨hlookup, response, _, hresult⟩
        have hne : k ≠ key := by
          rintro rfl
          exact hstores hunder
        have hkept : (UpstreamBlockCache.pruneExpiredEntries cache.entries now).evicted key ≠ some k :=
          fun he => hevicts ⟨key, cache, hunder, hcache, he⟩
        exact ⟨_, rfl, UpstreamBlockCache.insert_keeps response hpeek hfresh hne hkept⟩

/-- **A run keeps an entry** until it expires, is replaced or is evicted. -/
theorem run_keeps {k : UpstreamBlockCacheKey} {entry : StoredBlockResponse}
    (events : List (ℕ × ProxyEvent)) :
    ∀ {proxy proxy' : Proxy}, proxy.run fromSlice sha256Hex events = some proxy' →
      Holds proxy k entry → (∀ e ∈ events, e.1 < entry.expiresAt) →
      Quiet fromSlice sha256Hex k proxy events → Holds proxy' k entry := by
  induction events with
  | nil =>
    intro proxy proxy' hrun hholds _ _
    obtain rfl := Option.some.inj hrun
    exact hholds
  | cons e events ih =>
    obtain ⟨now, event⟩ := e
    intro proxy proxy' hrun hholds hfresh hquiet
    obtain ⟨hstores, hevicts, hrest⟩ := hquiet
    unfold Proxy.run at hrun
    split at hrun
    · rename_i proxy₁ effect hstep
      have hholds₁ := step_keeps hstep hholds (hfresh _ (List.mem_cons_self ..)) hstores hevicts
      exact ih hrun hholds₁ (fun e he => hfresh e (List.mem_cons_of_mem _ he)) (hrest _ _ hstep)
    · cases hrun

/-- The answer that the client sees; the upstream status is kept for the log. -/
def Response.SameAnswer (response response' : Response) : Prop :=
  response'.status = response.status ∧ response'.contentType = response.contentType ∧
    response'.body = response.body

/-- **A stored answer is replayed**: the status and the rewritten body are the ones first
answered. -/
theorem sameAnswer_hit (hserde : SerdeJson fromSlice IsValue) {status : StatusCode}
    {contentType : HeaderValue} {body : List UInt8} {stored : CachedBlockResponse}
    (h : blockResponseToStore fromSlice status contentType body = some stored) :
    (blockAnswer fromSlice status contentType body).SameAnswer
      (responseFromBlockCacheHit fromSlice ⟨stored.status, stored.upstreamStatus, stored.contentType,
        stored.body, stored.reason⟩) := by
  unfold blockResponseToStore at h
  split at h
  · cases h
  · obtain ⟨reason, -, rfl⟩ := Option.map_eq_some_iff.1 h
    unfold Response.SameAnswer responseFromBlockCacheHit blockAnswer rawResponseWithUpstreamStatus
      rawResponseWithBody
    dsimp only
    rw [blockErrorResponseBody_idem hserde status body]
    exact ⟨rfl, rfl, rfl⟩

/-- A scope whose cache is empty. -/
def emptyScope : BlockScope := ⟨some ⟨1, Lru.empty 1, Nat.one_pos⟩, some "", 0⟩

theorem peek_store_emptyScope (stored : CachedBlockResponse) :
    ∃ cache, emptyScope.store stored = some cache ∧ cache.entries.peek "" = some ⟨stored, 1⟩ :=
  ⟨_, rfl, UpstreamBlockCache.peek_insert_self ⟨1, Lru.empty 1, Nat.one_pos⟩ 0 "" stored⟩

/-- The flow comes to answer an upstream error, which it offers to the cache. -/
def Forwarding.AnswersError (fromSlice : List UInt8 → Option Value) (forwarding : Forwarding)
    (status : StatusCode) (contentType : HeaderValue) (body : List UInt8) : Prop :=
  ∀ scope, forward fromSlice scope forwarding = some (blockAnswer fromSlice status contentType body,
    maybeStoreUpstreamBlockError fromSlice scope status contentType body)

/-- **A flow that stores answers an upstream error**, and it stores what it answers. -/
theorem Forwarding.Stores.answersError {forwarding : Forwarding} {stored : CachedBlockResponse}
    (h : forwarding.Stores fromSlice stored) :
    ∃ status contentType body, forwarding.AnswersError fromSlice status contentType body ∧
      blockResponseToStore fromSlice status contentType body = some stored := by
  obtain ⟨response, hresponse⟩ := h
  obtain ⟨cache, hcache, hpeek⟩ := peek_store_emptyScope stored
  have hempty := hresponse emptyScope
  rw [hcache] at hempty
  rcases @forward_usesCache fromSlice forwarding with
    ⟨result, hresult⟩ | ⟨status, contentType, body, stored', hblocked, hresult⟩
  · -- a flow that leaves the cache leaves the empty one
    have hkept := hresult emptyScope
    dsimp only at hkept
    rw [hempty] at hkept
    cases result with
    | none => cases hkept
    | some r =>
      have hsame := (Prod.mk.inj (Option.some.inj hkept)).2
      rw [Option.some.inj hsame] at hpeek
      cases hpeek
  · have hother := hresult emptyScope
    obtain ⟨cache', hcache', hpeek'⟩ := peek_store_emptyScope stored'
    dsimp only at hother
    rw [hempty, hcache'] at hother
    have hsame := Option.some.inj (Prod.mk.inj (Option.some.inj hother)).2
    rw [hsame, hpeek'] at hpeek
    obtain rfl : stored' = stored := by
      injection hpeek with hentry
      injection hentry
    refine ⟨status, contentType, body, fun scope => ?_, hblocked⟩
    rw [maybeStore_eq, hblocked]
    exact hresult scope

/-- **A flow stores exactly where it answers a short upstream error that blocks the input.** -/
theorem Forwarding.stores_iff {forwarding : Forwarding} :
    (∃ stored, forwarding.Stores fromSlice stored) ↔ ∃ status contentType body,
      forwarding.AnswersError fromSlice status contentType body ∧
        (classifyBlockableUpstreamError status body).isSome = true ∧ body.length ≤ maxUpstreamBlockCacheBodyBytes := by
  constructor
  · rintro ⟨stored, hstores⟩
    obtain ⟨status, contentType, body, hanswers, hblocked⟩ := hstores.answersError
    exact ⟨status, contentType, body, hanswers, blockResponseToStore_some hblocked⟩
  · rintro ⟨status, contentType, body, hanswers, hclassify, hshort⟩
    obtain ⟨reason, hclassify⟩ := Option.isSome_iff_exists.1 hclassify
    obtain ⟨stored, hblocked⟩ : ∃ stored, blockResponseToStore fromSlice status contentType body = some stored := by
      unfold blockResponseToStore
      rw [if_neg (Nat.not_lt.2 hshort), hclassify]
      exact ⟨_, rfl⟩
    refine ⟨stored, blockAnswer fromSlice status contentType body, fun scope => ?_⟩
    rw [hanswers, maybeStore_eq, hblocked]

/-- **Replaying a blocked request.** A flow has stored what it has answered a request with key `k`, which is an upstream
error that blocks the input and is short enough. As long as the entry is neither replaced nor evicted and has not
expired, a request with that key is answered in the same way, and the upstream is not called for it. -/
theorem blocked_answer_is_replayed (fromSlice : List UInt8 → Option Value) (IsValue : Value → Prop)
    (hserde : SerdeJson fromSlice IsValue) (sha256Hex : List UInt8 → String)
    {proxy proxy₁ proxy₂ : Proxy} {cache : UpstreamBlockCache} {t₀ t id : ℕ}
    {forwarding : Forwarding} {effect : ProxyEffect} {k : UpstreamBlockCacheKey}
    (hcache : proxy.cache = some cache) (hkey : proxy.forwarding.lookup id = some (some k))
    (hstores : ∃ stored, forwarding.Stores fromSlice stored)
    (hstep : proxy.step fromSlice sha256Hex t₀ (.answered id forwarding) = some (proxy₁, effect))
    {events : List (ℕ × ProxyEvent)} (hrun : proxy₁.run fromSlice sha256Hex events = some proxy₂)
    (hquiet : Quiet fromSlice sha256Hex k proxy₁ events) (htimes : ∀ e ∈ events, e.1 ≤ t)
    (hfresh : t < t₀ + cache.ttl) {id' : ℕ} {path baseUrl : String} {body : Value}
    (hk : UpstreamBlockCacheKey.new sha256Hex path baseUrl body = k) :
    ∃ status contentType bytes response' proxy₃, forwarding.AnswersError fromSlice status contentType bytes ∧
      (classifyBlockableUpstreamError status bytes).isSome = true ∧ bytes.length ≤ maxUpstreamBlockCacheBodyBytes ∧
      effect = .replies id (blockAnswer fromSlice status contentType bytes) ∧
      proxy₂.step fromSlice sha256Hex t (.arrives id' path baseUrl body) =
        some (proxy₃, .replies id' response') ∧
      proxy₃.forwarding = proxy₂.forwarding ∧ (blockAnswer fromSlice status contentType bytes).SameAnswer response' ∧
      blockErrorResponseBody fromSlice status (blockAnswer fromSlice status contentType bytes).body =
        (blockAnswer fromSlice status contentType bytes).body := by
  obtain ⟨stored, hstored⟩ := hstores
  obtain ⟨status, contentType, bytes, hanswers, hblocked⟩ := hstored.answersError
  have hfirst : proxy.step fromSlice sha256Hex t₀ (.answered id forwarding) =
      some (⟨some (cache.insert t₀ k stored), proxy.forwarding.filter fun waiting => waiting.1 ≠ id⟩,
        .replies id (blockAnswer fromSlice status contentType bytes)) := by
    unfold Proxy.step
    dsimp only
    rw [hkey]
    dsimp only
    rw [hanswers, maybeStore_eq, hblocked]
    unfold BlockScope.store
    rw [hcache]
  rw [hfirst] at hstep
  obtain ⟨hproxy₁, heffect⟩ := Prod.mk.inj (Option.some.inj hstep)
  -- the entry is there when the request arrives
  have hholds : Holds proxy₁ k ⟨stored, t₀ + cache.ttl⟩ := by
    rw [← hproxy₁]
    exact ⟨_, rfl, UpstreamBlockCache.peek_insert_self cache t₀ k stored⟩
  obtain ⟨cache₂, hcache₂, hpeek⟩ := run_keeps events hrun hholds
    (fun e he => lt_of_le_of_lt (htimes e he) hfresh) hquiet
  have hhit := UpstreamBlockCache.get_hit hpeek hfresh
  obtain ⟨hclassify, hshort⟩ := blockResponseToStore_some hblocked
  refine ⟨status, contentType, bytes, _, ⟨some (cache₂.get t k).2, proxy₂.forwarding⟩, hanswers, hclassify, hshort,
    heffect.symm, ?_, rfl, sameAnswer_hit hserde hblocked, blockErrorResponseBody_idem hserde status bytes⟩
  unfold Proxy.step
  rw [hcache₂]
  dsimp only
  rw [hk, ← Prod.eta (cache₂.get t k), hhit]

/-- The verified reader is one for which the round trip holds. -/
theorem serdeJson_parse : SerdeJson Json.parse Value.WellFormed :=
  ⟨fun _ _ h => Json.parse_wellFormed h, fun _ => ⟨trivial, trivial⟩,
    fun _ _ _ h hget => h.get hget, fun _ key _ h hv => h.insert hv key,
    fun _ h => Json.parse_print h.1 h.2⟩

/-- A blocked prompt, and the digest of its body. -/
def blockedPrompt : Value := .object [("prompt", .string "blocked")]

def digestExample (_ : List UInt8) : String :=
  "44ff62ca1a607f30918fffcf5f53a1919ba7ffe2a45c03b2dff94fb03171ed86"

def blockedKey : UpstreamBlockCacheKey :=
  UpstreamBlockCacheKey.new digestExample "/v1/images/generations" "https://upstream.example" blockedPrompt

def blockedBody : List UInt8 := Text.bytes "\x7b\"error\":\x7b\"message\":\"content blocked\"\x7d\x7d"

def blockedForwarding : Forwarding :=
  .transparentOpenaiImage 400 none blockedBody fun bytes => ⟨200, applicationJson, bytes, none⟩

def createdTask : Value := .object [("requestId", .string "task-1")]

/-- A task that is created and whose second poll is answered by the error. -/
def blockedTask : Forwarding :=
  .aiapidevGemini "/v1beta/models/nano-banana:generateContent"
    ⟨fun path => some ("https://www.aiapidev.com" ++ path), .answered 200 none (some (Json.print createdTask)), 0,
      [⟨.sendFailed "timeout", 5⟩, ⟨.answered 400 none (some blockedBody), 10⟩], fun _ => ⟨200, applicationJson, [], none⟩⟩

theorem classify_blockedBody : classifyBlockableUpstreamError 400 blockedBody = some "content_blocked" := by
  decide +kernel

theorem blockedForwarding_answersError : blockedForwarding.AnswersError Json.parse 400 applicationJson blockedBody := by
  intro scope
  rfl

theorem blockedTask_answersError : blockedTask.AnswersError Json.parse 400 applicationJson blockedBody := by
  intro scope
  have hread : Json.parse (Json.print createdTask) = some createdTask := by
    apply Json.parse_print
    · simp [createdTask, Map.keys]
    · simp [createdTask]
  have hrequestId : nonBlankText createdTask "requestId" = some "task-1" := by decide +kernel
  -- the first poll fails, the second one is answered by the error
  have hfailed : pollTurn Json.parse scope (0 + aiapidevMaxPollTime) 0 ⟨.sendFailed "timeout", 5⟩ =
      (.again 1, scope.cache) := rfl
  have hblocked : pollTurn Json.parse scope (0 + aiapidevMaxPollTime) 1 ⟨.answered 400 none (some blockedBody), 10⟩ =
      (.done (.error (blockAnswer Json.parse 400 applicationJson blockedBody)),
        maybeStoreUpstreamBlockError Json.parse scope 400 applicationJson blockedBody) := by
    have hfailure : isSuccess 400 = false := rfl
    simp only [pollTurn, hfailure, classify_blockedBody, Bool.not_false, if_true, Option.isSome_some]
    rfl
  have hcreated : isSuccess 200 = true := rfl
  simp only [blockedTask, forward, handleAiapidevResponse, handleAiapidevTask, hcreated, Bool.not_true, Bool.false_eq_true,
    if_false, Option.bind_some, hread, hrequestId, pollAiapidevTask, pollLoop, hfailed, hblocked]

theorem stores_blockedBody {forwarding : Forwarding} (h : forwarding.AnswersError Json.parse 400 applicationJson blockedBody) :
    ∃ stored, forwarding.Stores Json.parse stored := by
  have hclassify : (classifyBlockableUpstreamError 400 blockedBody).isSome = true := by
    rw [classify_blockedBody]
    rfl
  exact Forwarding.stores_iff.mpr ⟨400, applicationJson, blockedBody, h, hclassify, by decide +kernel⟩

/-- A proxy that forwards the blocked prompt. -/
def blockedProxy : Proxy := ⟨some ⟨60000, Lru.empty 2, Nat.two_pos⟩, [(1, some blockedKey)]⟩

/-- The prompt is blocked at 10, and its repetition at 20 is answered from the cache. -/
def ReplaysBlocked (forwarding : Forwarding) : Prop :=
  ∃ proxy₁ proxy₃ response',
    blockedProxy.step Json.parse digestExample 10 (.answered 1 forwarding) =
      some (proxy₁, .replies 1 (blockAnswer Json.parse 400 applicationJson blockedBody)) ∧
    proxy₁.step Json.parse digestExample 20
      (.arrives 2 "/v1/images/generations" "https://upstream.example" blockedPrompt) =
        some (proxy₃, .replies 2 response') ∧
    response'.status = 451 ∧ response'.contentType = applicationJson

theorem blocked_answer_example : ReplaysBlocked blockedForwarding ∧ ReplaysBlocked blockedTask := by
  have hreplays : ∀ forwarding : Forwarding, forwarding.AnswersError Json.parse 400 applicationJson blockedBody →
      ReplaysBlocked forwarding := by
    intro forwarding hanswers
    obtain ⟨proxy₁, hstep⟩ : ∃ proxy₁, blockedProxy.step Json.parse digestExample 10 (.answered 1 forwarding) =
        some (proxy₁, .replies 1 (blockAnswer Json.parse 400 applicationJson blockedBody)) := by
      have hlookup : blockedProxy.forwarding.lookup 1 = some (some blockedKey) := rfl
      unfold Proxy.step
      dsimp only
      rw [hlookup]
      dsimp only
      rw [hanswers]
      exact ⟨_, rfl⟩
    have hlookup : blockedProxy.forwarding.lookup 1 = some (some blockedKey) := by
      unfold blockedProxy
      exact Eq.refl _
    have hfresh : 20 < 10 + (⟨60000, Lru.empty 2, Nat.two_pos⟩ : UpstreamBlockCache).ttl := by
      dsimp only
      omega
    obtain ⟨status, contentType, bytes, response', proxy₃, -, -, -, heffect, hreplay, -, hsame, -⟩ :=
      @blocked_answer_is_replayed Json.parse Value.WellFormed serdeJson_parse digestExample blockedProxy
        proxy₁ proxy₁ ⟨60000, Lru.empty 2, Nat.two_pos⟩ 10 20 1 forwarding _ blockedKey rfl hlookup
        (stores_blockedBody hanswers) hstep [] rfl trivial (fun e he => by cases he) hfresh 2
        "/v1/images/generations" "https://upstream.example" blockedPrompt rfl
    have hresponse := (ProxyEffect.replies.inj heffect).2
    rw [← hresponse] at hsame
    refine ⟨proxy₁, proxy₃, response', hstep, hreplay, ?_, ?_⟩
    · rw [hsame.1, status_blockAnswer]
      unfold blockErrorResponseStatus
      rw [classify_blockedBody]
      rfl
    · rw [hsame.2.1, contentType_blockAnswer]
  exact ⟨hreplays _ blockedForwarding_answersError, hreplays _ blockedTask_answersError⟩

end GeminiWorker
