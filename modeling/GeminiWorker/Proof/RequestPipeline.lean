import GeminiWorker.Lib.JsonLayout
import GeminiWorker.Proof.RequestImages
import GeminiWorker.Spec.RequestMaterialize

/-!
# The image stages of a request

* `joinFetches_ok`: in whatever order the fetches complete, every URL's blob holds what
  was fetched for it.
* `materializeRequestImages_ok`: every image of the request is replaced by the blob of
  its own URL.
* `requestImagePipeline_ok`: the body sent is the request with its images in place.
-/

namespace GeminiWorker

open Json (Value Map)

variable {fetch : String → Option FetchedImage}

/-! ## Fetching -/

theorem mem_uniqueUrls {refs : List RequestImageRef} {url : String} :
    ∀ {seen : List String}, url ∈ uniqueUrls refs seen ↔ url ∈ refs.map (·.url) ∧ url ∉ seen := by
  induction refs with
  | nil => simp [uniqueUrls]
  | cons r refs ih =>
    intro seen
    unfold uniqueUrls
    split
    · rename_i hseen
      rw [ih, List.map_cons, List.mem_cons]
      constructor
      · rintro ⟨hmem, hnot⟩
        exact ⟨Or.inr hmem, hnot⟩
      · rintro ⟨rfl | hmem, hnot⟩
        · exact absurd hseen hnot
        · exact ⟨hmem, hnot⟩
    · rename_i hseen
      rw [List.mem_cons, ih, List.map_cons, List.mem_cons, List.mem_cons]
      constructor
      · rintro (rfl | ⟨hmem, hnot⟩)
        · exact ⟨Or.inl rfl, hseen⟩
        · exact ⟨Or.inr hmem, fun h => hnot (Or.inr h)⟩
      · rintro ⟨rfl | hmem, hnot⟩
        · exact Or.inl rfl
        · by_cases hurl : url = r.url
          · exact Or.inl hurl
          · exact Or.inr ⟨hmem, fun h => h.elim hurl hnot⟩

/-- **No URL is fetched twice.** -/
theorem nodup_uniqueUrls (refs : List RequestImageRef) :
    ∀ seen : List String, (uniqueUrls refs seen).Nodup := by
  induction refs with
  | nil => intro seen; exact List.nodup_nil
  | cons r refs ih =>
    intro seen
    unfold uniqueUrls
    split
    · exact ih seen
    · refine List.nodup_cons.2 ⟨fun h => ?_, ih _⟩
      exact (mem_uniqueUrls.1 h).2 (List.mem_cons_self ..)

/-- A blob of the runtime that holds what was fetched for a URL. -/
structure BlobOf (fetch : String → Option FetchedImage) (runtime : BlobRuntime) (url : String)
    (fetched : FetchedBlob) : Prop where
  stored : runtime.Stored fetched.blob
  fetched_eq : ∃ image, fetch url = some image ∧ fetched.mimeType = image.mimeType ∧
    runtime.readBytes fetched.blob = some image.bytes

theorem BlobOf.extends {runtime runtime' : BlobRuntime} {url : String} {fetched : FetchedBlob}
    (h : BlobOf fetch runtime url fetched) (hext : runtime.Extends runtime') :
    BlobOf fetch runtime' url fetched := by
  obtain ⟨image, himage, hmime, hbytes⟩ := h.fetched_eq
  exact ⟨hext.stored h.stored, image, himage, hmime, by rw [hext.readBytes_eq h.stored, hbytes]⟩

theorem fetchRequestImage_ok {url : String} {image : FetchedImage} (h : fetch url = some image)
    (runtime : BlobRuntime) :
    ∃ fetched runtime', fetchRequestImage fetch (fun _ => .completed) url runtime =
        (.ok fetched, runtime') ∧
      BlobOf fetch runtime' url fetched ∧ runtime.Extends runtime' := by
  unfold fetchRequestImage
  rw [h]
  dsimp only
  split
  · obtain ⟨blob, runtime', hstore, hblob, hext⟩ :=
      BlobRuntime.storeExternalSharedBytes_eq image.bytes image.mimeType runtime
    rw [hstore]
    exact ⟨_, _, rfl, ⟨hblob.stored, image, h, rfl, hblob.bytes_eq⟩, hext⟩
  · obtain ⟨blob, runtime', hstore, hblob, hext⟩ :=
      BlobRuntime.storeBytes_completed image.bytes image.mimeType runtime
    unfold BlobRuntime.storeSharedBytes
    rw [hstore]
    exact ⟨_, _, rfl, ⟨hblob.stored, image, h, rfl, hblob.bytes_eq⟩, hext⟩

/-- **The fetches, in any order.** Every URL's blob holds what was fetched for it. -/
theorem joinFetches_ok {urls : List String} (hurls : ∀ url ∈ urls, (fetch url).isSome) :
    ∀ {fetchedByUrl : List (String × FetchedBlob)} {runtime : BlobRuntime},
      (∀ entry ∈ fetchedByUrl, BlobOf fetch runtime entry.1 entry.2) →
      ∃ fetchedByUrl' runtime',
        joinFetches fetch (fun _ => .completed) urls fetchedByUrl runtime =
          (urls, .ok (fetchedByUrl', runtime')) ∧
        (∀ entry ∈ fetchedByUrl', BlobOf fetch runtime' entry.1 entry.2) ∧
        (∀ url, url ∈ urls ∨ url ∈ fetchedByUrl.map Prod.fst → url ∈ fetchedByUrl'.map Prod.fst) ∧
        runtime.Extends runtime' := by
  induction urls with
  | nil =>
    intro fetchedByUrl runtime hheld
    exact ⟨fetchedByUrl, runtime, rfl, hheld, by simp, BlobRuntime.Extends.refl runtime⟩
  | cons url urls ih =>
    intro fetchedByUrl runtime hheld
    obtain ⟨image, himage⟩ := Option.isSome_iff_exists.1 (hurls url (List.mem_cons_self ..))
    obtain ⟨fetched, runtime₁, hfetch, hblob, hext₁⟩ := fetchRequestImage_ok himage runtime
    have hheld₁ : ∀ entry ∈ (url, fetched) :: fetchedByUrl,
        BlobOf fetch runtime₁ entry.1 entry.2 := by
      intro entry hentry
      rcases List.mem_cons.1 hentry with rfl | hentry
      · exact hblob
      · exact (hheld entry hentry).extends hext₁
    obtain ⟨fetchedByUrl', runtime', hjoin, hheld', hkeys, hext'⟩ :=
      ih (fun u hu => hurls u (List.mem_cons_of_mem _ hu)) hheld₁
    refine ⟨fetchedByUrl', runtime', ?_, hheld', fun u hu => hkeys u ?_, hext₁.trans hext'⟩
    · unfold joinFetches
      rw [hfetch]
      dsimp only
      rw [hjoin]
    · rw [List.map_cons, List.mem_cons]
      rcases hu with hu | hu
      · rcases List.mem_cons.1 hu with rfl | hu
        · exact Or.inr (Or.inl rfl)
        · exact Or.inl hu
      · exact Or.inr (Or.inr hu)

/-! ## Materializing -/

/-- The node of a URL: what was fetched for it. -/
def fetchedNode (fetch : String → Option FetchedImage) (url : String) : Value :=
  match fetch url with
  | some image => inlineDataValue image.mimeType image.bytes
  | none => .null

theorem BlobOf.node_eq {runtime : BlobRuntime} {url pointer : String} {fetched : FetchedBlob}
    (h : BlobOf fetch runtime url fetched) :
    RequestReplacement.node runtime ⟨pointer, fetched.mimeType, fetched.blob⟩ =
      fetchedNode fetch url := by
  obtain ⟨image, himage, hmime, hbytes⟩ := h.fetched_eq
  unfold RequestReplacement.node fetchedNode
  rw [himage, hbytes, hmime]
  rfl

theorem lookup_of_mem {fetchedByUrl : List (String × FetchedBlob)} {url : String}
    (h : url ∈ fetchedByUrl.map Prod.fst) :
    ∃ fetched, fetchedByUrl.lookup url = some fetched ∧ (url, fetched) ∈ fetchedByUrl := by
  cases hlookup : fetchedByUrl.lookup url with
  | none =>
    obtain ⟨entry, hentry, rfl⟩ := List.mem_map.1 h
    have := List.lookup_eq_none_iff.1 hlookup entry hentry
    simp at this
  | some fetched =>
    obtain ⟨before, after, hsplit, -⟩ := List.lookup_eq_some_iff.1 hlookup
    exact ⟨fetched, rfl, by rw [hsplit]; simp⟩

/-- The replacements stand at the images, each with a blob of its own URL. -/
structure ReplacementsOf (fetch : String → Option FetchedImage) (runtime : BlobRuntime)
    (refs : List RequestImageRef) (replacements : List RequestReplacement) : Prop where
  ref_of_mem : ∀ replacement ∈ replacements, ∃ imageRef ∈ refs, ∃ fetched,
    BlobOf fetch runtime imageRef.url fetched ∧
      replacement = ⟨imageRef.jsonPointer, fetched.mimeType, fetched.blob⟩
  mem_of_ref : ∀ imageRef ∈ refs, ∃ replacement ∈ replacements,
    replacement.jsonPointer = imageRef.jsonPointer

theorem buildReplacements_ok {fetchedByUrl : List (String × FetchedBlob)} {runtime : BlobRuntime}
    {refs : List RequestImageRef}
    (hheld : ∀ entry ∈ fetchedByUrl, BlobOf fetch runtime entry.1 entry.2)
    (hkeys : ∀ imageRef ∈ refs, imageRef.url ∈ fetchedByUrl.map Prod.fst) :
    ∃ replacements, buildReplacements fetchedByUrl refs = .ok replacements ∧
      ReplacementsOf fetch runtime refs replacements := by
  unfold buildReplacements
  induction refs with
  | nil => exact ⟨[], rfl, by simp, by simp⟩
  | cons r refs ih =>
    obtain ⟨fetched, hlookup, hmem⟩ := lookup_of_mem (hkeys r (List.mem_cons_self ..))
    obtain ⟨replacements, hbuild, hof⟩ := ih fun r' hr' => hkeys r' (List.mem_cons_of_mem _ hr')
    refine ⟨⟨r.jsonPointer, fetched.mimeType, fetched.blob⟩ :: replacements, ?_, ?_, ?_⟩
    · rw [List.mapM_cons, hlookup, hbuild]
      rfl
    · intro replacement hreplacement
      rcases List.mem_cons.1 hreplacement with rfl | hreplacement
      · exact ⟨r, List.mem_cons_self .., fetched, hheld _ hmem, rfl⟩
      · obtain ⟨r', hr', hrest⟩ := hof.ref_of_mem _ hreplacement
        exact ⟨r', List.mem_cons_of_mem _ hr', hrest⟩
    · intro r' hr'
      rcases List.mem_cons.1 hr' with rfl | hr'
      · exact ⟨_, List.mem_cons_self .., rfl⟩
      · obtain ⟨replacement, hreplacement, hpointer⟩ := hof.mem_of_ref r' hr'
        exact ⟨replacement, List.mem_cons_of_mem _ hreplacement, hpointer⟩

theorem mem_refs {body : Value} (hbody : body.Distinct) {imageRef : RequestImageRef} :
    imageRef ∈ (scanOrder body).map (refAt []) ↔
      ∃ path url, (path, url) ∈ imageNodes body ∧
        imageRef = ⟨Json.Pointer.format path, url⟩ := by
  have hperm := scanOrder_perm hbody
  rw [List.mem_map]
  constructor
  · rintro ⟨n, hn, rfl⟩
    exact ⟨n.1, n.2, hperm.mem_iff.1 hn, rfl⟩
  · rintro ⟨path, url, hmem, rfl⟩
    exact ⟨(path, url), hperm.mem_iff.2 hmem, rfl⟩

/-- **While writing, the node found at a path is the image of the request there.** -/
theorem findsImages_nodeAt {body : Value} (hbody : body.Distinct) {runtime : BlobRuntime}
    {replacements : List RequestReplacement}
    (hof : ReplacementsOf fetch runtime ((scanOrder body).map (refAt [])) replacements) :
    FindsImages (fetchedNode fetch) body (nodeAt (replacementMap replacements) runtime) := by
  have hformat : ∀ path path' : List String,
      Json.Pointer.format path = Json.Pointer.format path' → path = path' := by
    intro path path' h
    have := Json.Pointer.parse_eq_some_iff.2 h
    rw [Json.Pointer.parse_eq_some_iff.2 rfl] at this
    exact (Option.some.inj this)
  -- a replacement at the pointer of a path holds the image there
  have hnode : ∀ path replacement, replacement ∈ replacements →
      replacement.jsonPointer = Json.Pointer.format path →
      ∃ url, (path, url) ∈ imageNodes body ∧ replacement.node runtime = fetchedNode fetch url := by
    intro path replacement hmem hpointer
    obtain ⟨imageRef, href, fetched, hblob, rfl⟩ := hof.ref_of_mem _ hmem
    obtain ⟨path', url, himage, rfl⟩ := (mem_refs hbody).1 href
    obtain rfl := hformat _ _ hpointer
    exact ⟨url, himage, hblob.node_eq⟩
  intro path w
  unfold nodeAt
  rw [Option.map_eq_some_iff]
  constructor
  · rintro ⟨replacement, hfind, rfl⟩
    obtain ⟨hmem, hpointer⟩ := replacementMap_eq_some hfind
    exact hnode path replacement hmem hpointer
  · rintro ⟨url, himage, rfl⟩
    obtain ⟨replacement, hmem, hpointer⟩ :=
      hof.mem_of_ref _ ((mem_refs hbody).2 ⟨path, url, himage, rfl⟩)
    cases hfind : replacementMap replacements (Json.Pointer.format path) with
    | none =>
      have := List.find?_eq_none.1 hfind replacement (List.mem_reverse.2 hmem)
      simp [hpointer] at this
    | some found =>
      obtain ⟨hfound, hsame⟩ := replacementMap_eq_some hfind
      obtain ⟨url', himage', hurl⟩ := hnode path found hfound hsame
      -- only one image is at this path
      have heq := List.inj_on_of_nodup_map (nodup_imageNodes hbody) himage himage' rfl
      obtain rfl := (Prod.mk.inj heq).2
      exact ⟨found, rfl, hurl⟩

/-- **Materializing a request** fetches each of its URLs once and replaces its images. -/
theorem materializeRequestImages_ok (order : CompletionOrder) {request : Value}
    (hdistinct : request.Distinct) (hfew : (imageUrls request).length ≤ maxInlineDataUrls)
    (hfetch : ∀ url ∈ imageUrls request, (fetch url).isSome) (runtime : BlobRuntime) :
    ∃ fetches replacements runtime',
      materializeRequestImages fetch (fun _ => .completed) order request runtime =
        (fetches, .ok (⟨request, replacements⟩, runtime')) ∧
      fetches.Nodup ∧ (∀ url, url ∈ fetches ↔ url ∈ imageUrls request) ∧
      ReplacementsOf fetch runtime' ((scanOrder request).map (refAt [])) replacements := by
  have hperm := scanOrder_perm hdistinct
  have hlength : (scanOrder request).length ≤ maxInlineDataUrls := by
    rw [hperm.length_eq]
    simpa [imageUrls] using hfew
  generalize hrefs : (scanOrder request).map (refAt []) = refs
  have hscan : scanRequestImageUrls request = .ok refs := by
    rw [scanRequestImageUrls_eq, if_pos hlength, hrefs]
  have hrefUrl : ∀ url, url ∈ refs.map (·.url) ↔ url ∈ imageUrls request := by
    intro url
    have hmap : refs.map (·.url) = (scanOrder request).map Prod.snd := by
      rw [← hrefs, List.map_map]
      rfl
    rw [hmap]
    exact (hperm.map Prod.snd).mem_iff
  have harrange := order.perm (uniqueUrls refs [])
  have hmem : ∀ url, url ∈ order.arrange (uniqueUrls refs []) ↔ url ∈ imageUrls request := by
    intro url
    rw [harrange.mem_iff, mem_uniqueUrls, hrefUrl]
    simp
  obtain ⟨fetchedByUrl, runtime', hjoin, hheld, hkeys, -⟩ := @joinFetches_ok fetch _
    (fun url hurl => hfetch url ((hmem url).1 hurl)) [] runtime (by simp)
  have hfetched : ∀ imageRef ∈ refs, imageRef.url ∈ fetchedByUrl.map Prod.fst := by
    intro imageRef href
    have hurl := (hrefUrl imageRef.url).1 (List.mem_map_of_mem href)
    exact hkeys _ (Or.inl ((hmem _).2 hurl))
  obtain ⟨replacements, hbuild, hof⟩ := buildReplacements_ok hheld hfetched
  refine ⟨_, replacements, runtime', ?_, harrange.nodup_iff.2 (nodup_uniqueUrls refs []), hmem, hof⟩
  unfold materializeRequestImages
  rw [hscan]
  dsimp only
  rw [hjoin]
  dsimp only
  rw [hbuild]
  rfl

/-! ## The whole pipeline -/

/-- Base64 text is no http(s) URL. -/
theorem isHttpUrl_encodeText (bytes : List UInt8) : isHttpUrl (Base64.encodeText bytes) = false := by
  have hcolon : ':' ∉ (Base64.encodeText bytes).toList := by
    intro h
    rw [Base64.encodeText, String.toList_ofList] at h
    exact Base64.colon_notMem_textChars (Base64.mem_textChars_of_mem_encodeChars bytes _ h)
  have hstart : ∀ pre : String, ':' ∈ pre.toList →
      Text.startsWith pre (Base64.encodeText bytes) = false := by
    intro pre hpre
    by_contra hprefix
    rw [Bool.not_eq_false] at hprefix
    exact hcolon ((List.isPrefixOf_iff_prefix.1 hprefix).subset hpre)
  unfold isHttpUrl
  rw [hstart "http://" (by decide), hstart "https://" (by decide)]
  rfl

/-- The node of a URL is no image given by its URL, and holds none. -/
theorem imageUrl_fetchedNode (url : String) : imageUrl (fetchedNode fetch url) = none := by
  unfold fetchedNode
  split
  · rename_i image _
    have hdata : (inlineDataValue image.mimeType image.bytes).get "data" =
        some (.string (Base64.encodeText image.bytes)) := by
      simp [inlineDataValue, Value.get, Value.asObject, Map.get_cons]
    unfold imageUrl
    rw [hdata]
    simp [Value.asStr, Option.filter, isHttpUrl_encodeText]
  · rfl

theorem imageNodes_fetchedNode (url : String) : imageNodes (fetchedNode fetch url) = [] := by
  unfold fetchedNode
  split
  · simp [inlineDataValue, imageNodes, imageNodesMembers, imageUrlUnder]
  · rfl

theorem distinct_fetchedNode (url : String) : (fetchedNode fetch url).Distinct := by
  unfold fetchedNode
  split
  · simp [inlineDataValue, Map.keys]
  · trivial

theorem numeric_fetchedNode (url : String) : (fetchedNode fetch url).Numeric := by
  unfold fetchedNode
  split
  · simp [inlineDataValue]
  · trivial

/-- **The body sent.** A request with more than seven images given by URL fails before
anything is fetched. Otherwise, once all fetches succeed, in whatever order they complete,
the body sent is the request without its output fields and with every outermost image
replaced by what was fetched for its URL, and every URL is fetched once. -/
theorem requestImagePipeline_ok (fetch : String → Option FetchedImage) (order : CompletionOrder)
    (readers : String → Reader chunkBytes) (pipe : Reader streamChunkBytes)
    (request : Json.Document) (runtime : BlobRuntime) :
    let run := requestImagePipeline fetch (fun _ => .completed) order readers pipe .completed
      request runtime
    (maxInlineDataUrls < (imageUrls request).length →
      run = ([], .error (.materialize (.scan .tooManyInlineDataUrls)))) ∧
    ((imageUrls request).length ≤ maxInlineDataUrls →
      (∀ url ∈ imageUrls request, (fetch url).isSome) →
      ∃ encoded runtime' bytes, run.2 = .ok (encoded, runtime') ∧
        runtime'.readBytes encoded.bodyBlob = some bytes ∧
        Json.parse bytes =
          some (replaceImages (fetchedNode fetch) (stripOutputFromValue request)) ∧
        imageUrls (replaceImages (fetchedNode fetch) (stripOutputFromValue request)) = [] ∧
        run.1.Nodup ∧ ∀ url, url ∈ run.1 ↔ url ∈ imageUrls request) := by
  obtain ⟨request, hdistinct, hnumeric⟩ := request
  dsimp only
  constructor
  · intro hmany
    have hlength : ¬ (scanOrder request).length ≤ maxInlineDataUrls := by
      rw [(scanOrder_perm hdistinct).length_eq]
      simpa [imageUrls] using hmany
    unfold requestImagePipeline materializeRequestImages
    rw [scanRequestImageUrls_eq, if_neg hlength]
  · intro hfew hfetch
    obtain ⟨fetches, replacements, runtime₁, hmaterialize, hnodup, hmem, hof⟩ :=
      materializeRequestImages_ok order hdistinct hfew hfetch runtime
    have hheld : ∀ replacement ∈ replacements, (runtime₁.readBytes replacement.blob).isSome := by
      intro replacement hreplacement
      obtain ⟨imageRef, -, fetched, hblob, rfl⟩ := hof.ref_of_mem _ hreplacement
      exact hblob.stored.readable
    obtain ⟨encoded, runtime', hencode, hbody, -, -⟩ :=
      encodeRequestBody_stored readers pipe request hheld
    have hstripped := distinct_stripOutputFromValue hdistinct
    unfold encodedBytes at hbody
    rw [graft_eq_replaceImages hstripped hdistinct (pruned_stripOutputFromValue hdistinct)
      (findsImages_nodeAt hdistinct hof)] at hbody
    have hparse := Json.parse_print (distinct_replaceImages (@distinct_fetchedNode fetch) hstripped)
      (numeric_replaceImages numeric_fetchedNode (numeric_stripOutputFromValue hnumeric))
    have hnone := imageNodes_replaceImages (@imageUrl_fetchedNode fetch)
      imageNodes_fetchedNode (stripOutputFromValue request)
    refine ⟨encoded, runtime', _, ?_, hbody.bytes_eq, hparse, by rw [imageUrls, hnone]; rfl, ?_, ?_⟩
    · unfold requestImagePipeline
      rw [hmaterialize]
      dsimp only
      rw [hencode]
      rfl
    · unfold requestImagePipeline
      rw [hmaterialize]
      exact hnodup
    · unfold requestImagePipeline
      rw [hmaterialize]
      exact hmem

/-- A request with two images of one URL. -/
def twoImagesExample : Json.Document :=
  ⟨.object [("output", .string "url"),
      ("parts", .array [.object [("inlineData", .object [("data", .string "https://e.com/a.png")])],
        .object [("inlineData", .object [("data", .string "https://e.com/a.png")])]])], by
    simp [Map.keys]⟩

theorem requestImagePipeline_example :
    ∃ encoded runtime' bytes,
      (requestImagePipeline (fun _ => some ⟨"image/png", [1, 2, 3], false⟩) (fun _ => .completed)
        ⟨id, fun urls => List.Perm.refl urls⟩ (fun _ => Reader.bytewise (by decide))
        (Reader.bytewise (by decide)) .completed twoImagesExample runtimeExample).2 =
          .ok (encoded, runtime') ∧
      runtime'.readBytes encoded.bodyBlob = some bytes ∧
      Json.parse bytes = some (.object [("parts", .array
        [.object [("inlineData", inlineDataValue "image/png" [1, 2, 3])],
          .object [("inlineData", inlineDataValue "image/png" [1, 2, 3])]])]) := by
  have hpipeline := requestImagePipeline_ok (fun _ => some ⟨"image/png", [1, 2, 3], false⟩)
    ⟨id, fun urls => List.Perm.refl urls⟩ (fun _ => Reader.bytewise (by decide))
    (Reader.bytewise (by decide)) twoImagesExample runtimeExample
  obtain ⟨encoded, runtime', bytes, hrun, hbytes, hparse, -⟩ :=
    hpipeline.2 (by decide) (fun _ _ => rfl)
  exact ⟨encoded, runtime', bytes, hrun, hbytes, hparse⟩

end GeminiWorker
