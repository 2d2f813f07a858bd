import Orchestrator.Registry.Synchronizer

/-!
# Registry — the identity of mirrored images

What a reference in Harbor keeps of its source: the tag, and a path in which three spellings fall
together; the digest is lost.

* `Image`, `imageOf`: the image that Docker takes a reference for.
* `harborReference_eq_iff`: two sources have one target if path and tag agree.
* `SpelledAs`, `Confused`: the spellings of a path, and those that stand for different repositories.
* `never_overwrites_iff`: no push replaces another image, exactly if no two have one target.
* `mirrored_images`: sources with one target are one image exactly if they are not `Confusable`.
-/

namespace Orchestrator.DockerRegistrySynchronizer

/-! ### What Docker takes a reference for -/

/-- Whether the part before the first slash is a registry. -/
def namesRegistry (first : String) : Bool :=
  (first.toList.any fun c => c == '.' || c == ':') || first == "localhost"

/-- The registry and the path there; Docker Hub is the default. -/
def hosted (repository : String) : String × String :=
  match splitOnce '/' repository with
  | some (first, rest) => if namesRegistry first then (first, rest) else ("docker.io", repository)
  | none => ("docker.io", repository)

/-- An official image of Docker Hub is one of its library. -/
def withLibrary (p : String × String) : String × String :=
  if p.1 = "docker.io" ∧ '/' ∉ p.2.toList then (p.1, "library/" ++ p.2) else p

structure Image where
  repository : String × String
  tag : String
  digest : Option String
  deriving DecidableEq, Repr

/-- The image of an accepted source. -/
def imageOf (sourceImage : String) : Except RegistrySyncError Image := do
  let source ← parseStableReference sourceImage
  .ok ⟨withLibrary (hosted source.repository), source.tag, (rsplit '@' sourceImage).map Prod.snd⟩

/-! ### Spellings -/

/-- The repositories that `_mirror_path` sends to a path. -/
inductive SpelledAs (x : String) : String → Prop
  | plain : startsWith x "docker.io/" = false → SpelledAs x x
  | hub : startsWith x "library/" = false → SpelledAs x ("docker.io/" ++ x)
  | library : SpelledAs x ("docker.io/library/" ++ x)

/-- Different spellings of a path with a slash that Docker takes for different repositories: one of
them is the path in the library, or the path begins with a registry. -/
def Confused (x r r' : String) : Prop :=
  r ≠ r' ∧ '/' ∈ x.toList ∧ (r = "docker.io/library/" ++ x ∨ r' = "docker.io/library/" ++ x ∨
    ∃ first rest, splitOnce '/' x = some (first, rest) ∧ namesRegistry first = true)

theorem startsWith_append (p x : String) : startsWith (p ++ x) p = true := by
  rw [startsWith_iff]
  exact ⟨x.toList, String.toList_append⟩

theorem removeStart_append (p x : String) : removeStart p (p ++ x) = x := by
  rw [removeStart, startsWith_append, if_pos rfl, String.toList_append, List.drop_left,
    String.ofList_toList]

theorem startsWith_cases (s p : String) : startsWith s p = false ∨ ∃ x, s = p ++ x := by
  cases h : startsWith s p with
  | false => exact .inl rfl
  | true =>
      obtain ⟨rest, hrest⟩ := startsWith_iff.mp h
      refine .inr ⟨String.ofList rest, String.toList_inj.mp ?_⟩
      rw [hrest, String.toList_append, String.toList_ofList]

theorem mirrorPath_iff {r x : String} : mirrorPath r = x ↔ SpelledAs x r := by
  have hlibrary (x : String) : "docker.io/library/" ++ x = "docker.io/" ++ ("library/" ++ x) := by
    rw [← String.append_assoc]
    rfl
  constructor
  · rintro rfl
    -- The longer beginning is looked for first.
    rcases startsWith_cases r "docker.io/library/" with hl | ⟨x, rfl⟩
    · rcases startsWith_cases r "docker.io/" with hd | ⟨x, rfl⟩
      · rw [mirrorPath, hl, hd]
        exact .plain hd
      · rw [mirrorPath, hl, startsWith_append, removeStart_append]
        refine .hub ?_
        rcases startsWith_cases x "library/" with h | ⟨y, rfl⟩
        · exact h
        · rw [← hlibrary, startsWith_append] at hl
          cases hl
    · rw [mirrorPath, startsWith_append, if_pos rfl, removeStart_append]
      exact .library
  · intro h
    cases h with
    | plain hd =>
        have hl : startsWith r "docker.io/library/" = false := by
          rcases startsWith_cases r "docker.io/library/" with h | ⟨y, rfl⟩
          · exact h
          · rw [hlibrary, startsWith_append] at hd
            cases hd
        rw [mirrorPath, hl, hd]
        rfl
    | hub hx =>
        have hl : startsWith ("docker.io/" ++ x) "docker.io/library/" = false := by
          rcases startsWith_cases ("docker.io/" ++ x) "docker.io/library/" with h | ⟨y, hy⟩
          · exact h
          · rw [hlibrary] at hy
            have := String.append_right_inj _ |>.mp hy
            rw [this, startsWith_append] at hx
            cases hx
        rw [mirrorPath, hl, startsWith_append, removeStart_append]
        rfl
    | library => rw [mirrorPath, startsWith_append, if_pos rfl, removeStart_append]

/-! ### The repository of a spelling -/

theorem slash_mem_library (x : String) : '/' ∈ ("library/" ++ x).toList := by
  rw [String.toList_append]
  exact List.mem_append_left _ (by decide)

theorem hosted_hub (x : String) : hosted ("docker.io/" ++ x) = ("docker.io", x) := by
  have hcut : splitOnce '/' ("docker.io/" ++ x) = some ("docker.io", x) :=
    splitOnce_of_cut (by rw [String.toList_append]; rfl) (by decide)
  rw [hosted, hcut]
  rfl

theorem withLibrary_slash {x : String} (h : '/' ∈ x.toList) :
    withLibrary ("docker.io", x) = ("docker.io", x) :=
  if_neg fun hx => hx.2 h

theorem withLibrary_plain {x : String} (h : '/' ∉ x.toList) :
    withLibrary ("docker.io", x) = ("docker.io", "library/" ++ x) :=
  if_pos ⟨rfl, h⟩

theorem hosted_library (x : String) :
    withLibrary (hosted ("docker.io/library/" ++ x)) = ("docker.io", "library/" ++ x) := by
  have heq : "docker.io/library/" ++ x = "docker.io/" ++ ("library/" ++ x) := by
    rw [← String.append_assoc]
    rfl
  rw [heq, hosted_hub, withLibrary_slash (slash_mem_library x)]

theorem ne_library (x : String) : x ≠ "library/" ++ x := by
  intro h
  have := congrArg (fun s : String => s.toList.length) h
  simp only [String.toList_append, List.length_append] at this
  have hpos : 0 < "library/".toList.length := by decide
  omega

/-- The repository of a path that is written as it is. -/
theorem hosted_plain {x : String} (h : startsWith x "docker.io/" = false) :
    (∃ first rest, splitOnce '/' x = some (first, rest) ∧ namesRegistry first = true ∧
      hosted x = (first, rest) ∧ first ≠ "docker.io") ∨
    (¬ (∃ first rest, splitOnce '/' x = some (first, rest) ∧ namesRegistry first = true) ∧
      hosted x = ("docker.io", x)) := by
  rw [hosted]
  cases hs : splitOnce '/' x with
  | none => exact .inr ⟨fun ⟨_, _, he, _⟩ => (nomatch he), rfl⟩
  | some p =>
      obtain ⟨first, rest⟩ := p
      cases hf : namesRegistry first with
      | false =>
          refine .inr ⟨?_, by simp [hf]⟩
          rintro ⟨_, _, he, hf'⟩
          cases he
          rw [hf] at hf'
          cases hf'
      | true =>
          refine .inl ⟨first, rest, rfl, hf, by simp [hf], ?_⟩
          rintro rfl
          -- Otherwise the path would begin with the registry of Docker Hub.
          have hstart : startsWith x "docker.io/" = true := by
            rw [startsWith_iff]
            exact ⟨rest.toList, (splitOnce_eq_some hs).1.trans (by rfl)⟩
          rw [h] at hstart
          cases hstart

theorem slash_of_splitOnce {x first rest : String} (h : splitOnce '/' x = some (first, rest)) :
    '/' ∈ x.toList := (splitOnce_eq_some h).1 ▸ List.mem_append_right _ List.mem_cons_self

/-- Another spelling is the image of the library only of a path without a slash. -/
theorem library_repository_iff {x r : String} (h : SpelledAs x r)
    (hne : r ≠ "docker.io/library/" ++ x) :
    withLibrary (hosted r) = withLibrary (hosted ("docker.io/library/" ++ x)) ↔
      '/' ∉ x.toList := by
  have hhub : withLibrary ("docker.io", x) = ("docker.io", "library/" ++ x) ↔ '/' ∉ x.toList := by
    constructor
    · intro he hslash
      rw [withLibrary_slash hslash] at he
      exact ne_library x (Prod.mk.inj he).2
    · exact withLibrary_plain
  rw [hosted_library]
  cases h with
  | plain hd =>
      rcases hosted_plain hd with ⟨first, rest, hs, -, he, hfirst⟩ | ⟨-, he⟩
      · rw [he]
        have hkept : withLibrary (first, rest) = (first, rest) := if_neg fun h => hfirst h.1
        rw [hkept]
        exact ⟨fun h => absurd (Prod.mk.inj h).1 hfirst, fun h => absurd (slash_of_splitOnce hs) h⟩
      · rw [he]
        exact hhub
  | hub _ =>
      rw [hosted_hub]
      exact hhub
  | library => exact absurd rfl hne

/-- The path as it is and the path on Docker Hub are one repository unless it begins with a
registry. -/
theorem hub_repository_iff {x : String} (hd : startsWith x "docker.io/" = false) :
    withLibrary (hosted x) = withLibrary (hosted ("docker.io/" ++ x)) ↔
      ¬ ∃ first rest, splitOnce '/' x = some (first, rest) ∧ namesRegistry first = true := by
  rw [hosted_hub]
  rcases hosted_plain hd with ⟨first, rest, hs, hf, he, hfirst⟩ | ⟨hno, he⟩
  · have hkept : withLibrary (first, rest) = (first, rest) := if_neg fun h => hfirst h.1
    rw [he, hkept, withLibrary_slash (slash_of_splitOnce hs)]
    exact ⟨fun h => absurd (Prod.mk.inj h).1 hfirst, fun h => absurd ⟨first, rest, hs, hf⟩ h⟩
  · rw [he]
    exact ⟨fun _ => hno, fun _ => rfl⟩

/-- **Spellings.**  Two spellings of a path are one repository unless they are confused. -/
theorem spelled_repository_iff {x r r' : String} (h : SpelledAs x r) (h' : SpelledAs x r') :
    withLibrary (hosted r) = withLibrary (hosted r') ↔ ¬ Confused x r r' := by
  by_cases heq : r = r'
  · subst heq
    exact ⟨fun _ hc => hc.1 rfl, fun _ => rfl⟩
  by_cases hl' : r' = "docker.io/library/" ++ x
  · rw [hl', library_repository_iff h (hl' ▸ heq)]
    exact ⟨fun hs hc => hs hc.2.1, fun hc hs => hc ⟨hl' ▸ heq, hs, .inr (.inl rfl)⟩⟩
  by_cases hl : r = "docker.io/library/" ++ x
  · rw [hl, eq_comm, library_repository_iff h' hl']
    exact ⟨fun hs hc => hs hc.2.1, fun hc hs => hc ⟨hl ▸ heq, hs, .inl rfl⟩⟩
  -- What is left is the path as it is and the path on Docker Hub.
  have hconfused : Confused x r r' ↔
      ∃ first rest, splitOnce '/' x = some (first, rest) ∧ namesRegistry first = true := by
    constructor
    · rintro ⟨-, -, h | h | h⟩
      · exact absurd h hl
      · exact absurd h hl'
      · exact h
    · rintro ⟨first, rest, hs, hf⟩
      exact ⟨heq, slash_of_splitOnce hs, .inr (.inr ⟨first, rest, hs, hf⟩)⟩
  rw [hconfused]
  cases h with
  | plain hd =>
      cases h' with
      | plain _ => exact absurd rfl heq
      | hub _ => exact hub_repository_iff hd
      | library => exact absurd rfl hl'
  | hub _ =>
      cases h' with
      | plain hd => exact eq_comm.trans (hub_repository_iff hd)
      | hub _ => exact absurd rfl heq
      | library => exact absurd rfl hl'
  | library => exact absurd rfl hl

/-! ### Targets -/

/-- No tag has a colon. -/
theorem colon_not_mem_tag {tag : String} (h : isTag tag = true) : ':' ∉ tag.toList := by
  intro hm
  unfold isTag at h
  split at h
  · cases h
  · next c cs hc =>
      rw [Bool.and_eq_true, Bool.and_eq_true, List.all_eq_true] at h
      rcases List.mem_cons.mp (hc ▸ hm) with rfl | hm
      · exact absurd h.1.1 (by decide)
      · exact absurd (h.2 _ hm) (by decide)

theorem isTag_of_parse {s : String} {r : ImageReference} (h : parseStableReference s = .ok r) :
    isTag r.tag = true := by
  unfold parseStableReference at h
  split at h
  · cases h
  · obtain ⟨name, -, h⟩ := bind_ok h
    split at h
    · cases h
    · unfold splitTag at h
      split at h
      · cases h
      · split at h
        · cases h
        · split at h
          · cases h
          · next hbad =>
              cases h
              exact (Bool.not_eq_false _).mp fun hf => hbad (.inr (.inl hf))

/-- Two sources have one target exactly if their paths and their tags agree. -/
theorem target_value_iff (S : Synchronizer) {r r' : ImageReference} (h : isTag r.tag = true)
    (h' : isTag r'.tag = true) : (target S r).value = (target S r').value ↔
      mirrorPath r.repository = mirrorPath r'.repository ∧ r.tag = r'.tag := by
  constructor
  · intro he
    have hcut {r : ImageReference} (h : isTag r.tag = true) :
        rsplit ':' (target S r).value = some ((target S r).repository, r.tag) := by
      refine rsplit_of_cut ?_ (colon_not_mem_tag h)
      rw [ImageReference.value, String.toList_append, String.toList_append, List.append_assoc]
      rfl
    have hparts := (hcut h).symm.trans ((congrArg (rsplit ':') he).trans (hcut h'))
    obtain ⟨hrepository, htag⟩ := Prod.mk.inj (Option.some.inj hparts)
    exact ⟨String.append_right_inj _ |>.mp hrepository, htag⟩
  · rintro ⟨hpath, htag⟩
    rw [target, target, hpath, htag]

/-! ### Overwriting -/

/-- A target in Harbor, and the image that is pushed there. -/
abbrev Push := String × Image

/-- No push replaces another image, from what is stored already. -/
def NeverOverwrites : List Push → List Push → Prop
  | _, [] => True
  | stored, p :: pushes =>
      (∀ image, stored.lookup p.1 = some image → image = p.2) ∧
        NeverOverwrites (p :: stored) pushes

theorem never_overwrites_iff {stored pushes : List Push} : NeverOverwrites stored pushes ↔
    (∀ p ∈ pushes, ∀ image, stored.lookup p.1 = some image → image = p.2) ∧
      pushes.Pairwise fun p q => p.1 = q.1 → p.2 = q.2 := by
  induction pushes generalizing stored with
  | nil => simp [NeverOverwrites]
  | cons p pushes ih =>
      rw [NeverOverwrites, ih, List.pairwise_cons, List.forall_mem_cons]
      have hlookup (q : Push) : (p :: stored).lookup q.1 =
          if q.1 = p.1 then some p.2 else stored.lookup q.1 := by
        by_cases h : q.1 = p.1
        · rw [if_pos h, List.lookup_cons, h, beq_self_eq_true]
        · rw [if_neg h, List.lookup_cons, beq_eq_false_iff_ne.mpr h]
      constructor
      · rintro ⟨hp, hlater, hpairs⟩
        refine ⟨⟨hp, fun q hq image himage => ?_⟩, fun q hq he => ?_, hpairs⟩
        · by_cases he : q.1 = p.1
          · -- What is stored at the target is what was pushed there first.
            have hsame := hlater q hq p.2 (by rw [hlookup, if_pos he])
            rw [← hsame]
            exact hp image (he ▸ himage)
          · exact hlater q hq image (by rw [hlookup, if_neg he]; exact himage)
        · exact hlater q hq p.2 (by rw [hlookup, if_pos he.symm])
      · rintro ⟨⟨hp, hlater⟩, hfirst, hpairs⟩
        refine ⟨hp, fun q hq image himage => ?_, hpairs⟩
        rw [hlookup] at himage
        by_cases he : q.1 = p.1
        · rw [if_pos he] at himage
          rw [← hfirst q hq he.symm]
          exact (Option.some.inj himage).symm
        · rw [if_neg he] at himage
          exact hlater q hq image himage

/-- What synchronisations push, each with the answers of the client. -/
def pushes (S : Synchronizer) (calls : List (String × Docker)) : List Push :=
  calls.filterMap fun call => do
    let target ← (sync S call.2 call.1).pushed
    let image ← (imageOf call.1).toOption
    some (target.value, image)

theorem mem_pushes {S : Synchronizer} {calls : List (String × Docker)} {p : Push}
    (h : p ∈ pushes S calls) : ∃ call ∈ calls, imageOf call.1 = .ok p.2 ∧
      harborReference S call.1 = .ok p.1 := by
  obtain ⟨call, hcall, h⟩ := List.mem_filterMap.mp h
  obtain ⟨target, htarget, h⟩ := Option.bind_eq_some_iff.mp h
  obtain ⟨image, himage, h⟩ := Option.bind_eq_some_iff.mp h
  cases h
  refine ⟨call, hcall, toOption_eq_some.mp himage, ?_⟩
  unfold sync at htarget
  rw [harborReference]
  cases hparse : parseStableReference call.1 with
  | error e => rw [hparse] at htarget; cases htarget
  | ok source =>
      rw [hparse] at htarget
      dsimp only at htarget
      split at htarget
      · cases htarget
      · cases htarget
        rfl

/-! ### Sources -/

/-- Two sources that one target cannot tell apart: their tags agree, their repositories are spellings
of one path, and their digests differ or the spellings are of different repositories. -/
def Confusable (s t : String) : Prop :=
  ∃ r r', parseStableReference s = .ok r ∧ parseStableReference t = .ok r' ∧ r.tag = r'.tag ∧
    ∃ x, SpelledAs x r.repository ∧ SpelledAs x r'.repository ∧
      ((rsplit '@' s).map Prod.snd ≠ (rsplit '@' t).map Prod.snd ∨
        Confused x r.repository r'.repository)

theorem imageOf_ok {s : String} {image : Image} (h : imageOf s = .ok image) :
    ∃ r, parseStableReference s = .ok r ∧
      image = ⟨withLibrary (hosted r.repository), r.tag, (rsplit '@' s).map Prod.snd⟩ := by
  obtain ⟨r, hr, h⟩ := bind_ok h
  exact ⟨r, hr, (Except.ok.inj h).symm⟩

theorem harborReference_of_parse {S : Synchronizer} {s : String} {r : ImageReference}
    (h : parseStableReference s = .ok r) : harborReference S s = .ok (target S r).value := by
  rw [harborReference, h]
  rfl

/-- Two sources of one target are one image exactly if they are not confusable. -/
theorem image_eq_iff {S : Synchronizer} {s t : String} {image image' : Image}
    (h : imageOf s = .ok image) (h' : imageOf t = .ok image') :
    (harborReference S s = harborReference S t → image = image') ↔ ¬ Confusable s t := by
  obtain ⟨r, hr, rfl⟩ := imageOf_ok h
  obtain ⟨r', hr', rfl⟩ := imageOf_ok h'
  have htargets : harborReference S s = harborReference S t ↔
      mirrorPath r.repository = mirrorPath r'.repository ∧ r.tag = r'.tag := by
    rw [harborReference_of_parse hr, harborReference_of_parse hr', Except.ok.injEq]
    exact target_value_iff S (isTag_of_parse hr) (isTag_of_parse hr')
  rw [htargets]
  constructor
  · rintro heq ⟨q, q', hq, hq', htag, x, hx, hx', hdiffer⟩
    cases hr.symm.trans hq
    cases hr'.symm.trans hq'
    have hpath := (mirrorPath_iff.mpr hx).trans (mirrorPath_iff.mpr hx').symm
    obtain ⟨hrepository, -, hdigest⟩ := Image.mk.inj (heq ⟨hpath, htag⟩)
    rcases hdiffer with hd | hc
    · exact hd hdigest
    · exact (spelled_repository_iff hx hx').mp hrepository hc
  · rintro hno ⟨hpath, htag⟩
    have hx : SpelledAs (mirrorPath r'.repository) r.repository := mirrorPath_iff.mp hpath
    have hx' : SpelledAs (mirrorPath r'.repository) r'.repository := mirrorPath_iff.mp rfl
    have hdigest : (rsplit '@' s).map Prod.snd = (rsplit '@' t).map Prod.snd := by
      by_contra hd
      exact hno ⟨r, r', hr, hr', htag, _, hx, hx', .inl hd⟩
    have hrepository := (spelled_repository_iff hx hx').mpr fun hc =>
      hno ⟨r, r', hr, hr', htag, _, hx, hx', .inr hc⟩
    rw [hrepository, htag, hdigest]

/-- A source with a target is an image. -/
theorem imageOf_of_reference {S : Synchronizer} {s target : String}
    (h : harborReference S s = .ok target) : ∃ image, imageOf s = .ok image := by
  obtain ⟨r, hr, -⟩ := bind_ok h
  refine ⟨⟨withLibrary (hosted r.repository), r.tag, (rsplit '@' s).map Prod.snd⟩, ?_⟩
  rw [imageOf, hr]
  rfl

/-- A client that does what it is asked for. -/
def obedient : Docker := ⟨.ok (), .ok (), .ok .null, .ok true, .ok []⟩

theorem mem_pushes_obedient {S : Synchronizer} {calls : List (String × Docker)} {s : String}
    {r : ImageReference} (hm : (s, obedient) ∈ calls) (h : parseStableReference s = .ok r) :
    ((target S r).value,
      ⟨withLibrary (hosted r.repository), r.tag, (rsplit '@' s).map Prod.snd⟩) ∈ pushes S calls := by
  have hprepare : prepare S obedient = .ok .null := by
    unfold prepare
    cases S.username <;> rfl
  have hsync : (sync S obedient s).pushed = some (target S r) := by
    rw [sync, h]
    dsimp only
    rw [hprepare]
  have himage : imageOf s = .ok
      ⟨withLibrary (hosted r.repository), r.tag, (rsplit '@' s).map Prod.snd⟩ := by
    rw [imageOf, h]
    rfl
  refine List.mem_filterMap.mpr ⟨_, hm, ?_⟩
  dsimp only
  rw [hsync, himage]
  rfl

/-- The calls of `sync_base_images`, and what the client answers. -/
def catalogCalls (answers : String → Docker) (c : Templates.TemplateCatalog) :
    List (String × Docker) :=
  (sources c).map fun source => (source, answers source)

/-- Each call gives one record. -/
theorem records_eq (S : Synchronizer) (answers : String → Docker) (c : Templates.TemplateCatalog) :
    (syncBaseImages (.ok S) answers c).1 =
      (catalogCalls answers c).map fun call => recordOf S call.2 call.1 := by
  rw [catalogCalls, List.map_map]
  rfl

/-- A record that is saved as synced says where its source is. -/
theorem synced_reference {S : Synchronizer} {answers : String → Docker}
    {c : Templates.TemplateCatalog} {image : BaseImage}
    (h : image ∈ (syncBaseImages (.ok S) answers c).1) (hs : image.status = "synced") :
    image.sourceImage ∈ sources c ∧
      harborReference S image.sourceImage = .ok image.harborReference := by
  rw [records_eq] at h
  obtain ⟨call, hcall, rfl⟩ := List.mem_map.mp h
  obtain ⟨source, hsource, rfl⟩ := List.mem_map.mp hcall
  have hfailed (e : RegistrySyncError) : (recordOf S (answers source) source).status = "synced" →
      (sync S (answers source) source).result ≠ .error e := by
    intro hstatus he
    rw [recordOf, he] at hstatus
    exact absurd hstatus (by decide : "failed" ≠ "synced")
  dsimp only at hs ⊢
  cases hr : (sync S (answers source) source).result with
  | error e => exact absurd hr (hfailed e hs)
  | ok image =>
      rw [recordOf, hr]
      dsimp only
      unfold sync at hr
      cases hparse : parseStableReference source with
      | error e => rw [hparse] at hr; cases hr
      | ok r =>
          rw [hparse] at hr
          dsimp only at hr
          split at hr
          · cases hr
          · next hprepare =>
              dsimp only at hr
              split at hr
              · cases hr
              · cases hr
                exact ⟨hsource, harborReference_of_parse hparse⟩

/-! ### Synchronisations -/

/-- Images no two of which are confusable never replace one another, whatever the client answers. -/
theorem never_overwrites_of_apart {S : Synchronizer} {images : List String}
    {calls : List (String × Docker)} (h : ∀ s ∈ images, ∀ t ∈ images, ¬ Confusable s t)
    (hcalls : ∀ call ∈ calls, call.1 ∈ images) : NeverOverwrites [] (pushes S calls) := by
  rw [never_overwrites_iff]
  refine ⟨fun p _ image himage => (by cases himage), List.pairwise_of_forall_mem_list ?_⟩
  intro p hp q hq htarget
  obtain ⟨call, hcall, himage, hreference⟩ := mem_pushes hp
  obtain ⟨call', hcall', himage', hreference'⟩ := mem_pushes hq
  refine (image_eq_iff (S := S) himage himage').mpr (h _ (hcalls _ hcall) _ (hcalls _ hcall')) ?_
  rw [hreference, hreference', htarget]

/-- Two confusable images replace one another, with a client that does what it is asked for. -/
theorem apart_of_never_overwrites {S : Synchronizer} {calls : List (String × Docker)} {s t : String}
    (hs : (s, obedient) ∈ calls) (ht : (t, obedient) ∈ calls)
    (h : NeverOverwrites [] (pushes S calls)) : ¬ Confusable s t := by
  intro hconfusable
  obtain ⟨r, r', hr, hr', -⟩ := id hconfusable
  have himage {s : String} {r : ImageReference} (h : parseStableReference s = .ok r) :
      imageOf s = .ok ⟨withLibrary (hosted r.repository), r.tag, (rsplit '@' s).map Prod.snd⟩ := by
    rw [imageOf, h]
    rfl
  have : Std.Symm fun p q : Push => p.1 = q.1 → p.2 = q.2 := ⟨fun _ _ h he => (h he.symm).symm⟩
  have hpairs := (never_overwrites_iff.mp h).2.forall_of_forall fun _ _ _ => rfl
  refine (image_eq_iff (S := S) (himage hr) (himage hr')).mp (fun htarget => ?_) hconfusable
  rw [harborReference_of_parse hr, harborReference_of_parse hr'] at htarget
  exact hpairs (mem_pushes_obedient hs hr) (mem_pushes_obedient ht hr') (Except.ok.inj htarget)

/-- **Mirrored images.**  Two accepted sources with one target are the same image, exactly if they
are not confusable; synchronising images of a list, in any order and with any answers, never
replaces one image by another, exactly if no two of the list are confusable; and so it is with
`sync_base_images` and the images of a catalog, whose records then tell the images apart. -/
theorem mirrored_images (S : Synchronizer) :
    (∀ s t image image', imageOf s = .ok image → imageOf t = .ok image' →
      ((harborReference S s = harborReference S t → image = image') ↔ ¬ Confusable s t)) ∧
    (∀ images : List String,
      (∀ calls : List (String × Docker), (∀ call ∈ calls, call.1 ∈ images) →
        NeverOverwrites [] (pushes S calls)) ↔ ∀ s ∈ images, ∀ t ∈ images, ¬ Confusable s t) ∧
    ∀ c : Templates.TemplateCatalog,
      ((∀ answers, NeverOverwrites [] (pushes S (catalogCalls answers c))) ↔
        ∀ s ∈ sources c, ∀ t ∈ sources c, ¬ Confusable s t) ∧
      ((∀ s ∈ sources c, ∀ t ∈ sources c, ¬ Confusable s t) →
        ∀ answers, ∀ i ∈ (syncBaseImages (.ok S) answers c).1,
          ∀ j ∈ (syncBaseImages (.ok S) answers c).1, i.status = "synced" → j.status = "synced" →
            i.harborReference = j.harborReference →
              ∃ image, imageOf i.sourceImage = .ok image ∧ imageOf j.sourceImage = .ok image) := by
  refine ⟨fun s t image image' h h' => image_eq_iff h h', fun images => ⟨?_, ?_⟩,
    fun c => ⟨⟨?_, ?_⟩, ?_⟩⟩
  · intro hnever s hs t ht
    -- Two pushes that the registry accepts tell the two sources apart.
    have hboth : NeverOverwrites [] (pushes S [(s, obedient), (t, obedient)]) := by
      refine hnever _ fun call hcall => ?_
      rcases List.mem_cons.mp hcall with rfl | hcall
      · exact hs
      · rw [List.mem_singleton.mp hcall]
        exact ht
    exact apart_of_never_overwrites List.mem_cons_self
      (List.mem_cons_of_mem _ (List.mem_singleton_self _)) hboth
  · exact fun hno calls hcalls => never_overwrites_of_apart hno hcalls
  · intro hnever s hs t ht
    exact apart_of_never_overwrites (List.mem_map.mpr ⟨s, hs, rfl⟩) (List.mem_map.mpr ⟨t, ht, rfl⟩)
      (hnever fun _ => obedient)
  · intro hno answers
    refine never_overwrites_of_apart hno fun call hcall => ?_
    obtain ⟨source, hsource, rfl⟩ := List.mem_map.mp hcall
    exact hsource
  · intro hno answers i hi j hj hsi hsj htarget
    -- A record as synced has the target of its source.
    obtain ⟨hi, hri⟩ := synced_reference hi hsi
    obtain ⟨hj, hrj⟩ := synced_reference hj hsj
    obtain ⟨image, himage⟩ := imageOf_of_reference hri
    obtain ⟨image', himage'⟩ := imageOf_of_reference hrj
    have heq := (image_eq_iff (S := S) himage himage').mpr (hno _ hi _ hj)
      (by rw [hri, hrj, htarget])
    exact ⟨image, himage, heq ▸ himage'⟩

/-- The digest of a source is lost. -/
theorem mirrored_digests : ¬ ∀ (S : Synchronizer) (s t : String) (image image' : Image),
    imageOf s = .ok image → imageOf t = .ok image' →
      harborReference S s = harborReference S t → image = image' := by
  intro h
  have := h ⟨"harbor.example", "boot-images", none⟩ "redis:7@sha256:aaaaaa" "redis:7@sha256:bbbbbb"
    ⟨("docker.io", "library/redis"), "7", some "sha256:aaaaaa"⟩
    ⟨("docker.io", "library/redis"), "7", some "sha256:bbbbbb"⟩
    (by decide) (by decide) (by decide)
  revert this
  decide

end Orchestrator.DockerRegistrySynchronizer
