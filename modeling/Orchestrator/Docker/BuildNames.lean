import Orchestrator.Docker.BoundedNames
import Orchestrator.Docker.SourceCompose
import Orchestrator.Docker.Workspaces
import Orchestrator.Templates.VolumeIdentities
import Orchestrator.Text.Urls

/-!
# Docker — the names of a build

What a deployment of a build calls its volumes, its network, its images and its snapshot.

* `imageRepository`, `imageReferenceOf`, `checkExclusiveImages`: the images, and the worker's check of
  a document's.
* `planOf`, `buildNames`: the names of a document that `deploy_build` accepts.
* `checkExclusiveImages_iff`, `exclusive_images_disjoint`: the images of a document that passes.
* `build_names_disjoint`: the deployments of two builds have none of them in common.
-/

namespace Orchestrator
open DockerSwarmAdapter

/-! ### Images -/

/-- The settings that `_image_repository` reads, and what `urlsplit` asks other modules about. -/
structure ImageSettings where
  harborUrl : Option String
  harborProject : String
  rules : Urls.Rules

namespace ImageSettings
variable (I : ImageSettings)

/-- The network location of `harbor_url`. -/
def registry : Except Exc String :=
  let raw := strip (I.harborUrl.getD "")
  let absolute := decide ("://".toList <:+: raw.toList)
  if I.harborUrl.getD "" = "" then buildInputError "Harbor registry URL is required for builds"
  else match Urls.split I.rules (if absolute then raw.toList else '/' :: '/' :: raw.toList) with
    | none => buildInputError "Harbor registry URL is invalid"
    | some parsed =>
        if parsed.port = none ∨ parsed.netloc = [] ∨ parsed.hasCredentials ∨
            (parsed.path ≠ [] ∧ parsed.path ≠ ['/']) ∨ parsed.query ≠ [] ∨ parsed.fragment ≠ [] ∨
            '?' ∈ raw.toList ∨ '#' ∈ raw.toList ∨
            (parsed.scheme ≠ [] ∧ parsed.scheme ≠ "http".toList ∧
              parsed.scheme ≠ "https".toList) then
          buildInputError "Harbor registry URL is invalid"
        else .ok (String.ofList parsed.netloc)

/-- A naming error, as an error of the input of a build. -/
def named (x : Except Exc String) : Except Exc String :=
  match x with
  | .ok a => .ok a
  | .error e => buildInputError e.message

/-- `_image_repository`. -/
def imageRepository (appid : String) : Except Exc String := do
  let registry ← I.registry
  if isDockerRepositoryComponent I.harborProject = false then
    buildInputError "Harbor project must be a lowercase Docker repository component"
  else named do
    let ns ← externalNamespace appid
    validateImageRepository (registry ++ "/" ++ I.harborProject ++ "/" ++ ns)

end ImageSettings

/-- The image of a service of a build. -/
def imageReferenceOf (repository buildId service : String) : String :=
  repository ++ ":" ++ buildId ++ "-" ++ service

section
variable (I : ImageSettings) (appid buildId : String)

/-- What the worker checks of a service of an isolated build before it is deployed. -/
def checkExclusiveImage (s : String × Fields) : Except Exc Unit :=
  match s.2.lookup (.str "image") with
  | none => .error (exc .keyError "image")
  | some image => do
      let repository ← I.imageRepository appid
      if image.isText (imageReferenceOf repository buildId s.1) then .ok ()
      else buildInputError "Jenkins service image does not match its build-exclusive reference"

def checkExclusiveImages (compose : Document) : Except Exc Unit := do
  checkEach (← composeServices compose) (checkExclusiveImage I appid buildId)

end

/-- The images that a document names. -/
def documentImages (services : Services) : List Document := services.map fun s => field s.2 "image"

/-! ### Names -/

/-- The image of a service belongs to the build of this identifier. -/
def checkImageOf (buildId : String) (definition : Fields) : Except Exc Unit :=
  match fieldD definition "image" (.str "") with
  | .str image =>
      if startsWith (lastPart ':' image) (buildId ++ "-") then .ok ()
      else refuse "Build services require build-exclusive image references"
  | _ => refuse "Build services require build-exclusive image references"

/-- What a deployment of a build is called by. -/
structure BuildNames where
  ns : String
  sources : List (String × String)
  network : String
  images : List String
  snapshot : PurePath
  deriving DecidableEq, Repr

namespace BuildNames

/-- The physical names of the volumes. -/
def volumes (x : BuildNames) : List String := x.sources.map Prod.snd

/-- The texts that names have 32 digits of the digest of. -/
def identities (x : BuildNames) (appid buildId : String) : List String :=
  jsonPair appid buildId :: x.sources.map fun e => jsonPair x.ns e.1

end BuildNames

variable (S : SwarmSettings) (I : ImageSettings) (W : WorkspaceStore)

/-- `deploy_build`, to where it opens a client, of a build identifier as it is spelt. -/
def planOf (appid buildId : String) (compose : Document) : Except Exc (String × Plan) := do
  let bindRoot := S.host.workspaceHostRoot.append
    [← externalNamespace appid, "snapshots", buildId, "files"]
  validateBuildCompose S bindRoot compose []
  checkEach (← composeServices compose) fun s => checkImageOf buildId s.2
  let ns ← buildNamespace S.host.sha256 appid buildId
  let p ← plan S appid ns true compose
  .ok (ns, p)

/-- The names of the deployment of a document: `deploy_build` accepts it, and the worker and the
workspace know its images and its snapshot. -/
def buildNames (appid buildId : String) (compose : Document) : Except Exc BuildNames := do
  let (ns, p) ← planOf S appid buildId compose
  let repository ← I.imageRepository appid
  let snapshot ← W.snapshotPath appid buildId
  .ok { ns, sources := p.sources, network := networkNameOf S ns, snapshot
        images := p.services.map fun s => imageReferenceOf repository buildId s.1 }

/-! ### Their parts -/

/-- What an application is called by outside tells it. -/
theorem externalNamespace_inj {appid appid' ns : String} (h : externalNamespace appid = .ok ns)
    (h' : externalNamespace appid' = .ok ns) : appid = appid' := by
  obtain ⟨hx, rfl⟩ := externalNamespace_iff.mp h
  obtain ⟨hx', hns⟩ := externalNamespace_iff.mp h'
  exact namespaceText_injective hx hx' hns

theorem colon_not_mem_namespace {appid ns : String} (h : externalNamespace appid = .ok ns) :
    ':' ∉ ns.toList := by
  obtain ⟨hx, rfl⟩ := externalNamespace_iff.mp h
  intro hm
  have hc := isDockerRepositoryComponent_char (isDockerRepositoryComponent_namespaceText hx) _ hm
  revert hc
  decide

/-- What comes before the namespace in a repository is the same for all applications. -/
theorem imageRepository_ok {appid repository : String} (h : I.imageRepository appid = .ok repository) :
    ∃ registry ns, I.registry = .ok registry ∧ externalNamespace appid = .ok ns ∧
      repository = registry ++ "/" ++ I.harborProject ++ "/" ++ ns := by
  unfold ImageSettings.imageRepository at h
  obtain ⟨registry, hregistry, h⟩ := bind_ok h
  split at h
  · cases h
  · unfold ImageSettings.named at h
    split at h
    · next a ha =>
        cases h
        obtain ⟨ns, hns, ha⟩ := bind_ok ha
        exact ⟨registry, ns, hregistry, hns, (validateImageRepository_ok ha)⟩
    · cases h

theorem buildNamespace_ok {H : Sha256} {appid buildId ns : String}
    (h : buildNamespace H appid buildId = .ok ns) : Appid appid ∧ isBuildId buildId = true ∧
      ns = buildNamespacePrefix ++ H.short 32 (jsonPair appid buildId) := by
  unfold buildNamespace at h
  obtain ⟨appid', happid, hrest⟩ := bind_ok h
  obtain ⟨buildId', hbuild, hns⟩ := bind_ok hrest
  obtain ⟨rfl, happid⟩ := validateAppid_ok happid
  unfold validateBuildId at hbuild
  split at hbuild
  · next hb =>
      cases hbuild
      exact ⟨happid, hb, (Except.ok.inj hns).symm⟩
  · cases hbuild

variable {S I W}

theorem planOf_ok {appid buildId ns : String} {compose : Document} {p : Plan}
    (h : planOf S appid buildId compose = .ok (ns, p)) :
    buildNamespace S.host.sha256 appid buildId = .ok ns ∧
      plan S appid ns true compose = .ok p := by
  unfold planOf at h
  obtain ⟨root, -, h⟩ := bind_ok h
  obtain ⟨-, -, h⟩ := bind_ok h
  obtain ⟨services, -, h⟩ := bind_ok h
  obtain ⟨-, -, h⟩ := bind_ok h
  obtain ⟨ns', hns, h⟩ := bind_ok h
  obtain ⟨p', hp, h⟩ := bind_ok h
  cases h
  exact ⟨hns, hp⟩

theorem plan_services {appid ns : String} {compose : Document} {p : Plan}
    (h : plan S appid ns true compose = .ok p) : composeServices compose = .ok p.services := by
  unfold plan at h
  obtain ⟨-, -, h⟩ := bind_ok h
  obtain ⟨services, hservices, h⟩ := bind_ok h
  obtain ⟨-, -, h⟩ := bind_ok h
  obtain ⟨declared, -, h⟩ := bind_ok h
  obtain ⟨sources, -, h⟩ := bind_ok h
  obtain ⟨order, -, h⟩ := bind_ok h
  cases h
  exact hservices

/-- In a build, every volume has the managed name of its alias. -/
theorem plan_sources {appid ns : String} {compose : Document} {p : Plan}
    (h : plan S appid ns true compose = .ok p) :
    ∀ e ∈ p.sources, managedVolumeName S.host.sha256 ns e.1 = .ok e.2 := by
  unfold plan at h
  obtain ⟨-, -, h⟩ := bind_ok h
  obtain ⟨services, -, h⟩ := bind_ok h
  obtain ⟨-, -, h⟩ := bind_ok h
  obtain ⟨declared, -, h⟩ := bind_ok h
  obtain ⟨sources, hsources, h⟩ := bind_ok h
  obtain ⟨order, -, h⟩ := bind_ok h
  cases h
  intro e he
  obtain ⟨d, -, hd⟩ := mapM_mem hsources he
  split at hd
  · next name hname =>
      cases hd
      exact hname
  · cases hd

theorem buildNames_ok {appid buildId : String} {compose : Document} {x : BuildNames}
    (h : buildNames S I W appid buildId compose = .ok x) :
    buildNamespace S.host.sha256 appid buildId = .ok x.ns ∧
      (∀ e ∈ x.sources, managedVolumeName S.host.sha256 x.ns e.1 = .ok e.2) ∧
      x.network = networkNameOf S x.ns ∧
      (∃ repository, I.imageRepository appid = .ok repository ∧
        ∀ image ∈ x.images, ∃ service, image = imageReferenceOf repository buildId service) ∧
      W.snapshotPath appid buildId = .ok x.snapshot := by
  unfold buildNames at h
  obtain ⟨⟨ns, p⟩, hp, h⟩ := bind_ok h
  obtain ⟨hns, hplan⟩ := planOf_ok hp
  obtain ⟨repository, hrepository, h⟩ := bind_ok h
  obtain ⟨snapshot, hsnapshot, h⟩ := bind_ok h
  cases h
  refine ⟨hns, plan_sources hplan, rfl, ⟨repository, hrepository, fun image himage => ?_⟩, hsnapshot⟩
  obtain ⟨s, -, rfl⟩ := List.mem_map.mp himage
  exact ⟨s.1, rfl⟩

/-! ### The images of a document -/

theorem isText_iff {image : Document} {text : String} :
    image.isText text = true ↔ image = .str text := by
  cases image with
  | str s => rw [Document.isText, beq_iff_eq, Document.str.injEq]
  | _ =>
      refine iff_of_false (fun h => ?_) fun h => ?_
      · cases h
      · cases h

theorem checkExclusiveImage_iff {appid buildId repository : String} {s : String × Fields}
    (h : I.imageRepository appid = .ok repository) :
    checkExclusiveImage I appid buildId s = .ok () ↔
      field s.2 "image" = .str (imageReferenceOf repository buildId s.1) := by
  unfold checkExclusiveImage field
  cases s.2.lookup (.str "image") with
  | none =>
      constructor
      · intro he
        cases he
      · intro he
        cases he
  | some image =>
      dsimp only
      rw [h, Option.getD_some]
      rw [← isText_iff]
      by_cases himage : image.isText (imageReferenceOf repository buildId s.1) = true
      · exact iff_of_true (if_pos himage) himage
      · refine iff_of_false (fun he => ?_) himage
        have hfail := (if_neg himage).symm.trans he
        cases hfail

/-- The worker accepts the images of a document exactly if they are those of its build. -/
theorem checkExclusiveImages_iff {appid buildId : String} {compose : Document} {x : BuildNames}
    (h : buildNames S I W appid buildId compose = .ok x) :
    checkExclusiveImages I appid buildId compose = .ok () ↔
      ∃ services, composeServices compose = .ok services ∧
        documentImages services = x.images.map .str := by
  unfold buildNames at h
  obtain ⟨⟨ns, p⟩, hp, h⟩ := bind_ok h
  have hservices := plan_services (planOf_ok hp).2
  obtain ⟨repository, hrepository, h⟩ := bind_ok h
  obtain ⟨snapshot, -, h⟩ := bind_ok h
  cases h
  have hcheck : checkExclusiveImages I appid buildId compose =
      checkEach p.services (checkExclusiveImage I appid buildId) := by
    rw [checkExclusiveImages, hservices]
    rfl
  rw [hcheck, checkEach_ok]
  have himages : documentImages p.services =
      (p.services.map fun s => imageReferenceOf repository buildId s.1).map .str ↔
        ∀ s ∈ p.services, checkExclusiveImage I appid buildId s = .ok () := by
    rw [documentImages, List.map_map, List.map_inj_left]
    exact forall₂_congr fun s _ => (checkExclusiveImage_iff hrepository).symm
  constructor
  · exact fun hall => ⟨p.services, hservices, himages.mpr hall⟩
  · rintro ⟨services, hs, he⟩
    cases hservices.symm.trans hs
    exact himages.mp he

/-! ### Two builds -/

/-- Different texts of the two lists have different digests, of this many digits. -/
def DigestsApart (H : Sha256) (n : Nat) (l l' : List String) : Prop :=
  ∀ s ∈ l, ∀ t ∈ l', s ≠ t → H.short n s ≠ H.short n t

instance (H : Sha256) (n : Nat) (l l' : List String) : Decidable (DigestsApart H n l l') :=
  inferInstanceAs (Decidable (∀ s ∈ l, ∀ t ∈ l', s ≠ t → H.short n s ≠ H.short n t))

theorem length_buildId {buildId : String} (h : isBuildId buildId = true) :
    buildId.toList.length = 32 := by
  simp only [isBuildId, Bool.and_eq_true, beq_iff_eq] at h
  exact h.1

theorem quote_not_mem_appid {appid : String} (h : Appid appid) : '"' ∉ appid.toList := by
  intro hm
  have hc := h.char _ hm
  revert hc
  decide

theorem quote_not_mem_buildId {buildId : String} (h : isBuildId buildId = true) :
    '"' ∉ buildId.toList := by
  intro hm
  simp only [isBuildId, Bool.and_eq_true, List.all_eq_true] at h
  have hc := h.2 _ hm
  revert hc
  decide

/-- The namespaces of different builds differ. -/
theorem buildNamespace_ne {H : Sha256} {appid appid' buildId buildId' ns ns' : String}
    (h : buildNamespace H appid buildId = .ok ns)
    (h' : buildNamespace H appid' buildId' = .ok ns') (hne : (appid, buildId) ≠ (appid', buildId'))
    (hdigests : jsonPair appid buildId ≠ jsonPair appid' buildId' →
      H.short 32 (jsonPair appid buildId) ≠ H.short 32 (jsonPair appid' buildId')) : ns ≠ ns' := by
  obtain ⟨ha, hb, rfl⟩ := buildNamespace_ok h
  obtain ⟨ha', hb', rfl⟩ := buildNamespace_ok h'
  intro hns
  refine hdigests ?_ ?_
  · intro hserial
    obtain ⟨hfirst, hsecond⟩ := jsonPair_injective (quote_not_mem_appid ha)
      (quote_not_mem_appid ha') (quote_not_mem_buildId hb) (quote_not_mem_buildId hb') hserial
    exact hne (Prod.ext hfirst hsecond)
  · have hns := congrArg String.toList hns
    rw [String.toList_append, String.toList_append] at hns
    exact String.toList_inj.mp (List.append_cancel_left hns)

/-- The networks of different namespaces of builds are called differently: their full names are
of one length, so both are kept or both are cut. -/
theorem buildNetwork_ne {appid appid' buildId buildId' ns ns' : String}
    (h : buildNamespace S.host.sha256 appid buildId = .ok ns)
    (h' : buildNamespace S.host.sha256 appid' buildId' = .ok ns') (hne : ns ≠ ns')
    (hdigest : networkDigested S ns ≠ networkDigested S ns' →
      S.host.sha256.short 10 (networkDigested S ns) ≠
        S.host.sha256.short 10 (networkDigested S ns')) :
    networkNameOf S ns ≠ networkNameOf S ns' := by
  have hform : ∀ {appid buildId ns : String}, buildNamespace S.host.sha256 appid buildId = .ok ns →
      ns.toList.length = 41 ∧ startsWith ns namespacePrefix = false := by
    intro appid buildId ns h
    obtain ⟨-, -, rfl⟩ := buildNamespace_ok h
    rw [startsWith, String.toList_append, List.length_append, S.host.sha256.length_short (by decide)]
    exact ⟨rfl, rfl⟩
  obtain ⟨hlen, hstart⟩ := hform h
  obtain ⟨hlen', hstart'⟩ := hform h'
  have hraw : networkText S ns ≠ networkText S ns' := fun e => hne (networkText_injective e)
  have hsame : (networkText S ns).toList.length = (networkText S ns').toList.length := by
    simp only [networkText, String.toList_append, List.length_append, hlen, hlen']
  have hdigested : networkDigested S ns ≠ networkDigested S ns' := by
    rw [networkDigested, networkDigested, hstart, hstart']
    split
    · exact hraw
    · exact hne
  rw [networkNameOf_eq, networkNameOf_eq, ne_eq, bounded_eq_iff hdigest hraw, not_or, not_or]
  refine ⟨?_, ?_, ?_⟩
  · rintro ⟨hkept, hcut, -⟩
    omega
  · rintro ⟨hkept, hcut, -⟩
    omega
  · rintro ⟨-, -, e, -⟩
    exact hdigested e

/-- An image tells its application and its build. -/
theorem imageReferenceOf_inj {appid appid' buildId buildId' repository repository' service service' :
    String} (h : I.imageRepository appid = .ok repository)
    (h' : I.imageRepository appid' = .ok repository')
    (hlen : buildId.toList.length = buildId'.toList.length)
    (hsame : imageReferenceOf repository buildId service =
      imageReferenceOf repository' buildId' service') : (appid, buildId) = (appid', buildId') := by
  obtain ⟨registry, ns, hregistry, hn, rfl⟩ := imageRepository_ok I h
  obtain ⟨registry', ns', hregistry', hn', rfl⟩ := imageRepository_ok I h'
  cases hregistry.symm.trans hregistry'
  have hsame := congrArg String.toList hsame
  simp only [imageReferenceOf, String.toList_append, List.append_assoc] at hsame
  have hsame := List.append_cancel_left (List.append_cancel_left (List.append_cancel_left
    (List.append_cancel_left hsame)))
  change ns.toList ++ ':' :: (buildId.toList ++ ("-".toList ++ service.toList)) =
    ns'.toList ++ ':' :: (buildId'.toList ++ ("-".toList ++ service'.toList)) at hsame
  -- The namespace ends at the first colon, and the identifier after 32 digits.
  obtain ⟨happ, htag⟩ := first_cut_unique hsame (colon_not_mem_namespace hn)
    (colon_not_mem_namespace hn')
  obtain ⟨hbuild, -⟩ := List.append_inj htag hlen
  rw [String.toList_inj.mp happ] at hn
  exact Prod.ext (externalNamespace_inj hn hn') (String.toList_inj.mp hbuild)

/-- The documents of two builds name no image in common, if the worker accepts them. -/
theorem exclusive_images_disjoint {appid appid' buildId buildId' : String}
    {compose compose' : Document} {services services' : Services}
    (hne : (appid, buildId) ≠ (appid', buildId')) (hb : isBuildId buildId = true)
    (hb' : isBuildId buildId' = true) (hs : composeServices compose = .ok services)
    (hs' : composeServices compose' = .ok services')
    (h : checkExclusiveImages I appid buildId compose = .ok ())
    (h' : checkExclusiveImages I appid' buildId' compose' = .ok ()) :
    (documentImages services).Disjoint (documentImages services') := by
  have hexclusive {appid buildId : String} {compose : Document} {services : Services}
      {image : Document} (hs : composeServices compose = .ok services)
      (h : checkExclusiveImages I appid buildId compose = .ok ())
      (himage : image ∈ documentImages services) : ∃ repository service,
        I.imageRepository appid = .ok repository ∧
          image = .str (imageReferenceOf repository buildId service) := by
    rw [checkExclusiveImages, hs] at h
    obtain ⟨s, hmem, rfl⟩ := List.mem_map.mp himage
    have hcheck := checkEach_ok.mp h s hmem
    cases hr : I.imageRepository appid with
    | ok repository => exact ⟨repository, s.1, rfl, (checkExclusiveImage_iff hr).mp hcheck⟩
    | error e =>
        unfold checkExclusiveImage at hcheck
        split at hcheck
        · cases hcheck
        · rw [hr] at hcheck
          cases hcheck
  intro image himage himage'
  obtain ⟨repository, service, hr, rfl⟩ := hexclusive hs h himage
  obtain ⟨repository', service', hr', hsame⟩ := hexclusive hs' h' himage'
  exact hne (imageReferenceOf_inj hr hr' ((length_buildId hb).trans (length_buildId hb').symm)
    (Document.str.inj hsame))

/-- **The names of builds.**  The deployments of two builds have no volume, no network, no image and
no snapshot in common, where the digests of the different texts they are made of differ. -/
theorem build_names_disjoint {appid appid' buildId buildId' : String} {compose compose' : Document}
    {x x' : BuildNames} (hne : (appid, buildId) ≠ (appid', buildId'))
    (hx : buildNames S I W appid buildId compose = .ok x)
    (hx' : buildNames S I W appid' buildId' compose' = .ok x')
    (hidentities : DigestsApart S.host.sha256 32 (x.identities appid buildId)
      (x'.identities appid' buildId'))
    (hnetworks : DigestsApart S.host.sha256 10 [networkDigested S x.ns]
      [networkDigested S x'.ns]) :
    x.volumes.Disjoint x'.volumes ∧ x.network ≠ x'.network ∧ x.images.Disjoint x'.images ∧
      x.snapshot ≠ x'.snapshot := by
  obtain ⟨hns, hsources, hnetwork, ⟨repository, hrepository, himages⟩, hsnapshot⟩ := buildNames_ok hx
  obtain ⟨hns', hsources', hnetwork', ⟨repository', hrepository', himages'⟩, hsnapshot'⟩ :=
    buildNames_ok hx'
  have hnsne : x.ns ≠ x'.ns := buildNamespace_ne hns hns' hne
    (hidentities _ List.mem_cons_self _ List.mem_cons_self)
  obtain ⟨-, hb, -⟩ := buildNamespace_ok hns
  obtain ⟨-, hb', -⟩ := buildNamespace_ok hns'
  have hlen : buildId.toList.length = buildId'.toList.length :=
    (length_buildId hb).trans (length_buildId hb').symm
  refine ⟨?_, ?_, ?_, ?_⟩
  · intro v hv hv'
    -- A volume is named by its namespace and its alias.
    obtain ⟨e, he, rfl⟩ := List.mem_map.mp hv
    obtain ⟨e', he', hsame⟩ := List.mem_map.mp hv'
    obtain ⟨hcomponent, hname, hphysical⟩ :=
      Templates.TemplateCatalog.managedVolumeName_iff.mp (hsources e he)
    obtain ⟨hcomponent', hname', hphysical'⟩ :=
      Templates.TemplateCatalog.managedVolumeName_iff.mp (hsources' e' he')
    rw [hphysical, hphysical'] at hsame
    have hchars : ∀ {ns : String}, isDockerRepositoryComponent ns = true →
        ∀ c ∈ ns.toList, isResourceChar c = true := fun h c hc =>
      Templates.TemplateCatalog.isResourceChar_of_isComponentChar
        (isDockerRepositoryComponent_char h c hc)
    have hpair := volumeIdentityName_injective (p := (x.ns, e.1)) (q := (x'.ns, e'.1))
      (hchars hcomponent) (isResourceName_char hname) (hchars hcomponent')
      (isResourceName_char hname')
      (hidentities _ (List.mem_cons_of_mem _ (List.mem_map_of_mem he)) _
        (List.mem_cons_of_mem _ (List.mem_map_of_mem he'))) hsame.symm
    exact hnsne (congrArg Prod.fst hpair)
  · rw [hnetwork, hnetwork']
    exact buildNetwork_ne hns hns' hnsne
      (hnetworks _ (List.mem_singleton_self _) _ (List.mem_singleton_self _))
  · intro image himage himage'
    -- An image is named by its repository, the build and the service.
    obtain ⟨service, rfl⟩ := himages image himage
    obtain ⟨service', hsame⟩ := himages' _ himage'
    exact hne (imageReferenceOf_inj hrepository hrepository' hlen hsame)
  · intro hsame
    -- A snapshot is kept under its application and its build.
    have hpath : ∀ {appid buildId : String} {path : PurePath},
        W.snapshotPath appid buildId = .ok path → ∃ ns, externalNamespace appid = .ok ns ∧
          path = W.root.append [ns, "snapshots", buildId] := by
      intro appid buildId path h
      unfold WorkspaceStore.snapshotPath at h
      split at h
      · obtain ⟨ns, hns, h⟩ := bind_ok h
        cases h
        exact ⟨ns, hns, rfl⟩
      · cases h
    obtain ⟨ns, hn, hp⟩ := hpath hsnapshot
    obtain ⟨ns', hn', hp'⟩ := hpath hsnapshot'
    rw [hp, hp'] at hsame
    have hsegments := List.append_cancel_left (congrArg PurePath.segments hsame)
    obtain ⟨rfl, hrest⟩ := List.cons.inj hsegments
    obtain ⟨-, hrest⟩ := List.cons.inj hrest
    obtain ⟨rfl, -⟩ := List.cons.inj hrest
    exact hne (Prod.ext (externalNamespace_inj hn hn') rfl)

namespace BuildNames

/-- Images are kept in one project of one registry. -/
def images_ : ImageSettings :=
  { harborUrl := some "https://harbor.local", harborProject := "apps"
    rules := ⟨fun _ => true, fun _ => true⟩ }

/-- An empty workspace. -/
def workspace : WorkspaceStore := ⟨⟨"/", ["work"]⟩, ⟨"/", ["work"]⟩, fun _ => .missing⟩

/-- A service with a volume, in the image of a build. -/
def document (buildId : String) : Document := .map [(.str "services", .map [(.str "web", .map [
  (.str "image", .str ("harbor.local/apps/demo:" ++ buildId ++ "-web")),
  (.str "volumes", .list [.str "data:/data"])])])]

def firstBuild : String := "0123456789abcdef0123456789abcdef"

def secondBuild : String := "fedcba9876543210fedcba9876543210"

/-- What the first build is called by. -/
def first : BuildNames where
  ns := "build-v1-d04ef99b687dc00de4969f80fa5821e3"
  sources := [("data", "vol-v1-build-v1-d04ef99b687dc0-b1ff0f24e2bd645ba898607cad64b100")]
  network := "orchestrator-build-v1-d04ef99b687dc00de4969f80fa5821e3"
  images := ["harbor.local/apps/demo:0123456789abcdef0123456789abcdef-web"]
  snapshot := ⟨"/", ["work", "demo", "snapshots", firstBuild]⟩

/-- What the second build is called by. -/
def second : BuildNames where
  ns := "build-v1-b8aea14abe85c6da292b9071bf7be32f"
  sources := [("data", "vol-v1-build-v1-b8aea14abe85c6-67dae78f679ebab9f736d15a46ccf2de")]
  network := "orchestrator-build-v1-b8aea14abe85c6da292b9071bf7be32f"
  images := ["harbor.local/apps/demo:fedcba9876543210fedcba9876543210-web"]
  snapshot := ⟨"/", ["work", "demo", "snapshots", secondBuild]⟩

end BuildNames

open BuildNames in
theorem build_names_disjoint_demo : first.volumes.Disjoint second.volumes ∧
    first.network ≠ second.network ∧ first.images.Disjoint second.images ∧
      first.snapshot ≠ second.snapshot := by
  have hfirst : (buildNames digesting images_ workspace "demo" firstBuild
      (document firstBuild)).toOption = some first := by decide +kernel
  have hsecond : (buildNames digesting images_ workspace "demo" secondBuild
      (document secondBuild)).toOption = some second := by decide +kernel
  have hne : ("demo", firstBuild) ≠ ("demo", secondBuild) := by decide
  exact build_names_disjoint hne
    (toOption_eq_some.mp hfirst) (toOption_eq_some.mp hsecond) (by decide +kernel)
    (by decide +kernel)

end Orchestrator
