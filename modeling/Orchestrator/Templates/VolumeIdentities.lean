import Orchestrator.Templates.Volumes

/-!
# Templates — the identities of volumes

What tells two volumes apart.  The readable part of a name is in lower case and cut short, so only
the digest of the serialised pair separates two names of one kind; the kind itself separates the
names of applications from those of templates.

* `jsonPair_injective`: the serialisation of a pair has one reading.
* `DockerVolumeName`: the names that Docker takes.
* `volume_identities`: both functions make such names, and each name has one origin.
-/

namespace Orchestrator

/-- Texts without a quote are read back from the serialisation of their pair. -/
theorem jsonPair_injective {first second first' second' : String} (hf : '"' ∉ first.toList)
    (hf' : '"' ∉ first'.toList) (hs : '"' ∉ second.toList) (hs' : '"' ∉ second'.toList)
    (h : jsonPair first second = jsonPair first' second') : first = first' ∧ second = second' := by
  have h := congrArg String.toList h
  simp only [jsonPair, String.toList_ofList, List.append_assoc, List.cons_append, List.nil_append,
    List.cons.injEq, true_and] at h
  -- The first text ends at the first quote, and what is left of both is the second.
  obtain ⟨hfirst, hrest⟩ := first_cut_unique h hf hf'
  simp only [List.cons.injEq, true_and] at hrest
  obtain ⟨hsecond, -⟩ := first_cut_unique hrest hs hs'
  exact ⟨String.toList_inj.mp hfirst, String.toList_inj.mp hsecond⟩

theorem quote_not_mem {s : String} (h : ∀ c ∈ s.toList, isResourceChar c = true) :
    '"' ∉ s.toList := fun hm => absurd (h _ hm) (by decide)

/-! ### The grammar -/

/-- At most 63 characters, the first a letter or a digit, and none that Docker refuses. -/
structure DockerVolumeName (name : String) : Prop where
  bounded : name.toList.length ≤ 63
  form : ∃ c cs, name.toList = c :: cs ∧ isAlnum c = true ∧ ∀ x ∈ cs, isResourceChar x = true

theorem length_volumeIdentityName (H : Sha256) (kind first second : String) :
    (volumeIdentityName H kind first second).toList.length ≤ 63 := by
  rw [toList_volumeIdentityName, List.length_append, List.length_cons, H.length_short (by decide)]
  have := List.length_take_le 30 ((kind ++ "-" ++ first ++ "-" ++ second).toList.map Char.toLower)
  omega

/-- A name begins as its kind does, in lower case. -/
theorem head_volumeIdentityName (H : Sha256) {kind : String} (hkind : kind.toList ≠ [])
    (first second : String) :
    (volumeIdentityName H kind first second).toList.head? =
      kind.toList.head?.map Char.toLower := by
  rw [toList_volumeIdentityName]
  simp only [String.toList_append, List.append_assoc]
  cases hk : kind.toList with
  | nil => exact absurd hk hkind
  | cons c cs => rfl

/-- The digests of two pairs differ, if their serialisations do. -/
def DigestsDiffer (H : Sha256) (p q : String × String) : Prop :=
  jsonPair p.1 p.2 ≠ jsonPair q.1 q.2 →
    H.short 32 (jsonPair p.1 p.2) ≠ H.short 32 (jsonPair q.1 q.2)

instance (H : Sha256) (p q : String × String) : Decidable (DigestsDiffer H p q) :=
  inferInstanceAs (Decidable (_ → _))

/-- Names of one kind have one origin. -/
theorem volumeIdentityName_injective {H : Sha256} {kind : String} {p q : String × String}
    (hp₁ : ∀ c ∈ p.1.toList, isResourceChar c = true)
    (hp₂ : ∀ c ∈ p.2.toList, isResourceChar c = true)
    (hq₁ : ∀ c ∈ q.1.toList, isResourceChar c = true)
    (hq₂ : ∀ c ∈ q.2.toList, isResourceChar c = true) (hdigests : DigestsDiffer H p q)
    (h : volumeIdentityName H kind p.1 p.2 = volumeIdentityName H kind q.1 q.2) : p = q := by
  have hserial : jsonPair p.1 p.2 = jsonPair q.1 q.2 := by
    by_contra hne
    exact volumeIdentityName_ne (hdigests hne) h
  obtain ⟨hfirst, hsecond⟩ := jsonPair_injective (quote_not_mem hp₁) (quote_not_mem hq₁)
    (quote_not_mem hp₂) (quote_not_mem hq₂) hserial
  exact Prod.ext hfirst hsecond

/-! ### The two functions -/

namespace Templates.TemplateCatalog

/-- What `managed_volume_name` accepts, and what it makes of it. -/
theorem managedVolumeName_iff {H : Sha256} {ns n name : String} :
    managedVolumeName H ns n = .ok name ↔
      isDockerRepositoryComponent ns = true ∧ isResourceName n = true ∧
        name = volumeIdentityName H "vol-v1" ns n := by
  rw [managedVolumeName]
  by_cases hns : isDockerRepositoryComponent ns = false
  · rw [if_pos hns, hns]
    constructor
    · intro h
      cases h
    · rintro ⟨h, -⟩
      cases h
  · rw [if_neg hns]
    by_cases hn : isResourceName n = false
    · rw [if_pos hn, hn]
      constructor
      · intro h
        cases h
      · rintro ⟨-, h, -⟩
        cases h
    · rw [if_neg hn]
      constructor
      · intro h
        exact ⟨(Bool.not_eq_false _).mp hns, (Bool.not_eq_false _).mp hn, (Except.ok.inj h).symm⟩
      · rintro ⟨-, -, rfl⟩
        rfl

/-- **The names of volumes.**  Of every accepted pair, each function makes a name that Docker takes,
and what a template makes is an alias that an application can use.  Where the digests of different
pairs differ, a name tells the pair it was made of; and no name of an application is an alias of a
template. -/
theorem volume_identities {H : Sha256} (hhex : H.Hexadecimal) :
    (∀ ns n name, managedVolumeName H ns n = .ok name → DockerVolumeName name) ∧
    (∀ component source n, templateVolumeAlias H component source = .ok n →
      DockerVolumeName n ∧ ∀ ns, isDockerRepositoryComponent ns = true →
        ∃ name, managedVolumeName H ns n = .ok name) ∧
    (∀ ns n ns' n' name, managedVolumeName H ns n = .ok name →
      managedVolumeName H ns' n' = .ok name → DigestsDiffer H (ns, n) (ns', n') →
        (ns, n) = (ns', n')) ∧
    (∀ component source component' source' n, templateVolumeAlias H component source = .ok n →
      templateVolumeAlias H component' source' = .ok n →
      DigestsDiffer H (component, source) (component', source') →
        (component, source) = (component', source')) ∧
    ∀ ns n component source name n', managedVolumeName H ns n = .ok name →
      templateVolumeAlias H component source = .ok n' → name ≠ n' := by
  refine ⟨?_, ?_, ?_, ?_, ?_⟩
  · intro ns n name h
    obtain ⟨hns, hn, rfl⟩ := managedVolumeName_iff.mp h
    exact ⟨length_volumeIdentityName H _ _ _,
      isResourceName_iff.mp (isResourceName_managed hhex hns hn)⟩
  · intro component source n h
    obtain ⟨hc, hs, rfl⟩ := templateVolumeAlias_ok h
    have hname := isResourceName_volumeAlias hhex hc hs
    refine ⟨⟨length_volumeIdentityName H _ _ _, isResourceName_iff.mp hname⟩, fun ns hns => ?_⟩
    exact ⟨_, managedVolumeName_iff.mpr ⟨hns, hname, rfl⟩⟩
  · intro ns n ns' n' name h h' hdigests
    obtain ⟨hns, hn, rfl⟩ := managedVolumeName_iff.mp h
    obtain ⟨hns', hn', hsame⟩ := managedVolumeName_iff.mp h'
    have hchars {ns : String} (hns : isDockerRepositoryComponent ns = true) :
        ∀ c ∈ ns.toList, isResourceChar c = true := fun c hc =>
      isResourceChar_of_isComponentChar (isDockerRepositoryComponent_char hns c hc)
    exact volumeIdentityName_injective (hchars hns) (isResourceName_char hn) (hchars hns')
      (isResourceName_char hn') hdigests hsame
  · intro component source component' source' n h h' hdigests
    obtain ⟨hc, hs, rfl⟩ := templateVolumeAlias_ok h
    obtain ⟨hc', hs', hsame⟩ := templateVolumeAlias_ok h'
    exact volumeIdentityName_injective (isResourceName_char hc) (isResourceName_char hs)
      (isResourceName_char hc') (isResourceName_char hs') hdigests hsame
  · intro ns n component source name n' h h' hsame
    obtain ⟨-, -, rfl⟩ := managedVolumeName_iff.mp h
    obtain ⟨-, -, rfl⟩ := templateVolumeAlias_ok h'
    -- The kinds begin with different letters.
    have hheads := congrArg (fun s : String => s.toList.head?) hsame
    simp only [volumeAlias] at hheads
    rw [head_volumeIdentityName H (by decide), head_volumeIdentityName H (by decide)] at hheads
    revert hheads
    decide

/-- The boundary between the two parts of a pair is kept. -/
theorem volume_identities_boundary :
    (∃ name, managedVolumeName Hashing.sha256 "foo" "bar-data" = .ok name ∧
      DockerVolumeName name ∧ managedVolumeName Hashing.sha256 "foo-bar" "data" ≠ .ok name) ∧
    ∃ n name, templateVolumeAlias Hashing.sha256 "foo-bar" "Data" = .ok n ∧
      managedVolumeName Hashing.sha256 "foo" n = .ok name ∧ name ≠ n := by
  obtain ⟨hmanaged, htemplate, hinjective, -, hkinds⟩ :=
    volume_identities Hashing.sha256_hexadecimal
  obtain ⟨name, hname⟩ : ∃ name, managedVolumeName Hashing.sha256 "foo" "bar-data" = .ok name :=
    ⟨_, managedVolumeName_iff.mpr ⟨by decide, by decide, rfl⟩⟩
  refine ⟨⟨name, hname, hmanaged _ _ _ hname, fun hname' => ?_⟩, ?_⟩
  · have := hinjective _ _ _ _ _ hname hname' (by decide +kernel)
    exact absurd this (by decide)
  · obtain ⟨n, hn⟩ : ∃ n, templateVolumeAlias Hashing.sha256 "foo-bar" "Data" = .ok n :=
      ⟨_, rfl⟩
    obtain ⟨name, hname⟩ := (htemplate _ _ _ hn).2 "foo" (by decide)
    exact ⟨n, name, hn, hname, hkinds _ _ _ _ _ _ hname hn⟩

end Templates.TemplateCatalog
end Orchestrator
