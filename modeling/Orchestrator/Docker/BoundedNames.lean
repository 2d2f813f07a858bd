import Orchestrator.Docker.Deploy
import Orchestrator.Docker.Namespaces
import Orchestrator.Docker.Playback
import Orchestrator.Text.Sha256

/-!
# Docker — bounded names

A name that fits is kept, and any other is cut and ends with a digest.  The names kept and the
names cut share one space.

* `shorten`, `bounded`: a name, from its full text and the text that is digested.
* `Spells`: a text that is kept, and is the cut form of another.
* `bounded_eq_iff`: when two names are the same, where the digests of different texts differ.
* `network_names_apart`: of the networks of two applications.
-/

namespace Orchestrator

section Bounded

variable (H : Sha256)

/-- The first 52 characters, and ten digits of the digest of `digested`. -/
def shorten (raw digested : String) : String := takeText 52 raw ++ "-" ++ H.short 10 digested

def bounded (raw digested : String) : String :=
  if raw.toList.length ≤ maxDockerNameLength then raw else shorten H raw digested

/-- `raw` is kept, and is what `raw'` is cut to. -/
def Spells (raw raw' digested' : String) : Prop :=
  raw.toList.length ≤ maxDockerNameLength ∧ maxDockerNameLength < raw'.toList.length ∧
    raw = shorten H raw' digested'

/-- Both are cut, to the same text with the same digest. -/
def Merged (raw digested raw' digested' : String) : Prop :=
  maxDockerNameLength < raw.toList.length ∧ maxDockerNameLength < raw'.toList.length ∧
    digested = digested' ∧ takeText 52 raw = takeText 52 raw'

variable {H}

theorem length_takeText {n : Nat} {text : String} (h : n ≤ text.toList.length) :
    (takeText n text).toList.length = n := by
  rw [takeText, String.toList_ofList, List.length_take]
  omega

theorem length_shorten {raw : String} (h : maxDockerNameLength < raw.toList.length)
    (digested : String) : (shorten H raw digested).toList.length = maxDockerNameLength := by
  have hcut : (takeText 52 raw).toList.length = 52 :=
    length_takeText (Nat.le_of_lt (Nat.lt_of_lt_of_le (by decide) (Nat.le_of_lt h)))
  have hdigest := H.length_short (n := 10) (by decide) digested
  rw [shorten, String.toList_append, String.toList_append, List.length_append, List.length_append,
    hcut, hdigest]
  decide

theorem length_bounded (raw digested : String) :
    (bounded H raw digested).toList.length ≤ maxDockerNameLength := by
  rw [bounded]
  split
  · next h => exact h
  · next h => exact (length_shorten (Nat.lt_of_not_le h) digested).le

/-- The parts of a name that is cut. -/
theorem shorten_inj {raw digested raw' digested' : String}
    (h : maxDockerNameLength < raw.toList.length) (h' : maxDockerNameLength < raw'.toList.length)
    (e : shorten H raw digested = shorten H raw' digested') :
    takeText 52 raw = takeText 52 raw' ∧ H.short 10 digested = H.short 10 digested' := by
  have hlt : 52 ≤ maxDockerNameLength := by decide
  have e := congrArg String.toList e
  simp only [shorten, String.toList_append] at e
  have hlen : (takeText 52 raw).toList.length = (takeText 52 raw').toList.length := by
    rw [length_takeText (hlt.trans h.le), length_takeText (hlt.trans h'.le)]
  rw [List.append_assoc, List.append_assoc] at e
  obtain ⟨hcut, e⟩ := List.append_inj e hlen
  exact ⟨String.toList_inj.mp hcut, String.toList_inj.mp (List.append_cancel_left e)⟩

theorem bounded_eq_iff {raw digested raw' digested' : String}
    (hdigest : digested ≠ digested' → H.short 10 digested ≠ H.short 10 digested')
    (hne : raw ≠ raw') :
    bounded H raw digested = bounded H raw' digested' ↔
      Spells H raw raw' digested' ∨ Spells H raw' raw digested ∨
        Merged raw digested raw' digested' := by
  rw [bounded, bounded]
  -- By which of the two names are shortened.
  by_cases h : raw.toList.length ≤ maxDockerNameLength
  · rw [if_pos h]
    by_cases h' : raw'.toList.length ≤ maxDockerNameLength
    · rw [if_pos h']
      constructor
      · exact fun e => absurd e hne
      · rintro (⟨-, hl, -⟩ | ⟨-, hl, -⟩ | ⟨hl, -⟩)
        · exact absurd h' (Nat.not_le.mpr hl)
        · exact absurd h (Nat.not_le.mpr hl)
        · exact absurd h (Nat.not_le.mpr hl)
    · rw [if_neg h']
      constructor
      · exact fun e => .inl ⟨h, Nat.lt_of_not_le h', e⟩
      · rintro (⟨-, -, e⟩ | ⟨hl, -⟩ | ⟨hl, -⟩)
        · exact e
        · exact absurd hl h'
        · exact absurd h (Nat.not_le.mpr hl)
  · rw [if_neg h]
    by_cases h' : raw'.toList.length ≤ maxDockerNameLength
    · rw [if_pos h']
      constructor
      · exact fun e => .inr (.inl ⟨h', Nat.lt_of_not_le h, e.symm⟩)
      · rintro (⟨hl, -⟩ | ⟨-, -, e⟩ | ⟨-, hl, -⟩)
        · exact absurd hl h
        · exact e.symm
        · exact absurd h' (Nat.not_le.mpr hl)
    · rw [if_neg h']
      have hl := Nat.lt_of_not_le h
      have hl' := Nat.lt_of_not_le h'
      constructor
      · intro e
        obtain ⟨hcut, hd⟩ := shorten_inj hl hl' e
        refine .inr (.inr ⟨hl, hl', ?_, hcut⟩)
        by_contra hnd
        exact hdigest hnd hd
      · rintro (⟨hs, -⟩ | ⟨hs, -⟩ | ⟨-, -, hd, hcut⟩)
        · exact absurd hs h
        · exact absurd hs h'
        · rw [shorten, shorten, hd, hcut]

/-- The text that a resource name is made from. -/
def rawName (first : String) : Option String → String
  | some suffix => first ++ "-" ++ suffix
  | none => first

/-- A resource name digests its full text. -/
theorem boundedResourceName_eq (first : String) (suffix : Option String) :
    boundedResourceName H first suffix = bounded H (rawName first suffix) (rawName first suffix) := by
  have hunfold : boundedResourceName H first suffix =
      let raw := rawName first suffix
      if raw.toList.length ≤ maxDockerNameLength then raw
      else
        let digest := H.short 10 raw
        takeEnd maxDockerNameLength
          (takeText (maxDockerNameLength - digest.toList.length - 1) raw ++ "-" ++ digest) := by
    cases suffix with
    | none => rfl
    | some suffix => rfl
  rw [hunfold, bounded]
  dsimp only
  split
  · rfl
  · next h =>
      have hlen := length_shorten (H := H) (Nat.lt_of_not_le h) (rawName first suffix)
      rw [H.length_short (by decide)]
      rw [shorten] at hlen ⊢
      rw [takeEnd, show maxDockerNameLength - 10 - 1 = 52 by decide, hlen, Nat.sub_self,
        List.drop_zero, String.ofList_toList]

end Bounded

/-! ### Networks -/

namespace DockerSwarmAdapter

variable (S : SwarmSettings)

/-- The full name of the network of a namespace. -/
def networkText (ns : String) : String := S.networkName ++ "-" ++ ns

/-- What the name of the network has a digest of: the whole, where the namespace is encoded or
there is no room for a part of it. -/
def networkDigested (ns : String) : String :=
  if startsWith ns namespacePrefix = true ∨ 51 ≤ S.networkName.toList.length then networkText S ns
  else ns

variable {S}

/-- The part of the namespace that is left room for ends where the whole name is cut. -/
theorem takeText_networkText {ns : String} (h : S.networkName.toList.length < 51) :
    takeText 52 (networkText S ns) =
      S.networkName ++ "-" ++ takeText (51 - S.networkName.toList.length) ns := by
  have hcons : (S.networkName ++ "-" ++ ns).toList =
      (S.networkName ++ "-").toList ++ ns.toList := by
    rw [String.toList_append]
  have hlen : (S.networkName ++ "-").toList.length = S.networkName.toList.length + 1 := by
    rw [String.toList_append, List.length_append]; rfl
  rw [networkText, takeText, hcons, List.take_append, List.take_of_length_le (by omega), hlen]
  refine String.toList_inj.mp ?_
  rw [String.toList_ofList, String.toList_append (s := S.networkName ++ "-"), takeText,
    String.toList_ofList]
  congr 2
  omega

theorem networkNameOf_eq (ns : String) :
    networkNameOf S ns = bounded S.host.sha256 (networkText S ns) (networkDigested S ns) := by
  rw [networkNameOf, bounded, networkDigested]
  dsimp only
  by_cases hl : (networkText S ns).toList.length ≤ maxDockerNameLength
  · rw [if_pos hl]
    exact if_pos hl
  · rw [if_neg hl]
    refine (if_neg hl).trans ?_
    have hwhole : boundedResourceName S.host.sha256 (networkText S ns) =
        shorten S.host.sha256 (networkText S ns) (networkText S ns) := by
      rw [boundedResourceName_eq, rawName, bounded, if_neg hl]
    by_cases hp : startsWith ns namespacePrefix = true
    · rw [if_pos hp, if_pos (.inl hp)]
      exact hwhole
    · rw [if_neg hp, S.host.sha256.length_short (by decide)]
      have hbound : ((maxDockerNameLength : Nat) : Int) = 63 := rfl
      by_cases hb : 51 ≤ S.networkName.toList.length
      · rw [if_neg (by rw [hbound]; omega), if_pos (.inr hb)]
        exact hwhole
      · rw [if_pos (by rw [hbound]; omega), if_neg (not_or.mpr ⟨hp, hb⟩), shorten,
          takeText_networkText (Nat.lt_of_not_le hb)]
        congr 4
        rw [hbound]
        omega

theorem networkText_injective {ns ns' : String} (h : networkText S ns = networkText S ns') :
    ns = ns' := by
  have h := congrArg String.toList h
  simp only [networkText, String.toList_append] at h
  exact String.toList_inj.mp (List.append_cancel_left h)

theorem namespaceOf_ok {appid ns : String} (h : namespaceOf appid = .ok ns) :
    Appid appid ∧ ns = namespaceText appid := by
  rw [namespaceOf] at h
  split at h
  · next ns' he =>
      cases h
      exact externalNamespace_iff.mp he
  · cases h

/-- The networks of two applications have different names but in three cases, where the digests of
different texts differ: the full name of one, short enough to be kept, spells the cut name of the
other, or both are cut and agree in what is kept and in what is digested. -/
theorem network_names_apart (S : SwarmSettings) {x y ns ns' : String} (hne : x ≠ y)
    (hx : namespaceOf x = .ok ns) (hy : namespaceOf y = .ok ns')
    (hdigest : networkDigested S ns ≠ networkDigested S ns' →
      S.host.sha256.short 10 (networkDigested S ns) ≠
        S.host.sha256.short 10 (networkDigested S ns')) :
    (networkNameOf S ns ≠ networkNameOf S ns' ↔
      ¬ Spells S.host.sha256 (networkText S ns) (networkText S ns') (networkDigested S ns') ∧
      ¬ Spells S.host.sha256 (networkText S ns') (networkText S ns) (networkDigested S ns) ∧
      ¬ Merged (networkText S ns) (networkDigested S ns) (networkText S ns')
        (networkDigested S ns')) ∧
    (networkNameOf S ns).toList.length ≤ 63 ∧ (networkNameOf S ns').toList.length ≤ 63 := by
  obtain ⟨ax, rfl⟩ := namespaceOf_ok hx
  obtain ⟨ay, rfl⟩ := namespaceOf_ok hy
  have hraw : networkText S (namespaceText x) ≠ networkText S (namespaceText y) := fun e =>
    hne (namespaceText_injective ax ay (networkText_injective e))
  rw [networkNameOf_eq, networkNameOf_eq]
  refine ⟨?_, length_bounded _ _, length_bounded _ _⟩
  rw [ne_eq, bounded_eq_iff hdigest hraw, not_or, not_or]

/-- The adapter as it is set up, with the real digest. -/
def digesting : SwarmSettings :=
  { Sample.swarm with host := { Sample.hostSettings with sha256 := Hashing.sha256 } }

/-- The identifier of 64 letters, and the one that spells its network. -/
def longAppid : String := "aaaaaaaaaaaaaaaaaaaaaaaaaaaaaaaaaaaaaaaaaaaaaaaaaaaaaaaaaaaaaaaa"

def spellingAppid : String := "aaaaaaaaaaaaaaaaaaaaaaaaaaaaaaaaaaaaaaa-ffe054fe7a"

theorem network_names_collide :
    ¬ ∀ (S : SwarmSettings) (x y ns ns' : String), x ≠ y → namespaceOf x = .ok ns →
      namespaceOf y = .ok ns' →
      (∀ s ∈ [networkText S ns, ns], ∀ t ∈ [networkText S ns', ns'], s ≠ t →
        S.host.sha256.short 10 s ≠ S.host.sha256.short 10 t) →
      networkNameOf S ns ≠ networkNameOf S ns' := by
  intro h
  refine h digesting longAppid spellingAppid longAppid spellingAppid (by decide +kernel)
    (by decide +kernel) (by decide +kernel) ?_ (by decide +kernel)
  decide +kernel

theorem network_names_apart_short :
    networkNameOf digesting "demo" ≠ networkNameOf digesting longAppid := by
  refine (network_names_apart digesting (x := "demo") (y := longAppid) (by decide +kernel)
    (by decide +kernel) (by decide +kernel) (by decide +kernel)).1.mpr ⟨?_, ?_, ?_⟩
  · unfold Spells; decide +kernel
  · unfold Spells; decide +kernel
  · unfold Merged; decide +kernel

end DockerSwarmAdapter

end Orchestrator
