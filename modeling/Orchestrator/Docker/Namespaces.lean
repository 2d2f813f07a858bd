import Orchestrator.Docker.Repositories

/-!
# Docker — namespaces

`external_namespace`, which is to keep applications apart where Docker knows no upper case.

* `hexEncode_injective`: the encoding loses nothing of an identifier.
* `isDockerRepositoryComponent_encoded`: what it makes is a component.
* `external_namespace_injective`: two applications never share a namespace, and every namespace
  is a component of an image repository.
-/

namespace Orchestrator

/-! ### Identifiers -/

/-- What `validate_appid` lets through. -/
structure Appid (value : String) : Prop where
  nonempty : value.toList ≠ []
  bounded : value.toList.length ≤ 64
  form : isAppid value = true

/-- What is accepted is an identifier, and comes back as it was. -/
theorem validateAppid_iff {value : String} : validateAppid value = .ok value ↔ Appid value := by
  rw [validateAppid]
  by_cases hl : value.toList.length = 0 ∨ 64 < value.toList.length
  · rw [if_pos hl]
    constructor
    · intro h; cases h
    · rintro ⟨h₁, h₂, -⟩
      rcases hl with e | e
      · exact absurd (List.length_eq_zero_iff.mp e) h₁
      · exact absurd e (Nat.not_lt.mpr h₂)
  · rw [if_neg hl]
    obtain ⟨h₁, h₂⟩ := not_or.mp hl
    by_cases hf : isAppid value = false
    · rw [if_pos hf]
      constructor
      · intro h; cases h
      · intro h; rw [h.form] at hf; cases hf
    · rw [if_neg hf]
      exact ⟨fun _ => ⟨fun e => h₁ (by rw [e]; rfl), Nat.not_lt.mp h₂, by simpa using hf⟩,
        fun _ => rfl⟩

theorem validateAppid_ok {value value' : String} (h : validateAppid value = .ok value') :
    value' = value ∧ Appid value := by
  have : value' = value := by
    rw [validateAppid] at h
    repeat' split at h
    all_goals first | (cases h; done) | (cases h; rfl)
  subst this
  exact ⟨rfl, validateAppid_iff.mp h⟩

/-- Letters, digits, underscores and hyphens. -/
theorem Appid.char {value : String} (h : Appid value) :
    ∀ c ∈ value.toList, isAlnum c = true ∨ c = '_' ∨ c = '-' := by
  have hf := h.form
  unfold isAppid at hf
  intro c hc
  split at hf
  · cases hf
  · next d ds hd =>
      rw [hd] at hc
      rw [Bool.and_eq_true, List.all_eq_true] at hf
      rcases List.mem_cons.mp hc with rfl | hc
      · exact .inl hf.1
      · have := hf.2 c hc
        simp only [Bool.or_eq_true, beq_iff_eq] at this
        tauto

/-- An identifier is ASCII, so each character has two digits. -/
theorem Appid.ascii {value : String} (h : Appid value) : ∀ c ∈ value.toList, c.toNat < 128 := by
  intro c hc
  have hle : ∀ d : Char, c ≤ d → d.toNat < 128 → c.toNat < 128 := fun d h h' =>
    Nat.lt_of_le_of_lt (UInt32.le_iff_toNat_le.mp h) h'
  have := h.char c hc
  simp only [isAlnum, isLowerAlnum, Bool.or_eq_true, Bool.and_eq_true, decide_eq_true_eq] at this
  rcases this with ((⟨-, h⟩ | ⟨-, h⟩) | ⟨-, h⟩) | rfl | rfl
  all_goals first | decide | exact hle _ h (by decide)

/-! ### The encoding -/

theorem hexDigit_inj {m n : Nat} (hm : m < 16) (hn : n < 16) (h : hexDigit m = hexDigit n) :
    m = n := by
  have table : ∀ m, m < 16 → ∀ n, n < 16 → hexDigit m = hexDigit n → m = n := by decide
  exact table m hm n hn h

theorem isLowerAlnum_hexDigit {n : Nat} (hn : n < 16) : isLowerAlnum (hexDigit n) = true := by
  have table : ∀ n, n < 16 → isLowerAlnum (hexDigit n) = true := by decide
  exact table n hn

/-- The digits of one character. -/
def digitsOf (c : Char) : List Char := [hexDigit (c.toNat / 16), hexDigit (c.toNat % 16)]

theorem digitsOf_inj {c d : Char} (hc : c.toNat < 128) (hd : d.toNat < 128)
    (h : digitsOf c = digitsOf d) : c = d := by
  simp only [digitsOf, List.cons.injEq, and_true] at h
  have h₁ := hexDigit_inj (by omega) (by omega) h.1
  have h₂ := hexDigit_inj (by omega) (by omega) h.2
  rw [← Char.ofNat_toNat c, ← Char.ofNat_toNat d]
  congr 1
  omega

/-- The digits of a text tell it. -/
theorem flatMap_digitsOf_inj {cs : List Char} : ∀ {ds : List Char},
    (∀ c ∈ cs, c.toNat < 128) → (∀ d ∈ ds, d.toNat < 128) →
    cs.flatMap digitsOf = ds.flatMap digitsOf → cs = ds := by
  induction cs with
  | nil =>
      intro ds _ _ h
      cases ds with
      | nil => rfl
      | cons d ds => cases h
  | cons c cs ih =>
      intro ds hcs hds h
      cases ds with
      | nil => cases h
      | cons d ds =>
          rw [List.flatMap_cons, List.flatMap_cons] at h
          obtain ⟨hc, h⟩ := List.append_inj h rfl
          rw [digitsOf_inj (hcs c List.mem_cons_self) (hds d List.mem_cons_self) hc,
            ih (fun x hx => hcs x (List.mem_cons_of_mem _ hx))
              (fun x hx => hds x (List.mem_cons_of_mem _ hx)) h]

theorem toList_hexEncode (value : String) :
    (hexEncode value).toList = value.toList.flatMap digitsOf := by
  rw [hexEncode, String.toList_ofList]
  rfl

theorem hexEncode_injective {x y : String} (hx : Appid x) (hy : Appid y)
    (h : hexEncode x = hexEncode y) : x = y := by
  have h := congrArg String.toList h
  rw [toList_hexEncode, toList_hexEncode] at h
  exact String.toList_inj.mp (flatMap_digitsOf_inj hx.ascii hy.ascii h)

theorem length_flatMap_digitsOf (cs : List Char) : (cs.flatMap digitsOf).length = 2 * cs.length := by
  induction cs with
  | nil => rfl
  | cons c cs ih =>
      rw [List.flatMap_cons, List.length_append, ih, List.length_cons, digitsOf]
      simp only [List.length_cons, List.length_nil]
      omega

theorem length_hexEncode (value : String) :
    (hexEncode value).toList.length = 2 * value.toList.length := by
  rw [toList_hexEncode, length_flatMap_digitsOf]

/-! ### Namespaces -/

/-- The namespace of an identifier. -/
def namespaceText (appid : String) : String :=
  if startsWith appid namespacePrefix = false ∧ isDockerRepositoryComponent appid = true then appid
  else namespacePrefix ++ hexEncode appid

/-- An identifier has one namespace, and nothing else has any. -/
theorem externalNamespace_iff {appid ns : String} :
    externalNamespace appid = .ok ns ↔ Appid appid ∧ ns = namespaceText appid := by
  constructor
  · intro h
    rw [externalNamespace] at h
    obtain ⟨raw, hraw, h'⟩ := bind_ok h
    obtain ⟨rfl, happid⟩ := validateAppid_ok hraw
    refine ⟨happid, ?_⟩
    rw [namespaceText]
    split at h'
    · next hk => rw [if_pos hk]; exact (Except.ok.inj h').symm
    · next hk => rw [if_neg hk]; exact (Except.ok.inj h').symm
  · rintro ⟨happid, rfl⟩
    simp only [externalNamespace, validateAppid_iff.mpr happid, bind, Except.bind, namespaceText]
    split
    · rfl
    · rfl

/-- An encoded identifier is told by how it begins. -/
theorem startsWith_encoded (appid : String) :
    startsWith (namespacePrefix ++ hexEncode appid) namespacePrefix = true :=
  startsWith_iff.mpr ⟨(hexEncode appid).toList, by rw [String.toList_append]⟩

/-- No identifier is called as another one is encoded. -/
theorem namespaceText_injective {x y : String} (hx : Appid x) (hy : Appid y)
    (h : namespaceText x = namespaceText y) : x = y := by
  rw [namespaceText, namespaceText] at h
  split at h
  · next kx =>
      split at h
      · exact h
      · -- A kept identifier does not start with the prefix.
        rw [h, startsWith_encoded] at kx
        exact absurd kx.1 (by decide)
  · split at h
    · next ky =>
        rw [← h, startsWith_encoded] at ky
        exact absurd ky.1 (by decide)
    · refine hexEncode_injective hx hy (String.toList_inj.mp ?_)
      have h := congrArg String.toList h
      rw [String.toList_append, String.toList_append] at h
      exact List.append_cancel_left h

/-- In a word, letters and digits go on with it. -/
theorem foldlM_next_word {cs : List Char} : ∀ {s : ComponentState}, cs ≠ [] →
    (∀ c ∈ cs, isLowerAlnum c = true) → cs.foldlM ComponentState.next s = some .word := by
  induction cs with
  | nil => intro s h; exact absurd rfl h
  | cons c cs ih =>
      intro s _ h
      have hc : s.next c = some .word := by
        unfold ComponentState.next
        exact if_pos (h c List.mem_cons_self)
      rw [List.foldlM_cons, hc]
      by_cases hcs : cs = []
      · rw [hcs]; rfl
      · exact ih hcs fun x hx => h x (List.mem_cons_of_mem _ hx)

theorem isDockerRepositoryComponent_encoded {appid : String} (h : Appid appid) :
    isDockerRepositoryComponent (namespacePrefix ++ hexEncode appid) = true := by
  have hprefix : namespacePrefix.toList.foldlM ComponentState.next .start = some .dashes := by
    decide
  have hdigits : ∀ c ∈ (hexEncode appid).toList, isLowerAlnum c = true := by
    intro c hc
    rw [toList_hexEncode, List.mem_flatMap] at hc
    obtain ⟨d, hd, hc⟩ := hc
    have := h.ascii d hd
    rw [digitsOf, List.mem_cons, List.mem_singleton] at hc
    rcases hc with rfl | rfl
    · exact isLowerAlnum_hexDigit (by omega)
    · exact isLowerAlnum_hexDigit (by omega)
  have hne : (hexEncode appid).toList ≠ [] := by
    intro e
    have := congrArg List.length e
    rw [length_hexEncode, List.length_nil] at this
    exact h.nonempty (List.length_eq_zero_iff.mp (by omega))
  rw [isDockerRepositoryComponent, String.toList_append, List.foldlM_append, hprefix]
  exact beq_iff_eq.mpr (foldlM_next_word hne hdigits)

theorem isDockerRepositoryComponent_namespaceText {appid : String} (h : Appid appid) :
    isDockerRepositoryComponent (namespaceText appid) = true := by
  rw [namespaceText]
  split
  · next hk => exact hk.2
  · exact isDockerRepositoryComponent_encoded h

/-- A namespace has at most 137 characters. -/
theorem length_namespaceText {appid : String} (h : Appid appid) :
    (namespaceText appid).toList.length ≤ 137 := by
  have := h.bounded
  rw [namespaceText]
  split
  · omega
  · rw [String.toList_append, List.length_append, length_hexEncode]
    have : namespacePrefix.toList.length = 9 := by decide
    omega

/-! ### In a repository -/

theorem isComponentChar_slash {c : Char} (h : isComponentChar c = true) : c ≠ '/' := by
  rintro rfl
  revert h
  decide

/-- What is joined by a character that is not in it splits as it was. -/
theorem split_join {c : Char} {parts : List String} (hne : parts ≠ [])
    (h : ∀ part ∈ parts, c ∉ part.toList) : split c (join c parts) = parts := by
  rw [split, join, String.toList_ofList, List.splitOn_intercalate]
  · rw [List.map_map]
    have : String.ofList ∘ String.toList = id := by
      funext s
      exact String.ofList_toList
    rw [this, List.map_id]
  · intro l hl
    obtain ⟨part, hp, rfl⟩ := List.mem_map.mp hl
    exact h part hp
  · simpa using hne

/-- Components make a path. -/
theorem isRepositoryPath_join {parts : List String} (hne : parts ≠ [])
    (h : ∀ part ∈ parts, isDockerRepositoryComponent part = true) :
    isRepositoryPath (join '/' parts) = true := by
  rw [isRepositoryPath, split_join hne, List.all_eq_true]
  · exact h
  · intro part hp hm
    exact isComponentChar_slash (isDockerRepositoryComponent_char (h part hp) _ hm) rfl

/-- A host has no slash. -/
theorem Registry.slash {host : String} (h : Registry host) : '/' ∉ host.toList := by
  intro hm
  have := isRegistry_char h.form _ hm
  revert this
  decide

/-- A host and a path make a repository. -/
theorem validateImageRepository_join {host : String} {parts : List String}
    (hhost : Registry host) (hne : parts ≠ [])
    (h : ∀ part ∈ parts, isDockerRepositoryComponent part = true)
    (hlen : (join '/' parts).toList.length ≤ 255) :
    validateImageRepository (host ++ "/" ++ join '/' parts) =
      .ok (host ++ "/" ++ join '/' parts) :=
  validateImageRepository_iff.mpr ⟨host, join '/' parts,
    splitOnce_of_cut (by simp) hhost.slash, hhost, isRepositoryPath_join hne h, hlen⟩

/-- No two applications share a namespace; and the namespace of each is a component that an image
repository takes as it is, after any registry host and between any other components. -/
theorem external_namespace_injective :
    (∀ x y, validateAppid x = .ok x → validateAppid y = .ok y → x ≠ y →
      externalNamespace x ≠ externalNamespace y) ∧
    ∀ x, validateAppid x = .ok x → ∃ ns, externalNamespace x = .ok ns ∧
      isDockerRepositoryComponent ns = true ∧
      ∀ host, validateRegistryHost host = .ok host →
        validateImageRepository (host ++ "/" ++ ns) = .ok (host ++ "/" ++ ns) ∧
        ∀ before after : List String,
          (∀ part ∈ before ++ after, isDockerRepositoryComponent part = true) →
          (join '/' (before ++ ns :: after)).toList.length ≤ 255 →
          validateImageRepository (host ++ "/" ++ join '/' (before ++ ns :: after)) =
            .ok (host ++ "/" ++ join '/' (before ++ ns :: after)) := by
  constructor
  · intro x y hx hy hne he
    have hx := validateAppid_iff.mp hx
    have hy := validateAppid_iff.mp hy
    rw [externalNamespace_iff.mpr ⟨hx, rfl⟩, externalNamespace_iff.mpr ⟨hy, rfl⟩] at he
    exact hne (namespaceText_injective hx hy (Except.ok.inj he))
  · intro x hx
    have hx := validateAppid_iff.mp hx
    have hns := isDockerRepositoryComponent_namespaceText hx
    refine ⟨namespaceText x, externalNamespace_iff.mpr ⟨hx, rfl⟩, hns, fun host hhost => ?_⟩
    have hhost := validateRegistryHost_iff.mp hhost
    constructor
    · have hone : join '/' [namespaceText x] = namespaceText x := by
        simp [join, List.intercalate]
      have := @validateImageRepository_join _ [namespaceText x] hhost (by simp)
        (by simpa using hns) (by rw [hone]; exact (length_namespaceText hx).trans (by decide))
      rwa [hone] at this
    · intro before after hparts hlen
      refine validateImageRepository_join hhost (by simp) (fun part hp => ?_) hlen
      rcases List.mem_append.mp hp with hp | hp
      · exact hparts part (List.mem_append_left _ hp)
      · rcases List.mem_cons.mp hp with rfl | hp
        · exact hns
        · exact hparts part (List.mem_append_right _ hp)

theorem external_namespace_foo :
    externalNamespace "Foo" ≠ externalNamespace "appid-v1-466f6f" ∧
    ∃ ns, externalNamespace "Foo" = .ok ns ∧ isDockerRepositoryComponent ns = true ∧
      validateImageRepository ("[::1]:5000" ++ "/" ++ join '/' ["apps", ns]) =
        .ok ("[::1]:5000" ++ "/" ++ join '/' ["apps", ns]) := by
  obtain ⟨hapart, hcomponent⟩ := external_namespace_injective
  obtain ⟨ns, hns, hc, hrepo⟩ := hcomponent "Foo" (by decide)
  have hfoo : externalNamespace "Foo" = .ok "appid-v1-466f6f" := by decide
  obtain rfl := Except.ok.inj (hns.symm.trans hfoo)
  refine ⟨hapart _ _ (by decide) (by decide) (by decide), _, hns, hc, ?_⟩
  exact (hrepo "[::1]:5000" (by decide)).2 ["apps"] [] (by decide)
    (by decide)

end Orchestrator
