import Orchestrator.Diagnostics.Redaction

/-!
# Diagnostics — lines

A diagnosis reads the lines of the console twice, redacted and not, and pairs them by number.

* `mem_allVariants`: only a value itself can hold a newline, not what it is escaped to.
* `count_redactVariant`: a long value is replaced with its newlines, a short one without.
* `Aligned`: no match of a short value, and no credential, holds a newline.
* `newlines_aligned`: the redaction keeps the number of newlines in just this case.
* `OverLine`, `aligned_of_input`: what of the values and the text is enough.
-/

namespace Orchestrator.JenkinsDiagnostics
open Pattern RouteProbes

/-! ### Values and their forms -/

/-- A character in neither the list nor its place. -/
theorem getD_ne {l : List Char} {d x : Char} (hl : x ∉ l) (hd : d ≠ x) (n : Nat) :
    l.getD n d ≠ x := by
  rw [List.getD_eq_getElem?_getD]
  cases h : l[n]? with
  | none => exact hd
  | some c => exact fun he => hl (he ▸ List.mem_of_getElem? h)

theorem hexChar_ne (n : Nat) : hexChar n ≠ '\n' := getD_ne (by decide) (by decide) n

theorem hexChar_toUpper_ne (n : Nat) : (hexChar n).toUpper ≠ '\n' := by
  by_cases hn : n < 16
  · revert n
    decide
  · rw [hexChar, List.getD_eq_getElem?_getD, List.getElem?_eq_none (Nat.le_of_not_lt hn)]
    decide

/-- `quote` makes no newlines. -/
theorem newline_quoteByte (n : Nat) : '\n' ∉ quoteByte n := by
  unfold quoteByte
  dsimp only
  split
  · next h =>
      intro hm
      rw [← List.mem_singleton.mp hm] at h
      exact absurd h (by decide)
  · simp [Ne.symm (hexChar_toUpper_ne _)]

/-- Nor does `json.dumps`, with its escapes. -/
theorem newline_escapeChar (c : Char) : '\n' ∉ escapeChar c := by
  unfold escapeChar
  split
  · decide
  · split
    · decide
    · split
      · decide
      · next hc =>
          split
          · decide
          · split
            · decide
            · split
              · decide
              · split
                · decide
                · split
                  · simp [Ne.symm (hexChar_ne _)]
                  · simpa using Ne.symm hc

theorem newline_escapeAscii (c : Char) : '\n' ∉ escapeAscii c := by
  have hunit : ∀ n, '\n' ∉ escapeUnit n := fun n => by
    simp [escapeUnit, Ne.symm (hexChar_ne _)]
  unfold escapeAscii
  split
  · exact newline_escapeChar c
  · split
    · exact hunit _
    · exact List.not_mem_append (hunit _) (hunit _)

theorem newline_letter (n : Nat) : Base64.letter n ≠ '\n' :=
  getD_ne (by decide) (by decide) n

/-- Nor does Base64. -/
theorem newline_encode (bytes : List UInt8) : '\n' ∉ Base64.encode bytes := by
  fun_induction Base64.encode bytes with
  | case1 => exact List.not_mem_nil
  | case2 a => simp [Ne.symm (newline_letter _)]
  | case3 a b => simp [Ne.symm (newline_letter _)]
  | case4 a b c rest ih => simp [Ne.symm (newline_letter _), ih]

/-- A form with a newline is the value itself. -/
theorem mem_variants {value form : String} (h : form ∈ variants value)
    (hn : '\n' ∈ form.toList) : form = value := by
  have hflat : ∀ {l : List Char} {f : Char → List Char}, (∀ c, '\n' ∉ f c) →
      '\n' ∉ (String.ofList (l.flatMap f)).toList := by
    intro l f hf hm
    rw [String.toList_ofList] at hm
    obtain ⟨c, -, hc⟩ := List.mem_flatMap.mp hm
    exact hf c hc
  rcases List.mem_cons.mp h with h | h
  · exact h
  · rcases List.mem_cons.mp h with rfl | h
    · rw [String.toList_ofList] at hn
      obtain ⟨b, -, hb⟩ := List.mem_flatMap.mp hn
      exact absurd hb (newline_quoteByte _)
    · rcases List.mem_cons.mp h with rfl | h
      · rw [String.toList_ofList] at hn
        exact absurd hn (newline_encode _)
      · rcases List.mem_cons.mp h with rfl | h
        · exact absurd hn (hflat newline_escapeAscii)
        · rw [List.mem_singleton.mp h] at hn
          exact absurd hn (hflat newline_escapeChar)

/-- A form with a newline is one of the values, and no form is empty. -/
theorem mem_allVariants {values : List String} {form : String} (h : form ∈ allVariants values)
    (hn : '\n' ∈ form.toList) : form ∈ values := by
  obtain ⟨value, hvalue, hform⟩ := List.mem_flatMap.mp h
  exact mem_variants hform hn ▸ List.mem_of_mem_filter hvalue

/-! ### What one substitution does -/

theorem count_filter_noise (text : List Char) :
    (text.filter (!isNoise ·)).count '\n' = text.count '\n' :=
  List.count_filter (by decide)

/-- The mark of a text has its newlines. -/
theorem count_starsFor (text : List Char) : (starsFor text).count '\n' = text.count '\n' := by
  rw [starsFor, List.count_append, List.count_replicate_self]
  exact Nat.zero_add _

variable {word : Char → Bool} {A : Arrangement} {values : List String}

/-- A match of a short value is the value. -/
theorem short_taken {value : String} {text : List Char} {m : Position}
    (h : m ∈ matchesOf (short word value) text) : m.taken = value.toList := by
  obtain ⟨last, rest, hm⟩ := matchesOf_run h
  rw [short, Pattern.run, List.mem_flatMap] at hm
  obtain ⟨s₁, h₁, hm⟩ := hm
  rw [Pattern.run, List.mem_flatMap] at hm
  obtain ⟨s₂, h₂, hm⟩ := hm
  obtain ⟨w, hw, hfold⟩ := run_literal h₂
  rw [List.map_id] at hfold
  rw [((takes_stay_not h₁).trans (hw.trans (takes_stay_not hm))).taken, hfold]
  simp

/-- The text holds this value where it is too short to be replaced with its newlines. -/
def Breaks (word : Char → Bool) (text : List Char) (value : String) : Prop :=
  value.length < 4 ∧ '\n' ∈ value.toList ∧ matchesOf (short word value) text ≠ []

/-- One form is replaced with its newlines, unless it breaks them. -/
theorem count_redactVariant (word : Char → Bool) (text : List Char) (value : String) :
    (redactVariant word text value).count '\n' ≤ text.count '\n' ∧
      ((redactVariant word text value).count '\n' = text.count '\n' ↔
        ¬ Breaks word text value) := by
  unfold redactVariant
  by_cases hlong : 4 ≤ value.length
  · have hvalue : value.toList ≠ [] := by
      intro he
      rw [← String.length_toList, he] at hlong
      exact absurd hlong (by decide)
    rw [if_pos hlong, Replace.count_replace hvalue (count_starsFor _)]
    refine ⟨Nat.le_refl _, fun _ hb => ?_, fun _ => rfl⟩
    exact absurd hlong (Nat.not_le.mpr hb.1)
  · rw [if_neg hlong]
    have hstars : stars.count '\n' = 0 := by decide
    obtain ⟨hle, hiff⟩ := @count_sub '\n' (short word value) (fun _ => stars) text fun m _ => by
      rw [hstars]
      exact Nat.zero_le _
    refine ⟨hle, hiff.trans ⟨fun hall hb => ?_, fun hno m hm => ?_⟩⟩
    · obtain ⟨m, hm⟩ := List.exists_mem_of_ne_nil _ hb.2.2
      have hcount := hall m hm
      rw [short_taken hm, hstars] at hcount
      exact List.count_eq_zero.mp hcount.symm hb.2.1
    · rw [short_taken hm, hstars]
      refine (List.count_eq_zero.mpr fun hn => hno ⟨Nat.lt_of_not_le hlong, hn, ?_⟩).symm
      exact List.ne_nil_of_mem hm

/-- All forms are, each in the text that the others have left. -/
theorem count_redactVariants (word : Char → Bool) (forms : List String) (text : List Char) :
    (redactVariants word forms text).count '\n' ≤ text.count '\n' ∧
      ((redactVariants word forms text).count '\n' = text.count '\n' ↔
        ∀ before value after, forms = before ++ value :: after →
          ¬ Breaks word (redactVariants word before text) value) := by
  induction forms generalizing text with
  | nil => exact ⟨Nat.le_refl _, fun _ before value after h => by simp at h, fun _ => rfl⟩
  | cons form forms ih =>
      obtain ⟨hle, hiff⟩ := count_redactVariant word text form
      obtain ⟨hle', hiff'⟩ := ih (redactVariant word text form)
      have hcons : redactVariants word (form :: forms) text =
          redactVariants word forms (redactVariant word text form) := rfl
      rw [hcons]
      refine ⟨hle'.trans hle, fun he before value after h => ?_, fun hall => ?_⟩
      · cases before with
        | nil =>
            obtain ⟨rfl, rfl⟩ := List.cons.inj h
            exact hiff.mp (by omega)
        | cons b before =>
            obtain ⟨rfl, hforms⟩ := List.cons.inj h
            exact hiff'.mp (by omega) before value after hforms
      · rw [hiff'.mpr fun before value after h => hall (form :: before) value after (by rw [h]; rfl)]
        exact hiff.mpr (hall [] form forms rfl)

/-- A key is replaced with its newlines. -/
theorem count_privateKey (text : List Char) :
    (sub privateKey (fun m => starsFor m.taken) text).count '\n' = text.count '\n' :=
  (count_sub '\n' fun m _ => Nat.le_of_eq (count_starsFor m.taken)).2.mpr
    fun m _ => count_starsFor m.taken

/-- There is no newline in a user. -/
theorem count_userInfo (text : List Char) :
    (sub userInfo (fun m => m.group 1 ++ stars ++ ['@']) text).count '\n' = text.count '\n' := by
  have hmatch : ∀ m ∈ matchesOf userInfo text,
      (m.group 1 ++ stars ++ ['@']).count '\n' = m.taken.count '\n' := by
    intro m hm
    obtain ⟨w, htaken, hgroup, hw⟩ := matchesOf_group '\n' run_notBehind (by decide) hm
    rw [htaken, List.count_append, List.count_append, List.count_append,
      List.count_eq_zero.mpr (hgroup (by decide)), List.count_eq_zero.mpr (hw (by decide))]
    decide
  exact (count_sub '\n' fun m hm => Nat.le_of_eq (hmatch m hm)).2.mpr hmatch

/-- Nor in a query. -/
theorem count_query (text : List Char) :
    (sub query (fun m => m.group 1 ++ '?' :: stars) text).count '\n' = text.count '\n' := by
  have hmatch : ∀ m ∈ matchesOf query text,
      (m.group 1 ++ '?' :: stars).count '\n' = m.taken.count '\n' := by
    intro m hm
    obtain ⟨last, rest, hrun⟩ := matchesOf_run hm
    obtain ⟨w, htaken, hgroup, hw⟩ := run_group_seq '\n' (by decide) rfl hrun
    rw [htaken, List.count_append, List.count_append,
      List.count_eq_zero.mpr (hgroup (by decide)), List.count_eq_zero.mpr (hw (by decide))]
    decide
  exact (count_sub '\n' fun m hm => Nat.le_of_eq (hmatch m hm)).2.mpr hmatch

/-- Nor in a secret after its name. -/
theorem count_assignment (text : List Char) :
    (sub (assignment word) (fun m => m.group 1 ++ stars) text).count '\n' = text.count '\n' := by
  have hmatch : ∀ m ∈ matchesOf (assignment word) text,
      (m.group 1 ++ stars).count '\n' = m.taken.count '\n' := by
    intro m hm
    obtain ⟨w, htaken, -, hw⟩ := matchesOf_group '\n' run_notBehind (by decide) hm
    rw [htaken, List.count_append, List.count_append, List.count_eq_zero.mpr (hw (by decide))]
    rfl
  exact (count_sub '\n' fun m hm => Nat.le_of_eq (hmatch m hm)).2.mpr hmatch

/-- A credential loses the newlines before it. -/
theorem count_credential (word : Char → Bool) (text : List Char) :
    (sub (credential word) (fun m => m.group 1 ++ ' ' :: stars) text).count '\n' ≤
        text.count '\n' ∧
      ((sub (credential word) (fun m => m.group 1 ++ ' ' :: stars) text).count '\n' =
          text.count '\n' ↔ ∀ m ∈ matchesOf (credential word) text, '\n' ∉ m.taken) := by
  have hzero : ∀ m ∈ matchesOf (credential word) text,
      (m.group 1 ++ ' ' :: stars).count '\n' = 0 := by
    intro m hm
    obtain ⟨w, -, hgroup, -⟩ := matchesOf_group '\n' run_boundary (by decide) hm
    rw [List.count_append, List.count_eq_zero.mpr (hgroup (by decide))]
    decide
  obtain ⟨hle, hiff⟩ := @count_sub '\n' (credential word)
    (fun m => m.group 1 ++ ' ' :: stars) text fun m hm => by
      rw [hzero m hm]
      exact Nat.zero_le _
  refine ⟨hle, hiff.trans ⟨fun hall m hm => ?_, fun hall m hm => ?_⟩⟩
  · exact List.count_eq_zero.mp ((hall m hm).symm.trans (hzero m hm))
  · rw [hzero m hm, List.count_eq_zero.mpr (hall m hm)]

/-! ### The whole redaction -/

/-- No sensitive value is too short for its newlines, where its turn comes, and no credential goes
on over a newline. -/
structure Aligned (word : Char → Bool) (A : Arrangement) (values : List String)
    (text : List Char) : Prop where
  shortValues : ∀ before value after, A.arrange (allVariants values) = before ++ value :: after →
    value ∈ values → ¬ Breaks word (redactVariants word before (withoutNoise text)) value
  credentials : ∀ m ∈ matchesOf (credential word) (beforeCredentials word A values text),
    '\n' ∉ m.taken

/-- The redacted text has the newlines of the text without its noise, if it is aligned, and not
otherwise. -/
theorem newlines_aligned (word : Char → Bool) (A : Arrangement) (values : List String)
    (text : List Char) :
    (redactConsole word A values text).count '\n' = (stripConsoleNoise text).count '\n' ↔
      Aligned word A values text := by
  obtain ⟨hle, hiff⟩ := count_redactVariants word (A.arrange (allVariants values))
    (withoutNoise text)
  obtain ⟨hle', hiff'⟩ := count_credential word (beforeCredentials word A values text)
  have hbefore : (beforeCredentials word A values text).count '\n' =
      (redactVariants word (A.arrange (allVariants values)) (withoutNoise text)).count '\n' := by
    rw [beforeCredentials, count_query, count_userInfo, count_privateKey]
  rw [redactConsole, stripConsoleNoise, count_filter_noise, count_filter_noise, count_assignment]
  constructor
  · intro he
    have hall : (beforeCredentials word A values text).count '\n' =
        (withoutNoise text).count '\n' :=
      Nat.le_antisymm ((Nat.le_of_eq hbefore).trans hle) ((Nat.le_of_eq he.symm).trans hle')
    refine ⟨fun before value after h _ => ?_, hiff'.mp (he.trans hall.symm)⟩
    exact hiff.mp (hbefore.symm.trans hall) before value after h
  · intro h
    rw [hiff'.mpr h.credentials, hbefore]
    refine hiff.mpr fun before value after he hb => ?_
    refine h.shortValues before value after he ?_ hb
    have hform : value ∈ A.arrange (allVariants values) := by
      rw [he]
      exact List.mem_append_right _ List.mem_cons_self
    exact mem_allVariants ((A.mem_arrange _ _).mp hform) hb.2.1

/-- White space before a credential may hold a newline. -/
theorem newlines_lost : ¬ ∀ (word : Char → Bool) (A : Arrangement) (values : List String)
    (text : List Char),
    (redactConsole word A values text).count '\n' = (stripConsoleNoise text).count '\n' := by
  intro h
  have hbasic := h (fun c => c.isAlphanum || c == '_') .stable [] "Basic\ncheckout".toList
  revert hbasic
  decide

/-! ### Values and texts that are aligned -/

/-- A word that no mark can be part of: the marks do not hold its first character, nor it theirs. -/
structure Unmarked (a : Char) (s : List Char) : Prop where
  first : a ∉ "*\n@?".toList
  star : '*' ∉ a :: s
  question : '?' ∉ a :: s

/-- A mark is of stars and newlines. -/
theorem mem_starsFor {a : Char} {text : List Char} (h : a ∈ starsFor text) : a = '*' ∨ a = '\n' := by
  rcases List.mem_append.mp h with h | h
  · have hstars : stars = List.replicate 3 '*' := by decide
    exact .inl (List.eq_of_mem_replicate (hstars ▸ h))
  · exact .inr (List.eq_of_mem_replicate h)

section
variable {a : Char} {s : List Char} (h : Unmarked a s)
include h

theorem Unmarked.ne_star : a ≠ '*' := fun he => h.star (he ▸ List.mem_cons_self)

theorem Unmarked.not_mem {l : List Char} (hl : l ⊆ "*\n@?".toList) : a ∉ l :=
  fun hm => h.first (hl hm)

theorem Unmarked.apart_starsFor (text : List Char) : Replace.Apart (a :: s) (starsFor text) := by
  refine Replace.apart_of_heads (fun hm => ?_) h.star
  rcases mem_starsFor hm with rfl | rfl
  · exact h.ne_star rfl
  · exact h.first (by decide)

theorem Unmarked.apart_stars : Replace.Apart (a :: s) stars := h.apart_starsFor []

theorem Unmarked.infix_redactVariants {forms : List String} {text : List Char}
    (hi : a :: s <:+: redactVariants word forms text) : a :: s <:+: text := by
  induction forms generalizing text with
  | nil => exact hi
  | cons form forms ih =>
      have hform : a :: s <:+: redactVariant word text form := ih hi
      unfold redactVariant at hform
      split at hform
      · exact Replace.infix_of_replace (List.cons_ne_nil a s) (h.apart_starsFor _) hform
      · exact infix_sub (fun m _ => ⟨[], _, rfl, List.nil_prefix, h.apart_stars⟩) hform

/-- What is unmarked, and in the text when the credentials are looked for, was there before. -/
theorem Unmarked.infix_beforeCredentials {text : List Char}
    (hi : a :: s <:+: beforeCredentials word A values text) : a :: s <:+: withoutNoise text := by
  have hquery : Replace.Apart (a :: s) ('?' :: stars) :=
    Replace.apart_of_heads (h.not_mem (by decide)) h.question
  have huser : Replace.Apart (a :: s) (stars ++ ['@']) :=
    Replace.apart_of_heads (h.not_mem (by decide)) h.star
  suffices hforms : a :: s <:+: redactVariants word (A.arrange (allVariants values))
      (withoutNoise text) from h.infix_redactVariants hforms
  refine infix_sub (fun m _ => ⟨[], _, rfl, List.nil_prefix, h.apart_starsFor _⟩) (infix_sub ?_
    (infix_sub ?_ hi))
  · intro m hm
    obtain ⟨w, htaken, -⟩ := matchesOf_group ' ' run_notBehind (by decide) hm
    exact ⟨_, _, List.append_assoc _ _ _, ⟨w, htaken.symm⟩, huser⟩
  · intro m hm
    obtain ⟨last, rest, hrun⟩ := matchesOf_run hm
    obtain ⟨w, htaken, -⟩ := run_group_seq ' ' (by decide) rfl hrun
    exact ⟨_, _, rfl, ⟨w, htaken.symm⟩, hquery⟩

end

/-- The kind of a credential, in any case, and white space up to a newline. -/
def OverLine (s : List Char) : Prop :=
  ∃ kind spaces, s = kind ++ (spaces ++ ['\n']) ∧
    kind.map foldCase ∈ ["bearer".toList, "basic".toList] ∧ ∀ c ∈ spaces, isSpace c = true

/-- No mark is part of such a text. -/
theorem overLine_unmarked {kind spaces : List Char}
    (hkind : kind.map foldCase ∈ ["bearer".toList, "basic".toList])
    (hspaces : ∀ c ∈ spaces, isSpace c = true) :
    ∃ a s, kind ++ (spaces ++ ['\n']) = a :: s ∧ Unmarked a s := by
  have hletters : ∀ c ∈ kind, (foldCase c).isLower = true := by
    intro c hc
    have hall : ∀ l ∈ ["bearer".toList, "basic".toList], l.all Char.isLower = true := by decide
    exact List.all_eq_true.mp (hall _ hkind) _ (List.mem_map_of_mem hc)
  have hmark {d : Char} (hd : (foldCase d).isLower = false) (hd' : isSpace d = false)
      (hne : d ≠ '\n') : d ∉ kind ++ (spaces ++ ['\n']) := by
    intro hm
    rcases List.mem_append.mp hm with hm | hm
    · rw [hletters d hm] at hd
      cases hd
    · rcases List.mem_append.mp hm with hm | hm
      · rw [hspaces d hm] at hd'
        cases hd'
      · exact hne (List.mem_singleton.mp hm)
  cases kind with
  | nil => exact absurd hkind (by decide)
  | cons a kind =>
      refine ⟨a, _, rfl, fun hm => ?_, hmark (by decide) (by decide) (by decide),
        hmark (by decide) (by decide) (by decide)⟩
      have hnone : "*\n@?".toList.all (fun d => !(foldCase d).isLower) = true := by decide
      have ha := List.all_eq_true.mp hnone a hm
      rw [hletters a List.mem_cons_self] at ha
      cases ha

/-- A credential that goes on over a newline has one after its kind. -/
theorem credential_taken {text : List Char} {m : Position} (h : m ∈ matchesOf (credential word) text)
    (hn : '\n' ∈ m.taken) : ∃ s, OverLine s ∧ s <:+: m.taken := by
  have hnewline : ∀ word ∈ ["bearer".toList, "basic".toList], foldCase '\n' ∉ word := by decide
  obtain ⟨last, rest, hrun⟩ := matchesOf_run h
  rw [credential, Pattern.run, List.mem_flatMap] at hrun
  obtain ⟨s₀, h₀, hrun⟩ := hrun
  obtain rfl := run_boundary _ _ h₀
  rw [Pattern.run, List.mem_flatMap] at hrun
  obtain ⟨s₁, h₁, hrun⟩ := hrun
  have hkind : ∃ kind, s₁.taken = kind ∧ kind.map foldCase ∈ ["bearer".toList, "basic".toList] := by
    rw [Pattern.run, List.mem_map] at h₁
    obtain ⟨s₂, h₂, rfl⟩ := h₁
    have hways : s₂ ∈ Pattern.run (alt (literal foldCase "bearer".toList)
        (literal foldCase "basic".toList)) _ := h₂
    rw [Pattern.run, List.mem_append] at hways
    rcases hways with h₂ | h₂
    · obtain ⟨kind, hk, hfold⟩ := run_literal h₂
      exact ⟨kind, hk.taken, hfold ▸ List.mem_cons_self⟩
    · obtain ⟨kind, hk, hfold⟩ := run_literal h₂
      exact ⟨kind, hk.taken, hfold ▸ List.mem_cons_of_mem _ List.mem_cons_self⟩
  obtain ⟨kind, hk, hfold⟩ := hkind
  rw [chain, List.foldr_cons, Pattern.run, List.mem_flatMap] at hrun
  obtain ⟨s₃, h₃, h₄⟩ := hrun
  obtain ⟨spaces, hspaces, hall⟩ := run_some h₃
  obtain ⟨value, hvalue, hno⟩ := run_takes '\n' h₄
  have htaken : m.taken = kind ++ (spaces ++ value) := by
    rw [hvalue.taken, hspaces.taken, hk, List.append_assoc]
  rw [htaken] at hn ⊢
  have hin : '\n' ∈ spaces := by
    rcases List.mem_append.mp hn with hn | hn
    · exact absurd (List.mem_map_of_mem hn) (hnewline _ hfold)
    · exact (List.mem_append.mp hn).resolve_right (hno (by decide))
  obtain ⟨before, after, rfl⟩ := List.append_of_mem hin
  refine ⟨kind ++ (before ++ ['\n']), ⟨kind, before, rfl, hfold, fun c hc => ?_⟩, ?_⟩
  · exact hall c (List.mem_append_left _ hc)
  · exact ⟨[], after ++ value, by simp⟩

/-- It is enough that no value of less than four characters holds a newline, and that no `Bearer` or
`Basic` is followed by white space with one. -/
theorem aligned_of_input {text : List Char}
    (hvalues : ∀ value ∈ values, value.length < 4 → '\n' ∉ value.toList)
    (htext : ∀ s, s <:+: withoutNoise text → ¬ OverLine s) : Aligned word A values text where
  shortValues := fun _ value _ _ hmem hbreaks => hvalues value hmem hbreaks.1 hbreaks.2.1
  credentials := fun m hm hn => by
    obtain ⟨s, ⟨kind, spaces, rfl, hkind, hspaces⟩, hs⟩ := credential_taken hm hn
    obtain ⟨a, s, he, hunmarked⟩ := overLine_unmarked hkind hspaces
    rw [he] at hs
    refine htext _ (hunmarked.infix_beforeCredentials (hs.trans (infix_taken hm))) ?_
    exact ⟨kind, spaces, he.symm, hkind, hspaces⟩

end Orchestrator.JenkinsDiagnostics
