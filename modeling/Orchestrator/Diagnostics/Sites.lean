import Orchestrator.Diagnostics.Lines
import Orchestrator.Text.Addresses
import Orchestrator.Text.SplitLines

/-!
# Diagnostics — the lines of a diagnosis

`diagnose_failure` classifies the lines of the console without its noise, and quotes the lines of
the redacted console with the same numbers.  If there are not as many of the one as of the other,
it classifies the redacted lines.

* `consoleLines`, `diagnosisLines`: the lines, and which of them are classified and quoted.
* `mem_redactConsole`, `redactConsole_last`: what ends a line of the redacted text, and its last one.
* `paired_iff`: when the lines without noise are the ones that are classified.
* `paired_of_input`: what of the values and the console is enough.
-/

namespace Orchestrator.JenkinsDiagnostics
open Pattern RouteProbes
open SplitLines (isLineEnd goesOn splitLines)

/-! ### Lines -/

/-- `_TIMESTAMP`; its digits are those of Unicode. -/
def timestamp : Pattern :=
  let digits (n : Nat) := List.replicate n (set fun c => (Addresses.decimalDigit c).isSome)
  chain ([atStart, set (· == '[')] ++ digits 4 ++ [set (· == '-')] ++ digits 2 ++
    [set (· == '-')] ++ digits 2 ++
    [set (· == 'T'), some_ (· != ']'), set (· == ']'), many true isSpace])

/-- A line, without the time it was written at. -/
def siteLine (line : List Char) : String :=
  strip (String.ofList (sub timestamp (fun _ => []) line))

def consoleLines (text : List Char) : List String := (SplitLines.withoutEnds text).map siteLine

section
variable (word : Char → Bool) (A : Arrangement) (values : List String)

/-- The lines that are classified, and the lines that are quoted. -/
def diagnosisLines (console : List Char) : List String × List String :=
  let cleanLines := consoleLines (stripConsoleNoise console)
  let lines := consoleLines (redactConsole word A values console)
  if cleanLines.length ≠ lines.length then (lines, lines) else (cleanLines, lines)

end

theorem length_consoleLines (text : List Char) :
    (consoleLines text).length = (splitLines text).length := by
  rw [consoleLines, SplitLines.withoutEnds, List.length_map, List.length_map]

/-! ### What ends the lines -/

variable {word : Char → Bool} {A : Arrangement} {values : List String} {console : List Char}

/-- The redaction adds no characters but those of its marks. -/
theorem mem_redactConsole {c : Char} (hc : c ∉ "*\n@? ".toList)
    (h : c ∈ redactConsole word A values console) : c ∈ stripConsoleNoise console := by
  have hmarks : "*\n@?".toList ⊆ "*\n@? ".toList := by decide
  have hunmarked : Unmarked c [] := by
    refine ⟨fun hm => hc (hmarks hm), fun hm => ?_, fun hm => ?_⟩
    · exact hc (List.mem_singleton.mp hm ▸ by decide)
    · exact hc (List.mem_singleton.mp hm ▸ by decide)
  have hcredential : Replace.Apart [c] (' ' :: stars) := by
    refine Replace.apart_of_heads (fun hm => hc ?_) fun hm => hc ?_
    · have hall : ' ' :: stars ⊆ "*\n@? ".toList := by decide
      exact hall hm
    · exact List.mem_singleton.mp hm ▸ by decide
  rw [redactConsole, List.mem_filter, ← List.singleton_infix_iff] at h
  rw [stripConsoleNoise, List.mem_filter, ← List.singleton_infix_iff]
  refine ⟨hunmarked.infix_beforeCredentials (infix_sub ?_ (infix_sub ?_ h.1)), h.2⟩
  · intro m hm
    obtain ⟨w, htaken, -⟩ := matchesOf_group ' ' run_boundary (by decide) hm
    exact ⟨_, _, rfl, ⟨w, htaken.symm⟩, hcredential⟩
  · intro m hm
    obtain ⟨w, htaken, -⟩ := matchesOf_group ' ' run_notBehind (by decide) hm
    exact ⟨_, _, rfl, ⟨w, htaken.symm⟩, hunmarked.apart_stars⟩

theorem redactVariants_last {forms : List String} (h : ∀ form ∈ forms, '\n' ∉ form.toList)
    (text : List Char) : ∃ t, redactVariants word forms (text ++ ['\n']) = t ++ ['\n'] := by
  induction forms generalizing text with
  | nil => exact ⟨text, rfl⟩
  | cons form forms ih =>
      have hno := h form List.mem_cons_self
      have hform : ∃ t, redactVariant word (text ++ ['\n']) form = t ++ ['\n'] := by
        unfold redactVariant
        split
        · next hlong =>
            refine Replace.replace_last (fun he => ?_) hno
            rw [← String.length_toList, he] at hlong
            exact absurd hlong (by decide)
        · refine sub_last fun m hm he => hno ?_
          rw [short_taken hm] at he
          exact List.mem_of_getLast? he
      obtain ⟨t, ht⟩ := hform
      have hcons : redactVariants word (form :: forms) (text ++ ['\n']) =
          redactVariants word forms (redactVariant word (text ++ ['\n']) form) := rfl
      rw [hcons, ht]
      exact ih (fun f hf => h f (List.mem_cons_of_mem _ hf)) t

/-- What avoids newlines does not take the last one. -/
theorem last_of_avoids {r : Pattern} (hr : r.avoids '\n' = true) {text : List Char} {m : Position}
    (hm : m ∈ matchesOf r text) : m.taken.getLast? ≠ some '\n' := by
  obtain ⟨last, rest, hrun⟩ := matchesOf_run hm
  obtain ⟨w, hw, hno⟩ := run_takes '\n' hrun
  intro he
  rw [hw.taken, List.nil_append] at he
  exact hno hr (List.mem_of_getLast? he)

/-- The header of a key is not made by marks. -/
theorem unmarked_key : Unmarked '-' "----BEGIN ".toList := ⟨by decide, by decide, by decide⟩

theorem key_taken {text : List Char} {m : Position} (h : m ∈ matchesOf privateKey text) :
    "-----BEGIN ".toList <:+: m.taken := by
  obtain ⟨last, rest, hrun⟩ := matchesOf_run h
  rw [privateKey, chain, List.foldr_cons, Pattern.run, List.mem_flatMap] at hrun
  obtain ⟨s, h₁, h₂⟩ := hrun
  obtain ⟨w, hw, hheader⟩ := run_literal h₁
  obtain ⟨v, hv, -⟩ := run_takes ' ' h₂
  rw [List.map_id] at hheader
  refine ⟨[], v, ?_⟩
  rw [hv.taken, hw.taken, hheader]

/-- There is a newline at the end of the redacted text, if neither a value nor a key nor a credential
takes it. -/
theorem redactConsole_last {text : List Char} (hvalues : ∀ value ∈ values, '\n' ∉ value.toList)
    (hkeys : ¬ "-----BEGIN ".toList <:+: withoutNoise console)
    (hcredentials : ∀ m ∈ matchesOf (credential word) (beforeCredentials word A values console),
      '\n' ∉ m.taken)
    (hend : withoutNoise console = text ++ ['\n']) :
    ∃ t, redactConsole word A values console = t ++ ['\n'] := by
  have hforms : ∀ form ∈ A.arrange (allVariants values), '\n' ∉ form.toList := by
    intro form hform hn
    exact hvalues form (mem_allVariants ((A.mem_arrange _ _).mp hform) hn) hn
  obtain ⟨t₁, h₁⟩ := @redactVariants_last word _ hforms text
  have hmatch : ∀ m ∈ matchesOf privateKey (t₁ ++ ['\n']), m.taken.getLast? ≠ some '\n' := by
    intro m hm
    rw [← h₁, ← hend] at hm
    exact absurd (unmarked_key.infix_redactVariants ((key_taken hm).trans (infix_taken hm))) hkeys
  obtain ⟨t₂, h₂⟩ := @sub_last '\n' privateKey (fun m => starsFor m.taken) t₁ hmatch
  obtain ⟨t₃, h₃⟩ := @sub_last '\n' userInfo (fun m => m.group 1 ++ stars ++ ['@']) t₂
    fun m hm => last_of_avoids (by decide) hm
  obtain ⟨t₄, h₄⟩ := @sub_last '\n' query (fun m => m.group 1 ++ '?' :: stars) t₃
    fun m hm => last_of_avoids (by decide) hm
  have hbefore : beforeCredentials word A values console = t₄ ++ ['\n'] := by
    rw [beforeCredentials, hend, h₁, h₂, h₃, h₄]
  rw [hbefore] at hcredentials
  obtain ⟨t₅, h₅⟩ := @sub_last '\n' (credential word) (fun m => m.group 1 ++ ' ' :: stars) t₄
    fun m hm he => hcredentials m hm (List.mem_of_getLast? he)
  obtain ⟨t₆, h₆⟩ := @sub_last '\n' (assignment word) (fun m => m.group 1 ++ stars) t₅
    fun m hm => by
      obtain ⟨last, rest, hrun⟩ := matchesOf_run hm
      rw [assignment, Pattern.run, List.mem_flatMap] at hrun
      obtain ⟨s, -, hrun⟩ := hrun
      exact run_seq_last rfl rfl hrun
  refine ⟨t₆.filter (!isNoise ·), ?_⟩
  rw [redactConsole, hbefore, h₅, h₆, List.filter_append]
  rfl

/-! ### Which lines are classified -/

/-- Where only newlines end the lines, and their number is kept, the lines are paired exactly if both
texts go on after the last newline, or neither does. -/
theorem paired_iff (hends : ∀ c ∈ stripConsoleNoise console, isLineEnd c = true → c = '\n')
    (h : Aligned word A values console) :
    diagnosisLines word A values console = (consoleLines (stripConsoleNoise console),
      consoleLines (redactConsole word A values console)) ↔
    goesOn (redactConsole word A values console) = goesOn (stripConsoleNoise console) := by
  have hredacted : ∀ c ∈ redactConsole word A values console, isLineEnd c = true → c = '\n' := by
    intro c hc hend
    by_contra hne
    refine hne (hends c (mem_redactConsole (fun hm => ?_) hc) hend)
    have hmarks : "*\n@? ".toList.all (fun d => !isLineEnd d || d == '\n') = true := by decide
    have hc' := List.all_eq_true.mp hmarks c hm
    rw [hend, Bool.not_true, Bool.false_or, beq_iff_eq] at hc'
    exact hne hc'
  have hcount := (newlines_aligned word A values console).mpr h
  have hlength : (consoleLines (stripConsoleNoise console)).length =
      (consoleLines (redactConsole word A values console)).length ↔
        goesOn (redactConsole word A values console) = goesOn (stripConsoleNoise console) := by
    rw [length_consoleLines, length_consoleLines, SplitLines.length_splitLines hends,
      SplitLines.length_splitLines hredacted, hcount]
    cases goesOn (redactConsole word A values console) <;>
      cases goesOn (stripConsoleNoise console) <;> simp
  rw [← hlength, diagnosisLines]
  constructor
  · intro he
    split at he
    · exact congrArg List.length (Prod.mk.inj he).1.symm
    · next hne => exact not_not.mp hne
  · exact fun he => if_neg (not_not.mpr he)

/-- It is enough that no value holds a newline, that there are no keys and no credential that goes on
over a newline, and that the console ends with one. -/
theorem paired_of_input {text : List Char}
    (hends : ∀ c ∈ stripConsoleNoise console, isLineEnd c = true → c = '\n')
    (hvalues : ∀ value ∈ values, '\n' ∉ value.toList)
    (hkeys : ¬ "-----BEGIN ".toList <:+: withoutNoise console)
    (hcredentials : ∀ s, s <:+: withoutNoise console → ¬ OverLine s)
    (hend : withoutNoise console = text ++ ['\n']) :
    diagnosisLines word A values console = (consoleLines (stripConsoleNoise console),
      consoleLines (redactConsole word A values console)) := by
  have haligned : Aligned word A values console :=
    aligned_of_input (fun value hvalue _ => hvalues value hvalue) hcredentials
  obtain ⟨t, ht⟩ := redactConsole_last hvalues hkeys haligned.credentials hend
  refine (paired_iff hends haligned).mpr ?_
  rw [ht, stripConsoleNoise, hend, List.filter_append, goesOn, goesOn, List.getLast?_concat]
  exact congrArg _ (List.getLast?_concat (l := text.filter (!isNoise ·)) (a := '\n')).symm

end Orchestrator.JenkinsDiagnostics
