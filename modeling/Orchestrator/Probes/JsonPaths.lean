import Mathlib.Data.List.TakeWhile
import Mathlib.Tactic.SplitIfs
import Orchestrator.Models.Fallible

/-!
# Probes — JSON paths

The paths of `json_path_equals`, such as `$.items[0].state`.

* `jsonPathTokens`: `_json_path_tokens`, the prefix first and then token after token.
* `Steps`, `Path`: the grammar, with the tokens a path stands for.
* `tokensLoop_ok`, `jsonPathTokens_ok`: what the loop and the parser accept.
* `jsonPathTokens_grammar`: the paths on which the parser and the grammar agree.
-/

namespace Orchestrator.RouteProbes

/-! ### The parser -/

inductive Token where
  | name (w : String)
  | index (n : Nat)
  deriving DecidableEq, Repr

def invalidPath : Exc :=
  exc .valueError "Invalid probe payload: json_path_equals contains an invalid path"

/-- A character of `[A-Za-z0-9_-]`. -/
def isNameChar (c : Char) : Bool := c.isAlphanum || c == '_' || c == '-'

/-- `\[([0-9]+)\]` or `[A-Za-z0-9_-]+` at the start of the text, and what follows. -/
def nextToken : List Char → Option (Token × List Char)
  | '[' :: cs =>
      match cs.takeWhile Char.isDigit, cs.dropWhile Char.isDigit with
      | d :: ds, ']' :: rest => some (.index (Nat.ofDigitChars 10 (d :: ds) 0), rest)
      | _, _ => none
  | cs =>
      match cs.takeWhile isNameChar with
      | [] => none
      | w => some (.name (String.ofList w), cs.dropWhile isNameChar)

/-- `not remaining or remaining.startswith("[")`. -/
def endsOrIndexes (remaining : List Char) : Bool :=
  remaining.isEmpty || remaining.head? == some '['

/-- The separator after a token. -/
def afterToken : List Char → Except Exc (List Char)
  | '.' :: rest => if endsOrIndexes rest then .error invalidPath else .ok rest
  | rest => if endsOrIndexes rest then .ok rest else .error invalidPath

/-- The loop, over at most `n` tokens. -/
def tokensLoop : Nat → List Char → Except Exc (List Token)
  | _, [] => .ok []
  | 0, _ :: _ => .error invalidPath
  | n + 1, c :: cs =>
      match nextToken (c :: cs) with
      | none => .error invalidPath
      | some (token, rest) => do
          let remaining ← afterToken rest
          let tokens ← tokensLoop n remaining
          return token :: tokens

/-- What is left of a path without its prefix. -/
def afterPrefix : List Char → Except Exc (List Char)
  | '$' :: '.' :: rest | '.' :: rest => .ok rest
  | '$' :: rest => if endsOrIndexes rest then .ok rest else .error invalidPath
  | rest => .ok rest

/-- `_json_path_tokens`. -/
def jsonPathTokens (path : String) : Except Exc (List Token) :=
  if path.toList = [] ∨ 512 < path.toList.length then .error invalidPath
  else do
    let remaining ← afterPrefix path.toList
    tokensLoop remaining.length remaining

/-! ### The grammar -/

/-- A nonempty word over `p`. -/
def Word (p : Char → Bool) (w : List Char) : Prop := w ≠ [] ∧ ∀ c ∈ w, p c = true

/-- `.name` or `[digits]`. -/
inductive Step : List Char → Token → Prop where
  | name {w : List Char} (h : Word isNameChar w) : Step ('.' :: w) (.name (String.ofList w))
  | index {ds : List Char} (h : Word Char.isDigit ds) :
      Step ('[' :: (ds ++ [']'])) (.index (Nat.ofDigitChars 10 ds 0))

inductive Steps : List Char → List Token → Prop where
  | nil : Steps [] []
  | cons {x y : List Char} {t : Token} {ts : List Token} (h : Step x t) (hs : Steps y ts) :
      Steps (x ++ y) (t :: ts)

/-- A path, and its tokens in order. -/
inductive Path : List Char → List Token → Prop where
  | rooted {y : List Char} {ts : List Token} (h : Steps y ts) : Path ('$' :: y) ts
  | relative {y : List Char} {ts : List Token} (h : Steps y ts) : Path y ts
  | bare {w y : List Char} {ts : List Token} (hw : Word isNameChar w) (h : Steps y ts) :
      Path (w ++ y) (.name (String.ofList w) :: ts)

def Token.render : Token → List Char
  | .name w => '.' :: w.toList
  | .index n => '[' :: (Nat.toDigits 10 n ++ [']'])

/-- `$`, then `.name` or `[i]` for each token. -/
def renderPath (tokens : List Token) : String := String.ofList ('$' :: tokens.flatMap Token.render)

/-- A dot that nothing follows, or an index: the prefix of a path, but no step of one. -/
def Dangling (s : List Char) : Prop :=
  ∃ y ts, (s = '.' :: y ∨ s = '$' :: '.' :: y) ∧ endsOrIndexes y = true ∧ Steps y ts

/-! ### The loop -/

/-- What the loop reads: nothing, or a token without its dot and then steps. -/
inductive Reading : List Char → List Token → Prop where
  | done : Reading [] []
  | name {w y : List Char} {ts : List Token} (hw : Word isNameChar w) (h : Steps y ts) :
      Reading (w ++ y) (.name (String.ofList w) :: ts)
  | index {ds y : List Char} {ts : List Token} (hd : Word Char.isDigit ds) (h : Steps y ts) :
      Reading ('[' :: (ds ++ ']' :: y)) (.index (Nat.ofDigitChars 10 ds 0) :: ts)

theorem Word.cons {p : Char → Bool} {w : List Char} (h : Word p w) :
    ∃ c cs, w = c :: cs ∧ p c = true := by
  cases w with
  | nil => exact absurd rfl h.1
  | cons c cs => exact ⟨c, cs, rfl, h.2 c List.mem_cons_self⟩

theorem Reading.nil {ts : List Token} (h : Reading [] ts) : ts = [] := by
  generalize hr : ([] : List Char) = r at h
  cases h with
  | done => rfl
  | name hw _ => exact absurd (List.append_eq_nil_iff.mp hr.symm).1 hw.1
  | index => cases hr

/-- The steps that are left, behind their separator. -/
theorem steps_iff {y : List Char} {ts : List Token} :
    Steps y ts ↔ ∃ r, afterToken y = .ok r ∧ Reading r ts := by
  constructor
  · intro h
    cases h with
    | nil => exact ⟨[], rfl, .done⟩
    | cons h hs =>
        cases h with
        | name hw =>
            obtain ⟨c, cs, rfl, hc⟩ := hw.cons
            have hne : c ≠ '[' := by
              rintro rfl
              exact absurd hc (by decide)
            refine ⟨_, ?_, .name hw hs⟩
            simp [afterToken, endsOrIndexes, hne]
        | index hd =>
            refine ⟨_, ?_, .index hd hs⟩
            simp [afterToken, endsOrIndexes]
  · rintro ⟨r, ha, hr⟩
    unfold afterToken at ha
    split at ha
    · next rest =>
        -- The dot is the first character of a named step.
        split_ifs at ha with hb
        cases ha
        cases hr with
        | done => exact absurd rfl hb
        | name hw h => exact .cons (.name hw) h
        | index => exact absurd (by simp [endsOrIndexes]) hb
    · next rest _ =>
        split_ifs at ha with hb
        cases ha
        cases hr with
        | done => exact .nil
        | name hw h =>
            obtain ⟨c, cs, rfl, hc⟩ := hw.cons
            have hne : c = '[' := by simpa [endsOrIndexes] using hb
            subst hne
            exact absurd hc (by decide)
        | index hd h =>
            have hs := Steps.cons (Step.index hd) h
            simpa using hs

/-- Steps do not go on with a character of a name. -/
theorem Steps.head {y : List Char} {ts : List Token} (h : Steps y ts) :
    y.takeWhile isNameChar = [] := by
  cases h with
  | nil => rfl
  | cons h hs => cases h <;> rfl

theorem takeWhile_word {p : Char → Bool} {w y : List Char} (hw : ∀ c ∈ w, p c = true)
    (hy : y.takeWhile p = []) : (w ++ y).takeWhile p = w ∧ (w ++ y).dropWhile p = y := by
  have ht : (w ++ y).takeWhile p = w := by
    rw [List.takeWhile_append_of_pos hw, hy, List.append_nil]
  refine ⟨ht, ?_⟩
  have h := List.takeWhile_append_dropWhile (p := p) (l := w ++ y)
  rw [ht] at h
  exact List.append_cancel_left h

theorem nextToken_name {w y : List Char} {ts : List Token} (hw : Word isNameChar w)
    (h : Steps y ts) : nextToken (w ++ y) = some (.name (String.ofList w), y) := by
  obtain ⟨ht, hd⟩ := takeWhile_word hw.2 h.head
  obtain ⟨c, cs, rfl, hc⟩ := hw.cons
  unfold nextToken
  split
  · next heq =>
      cases heq
      exact absurd hc (by decide)
  · rw [ht, hd]

theorem nextToken_index {ds y : List Char} (hd : Word Char.isDigit ds) :
    nextToken ('[' :: (ds ++ ']' :: y)) = some (.index (Nat.ofDigitChars 10 ds 0), y) := by
  obtain ⟨ht, hr⟩ := takeWhile_word (y := ']' :: y) hd.2 rfl
  obtain ⟨c, cs, rfl, -⟩ := hd.cons
  simp only [nextToken, ht, hr]

/-- A token is a name, or an index in its brackets. -/
theorem nextToken_some {r rest : List Char} {t : Token} (h : nextToken r = some (t, rest)) :
    (∃ w, Word isNameChar w ∧ r = w ++ rest ∧ t = .name (String.ofList w)) ∨
      ∃ ds, Word Char.isDigit ds ∧ r = '[' :: (ds ++ ']' :: rest) ∧
        t = .index (Nat.ofDigitChars 10 ds 0) := by
  unfold nextToken at h
  split at h
  · next cs =>
      split at h
      · next d ds rest' ht hr =>
          cases h
          right
          refine ⟨d :: ds, ⟨by simp, fun c hc => ?_⟩, ?_, rfl⟩
          · rw [← ht] at hc
            exact List.mem_takeWhile_imp hc
          · rw [← ht, ← hr, List.takeWhile_append_dropWhile]
      · cases h
  · split at h
    · cases h
    · next hne =>
        cases h
        left
        refine ⟨_, ⟨fun h => hne h, fun c hc => List.mem_takeWhile_imp hc⟩, ?_, rfl⟩
        rw [List.takeWhile_append_dropWhile]

theorem afterToken_length {y r : List Char} (h : afterToken y = .ok r) : r.length ≤ y.length := by
  unfold afterToken at h
  split at h <;> split_ifs at h <;> cases h <;> simp

/-- **The loop.**  It accepts what the grammar reads, with its tokens. -/
theorem tokensLoop_ok {n : Nat} {r : List Char} {ts : List Token} (hn : r.length ≤ n) :
    tokensLoop n r = .ok ts ↔ Reading r ts := by
  induction n generalizing r ts with
  | zero =>
      obtain rfl : r = [] := List.length_eq_zero_iff.mp (by omega)
      exact ⟨fun h => by cases h; exact .done, fun h => by rw [h.nil]; rfl⟩
  | succ n ih =>
      cases r with
      | nil => exact ⟨fun h => by cases h; exact .done, fun h => by rw [h.nil]; rfl⟩
      | cons c cs =>
          constructor
          · intro h
            simp only [tokensLoop] at h
            split at h
            · cases h
            · next t rest ht =>
                obtain ⟨remaining, ha, h⟩ := bind_ok h
                obtain ⟨ts', hl, h⟩ := bind_ok h
                cases h
                have hlen := afterToken_length ha
                -- The rest is shorter, so that the loop reads steps from it.
                rcases nextToken_some ht with ⟨w, hw, hr, rfl⟩ | ⟨ds, hd, hr, rfl⟩
                · have hpos := List.length_pos_iff.mpr hw.1
                  have hlen' := congrArg List.length hr
                  simp only [List.length_append] at hlen'
                  have hrest := (ih (by omega)).mp hl
                  rw [hr]
                  exact .name hw (steps_iff.mpr ⟨_, ha, hrest⟩)
                · have hlen' := congrArg List.length hr
                  simp only [List.length_append, List.length_cons] at hlen' hn
                  have hrest := (ih (by omega)).mp hl
                  rw [hr]
                  exact .index hd (steps_iff.mpr ⟨_, ha, hrest⟩)
          · intro h
            have key : ∀ {t y ts'}, nextToken (c :: cs) = some (t, y) → Steps y ts' →
                y.length ≤ n → tokensLoop (n + 1) (c :: cs) = .ok (t :: ts') := by
              intro t y ts' ht hs hy
              obtain ⟨remaining, ha, hrest⟩ := steps_iff.mp hs
              have hlen := afterToken_length ha
              have hl : tokensLoop n remaining = .ok ts' := (ih (by omega)).mpr hrest
              simp only [tokensLoop, ht, ha]
              exact congrArg (· >>= fun tokens => .ok (t :: tokens)) hl
            generalize hr : c :: cs = r at h
            cases h with
            | done => cases hr
            | @name w y ts' hw hs =>
                have hpos := List.length_pos_iff.mpr hw.1
                have hlen := congrArg List.length hr
                simp only [List.length_append, List.length_cons] at hlen hn
                rw [← hr]
                exact key (by rw [hr]; exact nextToken_name hw hs) hs (by omega)
            | @index ds y ts' hd hs =>
                have hlen := congrArg List.length hr
                simp only [List.length_append, List.length_cons] at hlen hn
                rw [← hr]
                exact key (by rw [hr]; exact nextToken_index hd) hs (by omega)

/-! ### The prefix -/

theorem endsOrIndexes_steps {r : List Char} {ts : List Token} (h : endsOrIndexes r = true) :
    Reading r ts ↔ Steps r ts := by
  have hd : r.head? ≠ some '.' := by
    intro hd
    cases r with
    | nil => cases hd
    | cons c cs =>
        obtain rfl : c = '.' := by simpa using hd
        simp [endsOrIndexes] at h
  rw [steps_iff]
  have ha : afterToken r = .ok r := by
    cases r with
    | nil => rfl
    | cons c cs =>
        have hc : c ≠ '.' := fun e => hd (by rw [e]; rfl)
        simp [afterToken, hc, h]
  constructor
  · intro hr
    exact ⟨r, ha, hr⟩
  · rintro ⟨r', ha', hr⟩
    cases ha.symm.trans ha'
    exact hr

theorem steps_dot {r : List Char} {ts : List Token} :
    Steps ('.' :: r) ts ↔ endsOrIndexes r = false ∧ Reading r ts := by
  rw [steps_iff]
  by_cases he : endsOrIndexes r = true
  · simp [afterToken, he]
  · simp [afterToken, he]

/-- Steps begin with a dot, or with a bracket. -/
theorem steps_other {c : Char} {r : List Char} {ts : List Token} (hd : c ≠ '.')
    (he : endsOrIndexes (c :: r) = false) : ¬ Steps (c :: r) ts := by
  rw [steps_iff]
  rintro ⟨r', ha, -⟩
  simp [afterToken, hd, he] at ha

theorem word_head {c : Char} {r w y : List Char} (hc : isNameChar c = false)
    (hw : Word isNameChar w) (h : c :: r = w ++ y) : False := by
  obtain ⟨d, ds, rfl, hd⟩ := hw.cons
  cases h
  rw [hc] at hd
  cases hd

theorem path_rooted {r : List Char} {ts : List Token} : Path ('$' :: r) ts ↔ Steps r ts := by
  constructor
  · intro h
    generalize hs : '$' :: r = s at h
    cases h with
    | rooted h =>
        cases hs
        exact h
    | relative h =>
        rw [← hs] at h
        exact absurd h (steps_other (by decide) (by rfl))
    | bare hw h => exact (word_head (by decide) hw hs).elim
  · exact .rooted

theorem path_dot {r : List Char} {ts : List Token} : Path ('.' :: r) ts ↔ Steps ('.' :: r) ts := by
  constructor
  · intro h
    generalize hs : '.' :: r = s at h
    cases h with
    | rooted h => cases hs
    | relative h => exact h
    | bare hw h => exact (word_head (by decide) hw hs).elim
  · exact .relative

theorem path_other {c : Char} {r : List Char} {ts : List Token} (hc : c ≠ '$') (hd : c ≠ '.') :
    Path (c :: r) ts ↔ Reading (c :: r) ts := by
  constructor
  · intro h
    generalize hs : c :: r = s at h
    cases h with
    | rooted h =>
        cases hs
        exact absurd rfl hc
    | relative h =>
        rw [← hs] at h ⊢
        by_cases he : endsOrIndexes (c :: r) = true
        · exact (endsOrIndexes_steps he).mpr h
        · exact absurd h (steps_other hd (by simpa using he))
    | bare hw h => exact .name hw h
  · intro h
    generalize hs : c :: r = s at h
    cases h with
    | done => cases hs
    | name hw h => exact .bare hw h
    | index hw h =>
        have hs := Steps.cons (Step.index hw) h
        exact .relative (by simpa using hs)

/-- **The parser.**  Besides the paths of the grammar, it accepts a dot before an index or before
nothing, where it belongs to the prefix. -/
theorem jsonPathTokens_ok {path : String} {ts : List Token} (hne : path.toList ≠ [])
    (hl : path.toList.length ≤ 512) :
    jsonPathTokens path = .ok ts ↔ Path path.toList ts ∨
      ∃ y, (path.toList = '.' :: y ∨ path.toList = '$' :: '.' :: y) ∧ endsOrIndexes y = true ∧
        Steps y ts := by
  have hparse : jsonPathTokens path = .ok ts ↔
      ∃ r, afterPrefix path.toList = .ok r ∧ Reading r ts := by
    unfold jsonPathTokens
    rw [if_neg (not_or.mpr ⟨hne, by omega⟩)]
    constructor
    · intro h
      obtain ⟨r, hr, h⟩ := bind_ok h
      exact ⟨r, hr, (tokensLoop_ok (Nat.le_refl _)).mp h⟩
    · rintro ⟨r, hr, h⟩
      rw [hr]
      exact (tokensLoop_ok (Nat.le_refl _)).mpr h
  rw [hparse]
  clear hparse hl
  generalize path.toList = s at hne ⊢
  -- What a dot in the prefix is followed by.
  have dotted : ∀ r, Reading r ts ↔ Steps ('.' :: r) ts ∨ endsOrIndexes r = true ∧ Steps r ts := by
    intro r
    rw [steps_dot]
    by_cases he : endsOrIndexes r = true
    · simp [he, endsOrIndexes_steps he]
    · simp [he]
  cases s with
  | nil => exact absurd rfl hne
  | cons c cs =>
      by_cases hc : c = '$'
      · subst hc
        rw [path_rooted]
        cases cs with
        | nil =>
            have hs := @endsOrIndexes_steps [] ts rfl
            simp [afterPrefix, endsOrIndexes, hs]
        | cons d ds =>
            by_cases hd : d = '.'
            · subst hd
              simp [afterPrefix, dotted]
            · by_cases he : endsOrIndexes (d :: ds) = true
              · simp [afterPrefix, hd, he, endsOrIndexes_steps he]
              · have hn := @steps_other d ds ts hd (by simpa using he)
                simp [afterPrefix, hd, he, hn]
      · by_cases hd : c = '.'
        · subst hd
          rw [path_dot]
          simp [afterPrefix, dotted]
        · rw [path_other hc hd]
          simp [afterPrefix, hc, hd]

/-! ### Rendering -/

theorem Step.renders {x : List Char} {t : Token} (h : Step x t) : Step t.render t := by
  cases h with
  | @name w h =>
      rw [Token.render, String.toList_ofList]
      exact .name h
  | @index ds h =>
      have hd : Word Char.isDigit (Nat.toDigits 10 (Nat.ofDigitChars 10 ds 0)) :=
        ⟨Nat.toDigits_ne_nil, fun c hc =>
          Nat.isDigit_of_mem_toDigits (by decide) (by decide) hc⟩
      have hs := Step.index hd
      rwa [Nat.ofDigitChars_ten_toDigits] at hs

theorem Steps.renders {y : List Char} {ts : List Token} (h : Steps y ts) :
    Steps (ts.flatMap Token.render) ts := by
  induction h with
  | nil => exact .nil
  | cons h _ ih => exact .cons h.renders ih

/-- The canonical text of the tokens of a path is a path, and stands for them. -/
theorem Path.renders {s : List Char} {ts : List Token} (h : Path s ts) :
    Path (renderPath ts).toList ts := by
  rw [renderPath, String.toList_ofList]
  cases h with
  | rooted h => exact .rooted h.renders
  | relative h => exact .rooted h.renders
  | bare hw h => exact .rooted (.cons (Step.name hw).renders h.renders)

/-- A dangling dot belongs to no path. -/
theorem Dangling.no_path {s : List Char} (h : Dangling s) {ts : List Token} : ¬ Path s ts := by
  obtain ⟨y, ts', hs, he, -⟩ := h
  rcases hs with rfl | rfl
  · rw [path_dot, steps_dot]
    simp [he]
  · rw [path_rooted, steps_dot]
    simp [he]

/-- What the grammar says of a path: it is accepted if it is one, with its tokens, and its
canonical text is accepted with the same tokens. -/
def FollowsGrammar (path : String) : Prop :=
  ((∃ ts, jsonPathTokens path = .ok ts) ↔ ∃ ts, Path path.toList ts) ∧
    ∀ ts, jsonPathTokens path = .ok ts → Path path.toList ts ∧
      (∀ ts', Path path.toList ts' → ts' = ts) ∧ jsonPathTokens (renderPath ts) = .ok ts

/-- **The grammar.**  The parser follows it on the paths that are not empty, have no dangling dot
in their prefix and whose canonical text is not too long. -/
theorem jsonPathTokens_grammar {path : String} (hl : path.toList.length ≤ 512) :
    FollowsGrammar path ↔ path.toList ≠ [] ∧ ¬ Dangling path.toList ∧
      ∀ ts, Path path.toList ts → (renderPath ts).toList.length ≤ 512 := by
  have hempty : path.toList = [] → ∀ ts, jsonPathTokens path ≠ .ok ts := by
    intro he ts h
    simp [jsonPathTokens, he] at h
  constructor
  · rintro ⟨hiff, hts⟩
    have hne : path.toList ≠ [] := by
      intro he
      obtain ⟨ts, h⟩ := hiff.mpr ⟨[], by rw [he]; exact .relative .nil⟩
      exact hempty he ts h
    refine ⟨hne, fun hd => ?_, fun ts hp => ?_⟩
    · obtain ⟨y, ts, hs, he, h⟩ := id hd
      have hok := (jsonPathTokens_ok hne hl).mpr (.inr ⟨y, hs, he, h⟩)
      exact hd.no_path (hts ts hok).1
    · have hok := (jsonPathTokens_ok hne hl).mpr (.inl hp)
      have hr := (hts ts hok).2.2
      by_contra hlong
      rw [jsonPathTokens, if_pos (.inr (by omega))] at hr
      cases hr
  · rintro ⟨hne, hd, hr⟩
    have hok : ∀ ts, jsonPathTokens path = .ok ts ↔ Path path.toList ts := by
      intro ts
      rw [jsonPathTokens_ok hne hl]
      refine ⟨fun h => h.resolve_right ?_, .inl⟩
      rintro ⟨y, hs, he, h⟩
      exact hd ⟨y, ts, hs, he, h⟩
    refine ⟨exists_congr hok, fun ts h => ?_⟩
    have hp := (hok ts).mp h
    refine ⟨hp, fun ts' h' => ?_, ?_⟩
    · cases ((hok ts').mpr h').symm.trans h
      rfl
    · refine (jsonPathTokens_ok ?_ (hr ts hp)).mpr (.inl hp.renders)
      simp [renderPath]

theorem jsonPathTokens_grammar_items : FollowsGrammar "$.items[0].state" := by
  have hs : Path "$.items[0].state".toList [.name "items", .index 0, .name "state"] :=
    .rooted (.cons (.name (w := "items".toList) ⟨by decide, List.all_eq_true.mp (by decide)⟩)
      (.cons (@Step.index ['0'] ⟨by decide, List.all_eq_true.mp (by decide)⟩)
        (.cons (.name (w := "state".toList) ⟨by decide, List.all_eq_true.mp (by decide)⟩) .nil)))
  refine (jsonPathTokens_grammar (by decide)).mpr ⟨by decide, ?_, fun ts h => ?_⟩
  · exact fun hd => hd.no_path hs
  · have hok := (jsonPathTokens_ok (by decide) (by decide)).mpr (.inl hs)
    have hok' := (jsonPathTokens_ok (by decide) (by decide)).mpr (.inl h)
    cases hok.symm.trans hok'
    decide

/-- The dot of the prefix is taken off without the check that the dots of the steps pass. -/
theorem jsonPathTokens_dangling :
    ¬ ∀ path : String, path.toList.length ≤ 512 → FollowsGrammar path := by
  intro h
  have hd : Dangling "$.[0]".toList :=
    ⟨"[0]".toList, [.index 0], .inr rfl, rfl,
      .cons (@Step.index ['0'] ⟨by decide, List.all_eq_true.mp (by decide)⟩) .nil⟩
  obtain ⟨hp, -, -⟩ := (h "$.[0]" (by decide)).2 [.index 0] (by decide)
  exact hd.no_path hp

end Orchestrator.RouteProbes
