import Mathlib.Data.List.Infix
import Mathlib.Data.List.TakeDrop
import Mathlib.Data.List.TakeWhile
import Orchestrator.Text.Replace

/-!
# Text — patterns

Regular expressions that are matched by backtracking: the alternatives of a pattern are tried in
order, and the first way through it is the match.  What is repeated is a set of characters.

* `run`: the ways through a pattern, the preferred one first.
* `segments`, `sub`: a text, cut into matches and what is between them, and with the matches replaced.
* `avoids`, `groupless`, `consumes`: what a pattern cannot take, does not remember, and must take.
* `run_takes`, `run_groups`: a way through a pattern takes what comes next.
* `source_segments`, `count_sub`: the text is its segments, and how often a character occurs after a
  substitution.
* `infix_sub`, `sub_last`: a word that a substitution cannot make, and the last character after it.
-/

namespace Orchestrator

/-- Sets of characters stand for themselves. -/
inductive Pattern where
  | empty
  | set (p : Char → Bool)
  | seq (r s : Pattern)
  | alt (r s : Pattern)
  | many (greedy : Bool) (p : Char → Bool)
  | group (n : Nat) (r : Pattern)
  | notBehind (p : Char → Bool)
  | notAhead (p : Char → Bool)
  | boundary (word : Char → Bool)
  | atStart
  | atEnd

namespace Pattern

/-! ### Matching -/

/-- How far a match has come: the character before, what has been taken, and what is to come. -/
structure Position where
  last : Option Char
  taken : List Char
  rest : List Char
  groups : List (Nat × List Char)

/-- What a group has taken. -/
def Position.group (s : Position) (n : Nat) : List Char := (s.groups.lookup n).getD []

/-- So many characters are taken. -/
def Position.advance (s : Position) (k : Nat) : Position :=
  { s with
    last := (s.rest.take k).getLast?.or s.last
    taken := s.taken ++ s.rest.take k
    rest := s.rest.drop k }

/-- How many characters a repetition can take, in the order of its preference. -/
def lengths (greedy : Bool) (n : Nat) : List Nat :=
  if greedy then (List.range (n + 1)).reverse else List.range (n + 1)

/-- The group is what has been taken since. -/
def close (n : Nat) (s s' : Position) : Position :=
  { s' with taken := s.taken ++ s'.taken, groups := (n, s'.taken) :: s'.groups }

/-- The ways through a pattern, the preferred one first. -/
def run : Pattern → Position → List Position
  | empty, s => [s]
  | set p, s => if s.rest.head?.any p then [s.advance 1] else []
  | seq r t, s => (run r s).flatMap (run t)
  | alt r t, s => run r s ++ run t s
  | many greedy p, s => (lengths greedy (s.rest.takeWhile p).length).map s.advance
  | group n r, s => (run r { s with taken := [] }).map (close n s)
  | notBehind p, s => if s.last.any p then [] else [s]
  | notAhead p, s => if s.rest.head?.any p then [] else [s]
  | boundary word, s => if s.last.any word != s.rest.head?.any word then [s] else []
  | atStart, s => if s.last.isNone then [s] else []
  | atEnd, s => if s.rest = [] then [s] else []

/-- The match at a place of a text. -/
def find (r : Pattern) (last : Option Char) (rest : List Char) : Option Position :=
  (run r ⟨last, [], rest, []⟩).head?

/-- A character that is kept, or a match. -/
inductive Segment where
  | char (c : Char)
  | found (m : Position)

/-- A text no longer than this, from the left; a match of nothing is none. -/
def segments (r : Pattern) : Nat → Option Char → List Char → List Segment
  | 0, _, _ | _, _, [] => []
  | n + 1, last, c :: cs => match find r last (c :: cs) with
      | some m =>
          if m.taken = [] then .char c :: segments r n (some c) cs
          else .found m :: segments r n m.last m.rest
      | none => .char c :: segments r n (some c) cs

def segmentsOf (r : Pattern) (text : List Char) : List Segment := segments r text.length none text

/-- The matches in a text. -/
def matchesOf (r : Pattern) (text : List Char) : List Position :=
  (segmentsOf r text).filterMap fun
    | .char _ => none
    | .found m => some m

def Segment.source : Segment → List Char
  | .char c => [c]
  | .found m => m.taken

def Segment.target (f : Position → List Char) : Segment → List Char
  | .char c => [c]
  | .found m => f m

/-- `re.sub`, of a pattern that does not match nothing. -/
def sub (r : Pattern) (f : Position → List Char) (text : List Char) : List Char :=
  (segmentsOf r text).flatMap (Segment.target f)

/-! ### Some patterns -/

/-- A word, whose characters are compared folded. -/
def literal (fold : Char → Char) (word : List Char) : Pattern :=
  word.foldr (fun c r => seq (set fun d => fold d == c) r) empty

def maybe (r : Pattern) : Pattern := alt r empty

/-- One character of a set, or more. -/
def some_ (p : Char → Bool) : Pattern := seq (set p) (many true p)

/-- The first of some patterns that goes on to a match. -/
def oneOf : List Pattern → Pattern
  | [] => set fun _ => false
  | [r] => r
  | r :: rs => alt r (oneOf rs)

def chain (rs : List Pattern) : Pattern := rs.foldr seq empty

/-! ### What a way through a pattern takes -/

/-- No way through the pattern takes this character. -/
def avoids (x : Char) : Pattern → Bool
  | set p | many _ p => !p x
  | seq r s | alt r s => avoids x r && avoids x s
  | group _ r => avoids x r
  | empty | notBehind _ | notAhead _ | boundary _ | atStart | atEnd => true

/-- The pattern has no groups. -/
def groupless : Pattern → Bool
  | seq r s | alt r s => groupless r && groupless s
  | group _ _ => false
  | empty | set _ | many _ _ | notBehind _ | notAhead _ | boundary _ | atStart | atEnd => true

/-- Every way through the pattern takes something. -/
def consumes : Pattern → Bool
  | set _ => true
  | seq r s => consumes r || consumes s
  | alt r s => consumes r && consumes s
  | group _ r => consumes r
  | empty | many _ _ | notBehind _ | notAhead _ | boundary _ | atStart | atEnd => false

section
-- The equations are generated here, once, and not by each of the proofs below.
attribute [local simp] run avoids groupless consumes segments
end

theorem mem_take_takeWhile {p : Char → Bool} {l : List Char} {k : Nat} {c : Char}
    (hk : k ≤ (l.takeWhile p).length) (hc : c ∈ l.take k) : p c = true := by
  have hpre : l.take k <+: l.takeWhile p := by
    refine List.prefix_of_prefix_length_le ( List.take_prefix k l) ( List.takeWhile_prefix p) ?_
    exact (List.length_take_le k l).trans hk
  exact List.mem_takeWhile_imp (hpre.subset hc)

theorem le_of_mem_lengths {greedy : Bool} {n k : Nat} (h : k ∈ lengths greedy n) : k ≤ n := by
  unfold lengths at h
  split at h
  · rw [List.mem_reverse, List.mem_range] at h
    omega
  · rw [List.mem_range] at h
    omega

/-- From one position to another, these characters are taken. -/
structure Takes (s s' : Position) (w : List Char) : Prop where
  taken : s'.taken = s.taken ++ w
  rest : s.rest = w ++ s'.rest

theorem Takes.refl (s : Position) : Takes s s [] := ⟨(List.append_nil _).symm, rfl⟩

theorem Takes.trans {s s₁ s₂ : Position} {u v : List Char} (h₁ : Takes s s₁ u)
    (h₂ : Takes s₁ s₂ v) : Takes s s₂ (u ++ v) :=
  ⟨by rw [h₂.taken, h₁.taken, List.append_assoc], by rw [h₁.rest, h₂.rest, List.append_assoc]⟩

theorem takes_advance (s : Position) (k : Nat) : Takes s (s.advance k) (s.rest.take k) :=
  ⟨rfl, (List.take_append_drop k _).symm⟩

theorem takes_stay {s s' : Position} {b : Prop} [Decidable b]
    (h : s' ∈ if b then [s] else []) : Takes s s' [] := by
  split at h
  · rw [List.mem_singleton] at h
    exact h ▸ Takes.refl s
  · cases h

theorem takes_stay_not {s s' : Position} {b : Prop} [Decidable b]
    (h : s' ∈ if b then [] else [s]) : Takes s s' [] := by
  split at h
  · cases h
  · rw [List.mem_singleton] at h
    exact h ▸ Takes.refl s

theorem run_set {p : Char → Bool} {s s' : Position} (h : s' ∈ run (set p) s) :
    ∃ c, Takes s s' [c] ∧ p c = true := by
  rw [run] at h
  split at h
  · next hp =>
      rw [List.mem_singleton] at h
      cases hr : s.rest with
      | nil =>
          rw [hr] at hp
          cases hp
      | cons c cs =>
          rw [hr] at hp
          have htakes := takes_advance s 1
          rw [hr, List.take_succ_cons, List.take_zero] at htakes
          exact ⟨c, h ▸ htakes, hp⟩
  · cases h

/-- What is taken comes from the front of the rest. -/
theorem run_takes (x : Char) {r : Pattern} {s s' : Position} (h : s' ∈ run r s) :
    ∃ w, Takes s s' w ∧ (r.avoids x = true → x ∉ w) := by
  induction r generalizing s s' with
  | empty =>
      rw [run, List.mem_singleton] at h
      exact ⟨[], h ▸ Takes.refl s, fun _ => List.not_mem_nil⟩
  | set p =>
      obtain ⟨c, hc, hp⟩ := run_set h
      refine ⟨_, hc, fun ha hx => ?_⟩
      rw [List.mem_singleton.mp hx, avoids, hp] at ha
      cases ha
  | seq r t ihr iht =>
      rw [run, List.mem_flatMap] at h
      obtain ⟨s₁, h₁, h₂⟩ := h
      -- What the one takes stands before what the other takes.
      obtain ⟨u, hu, hxu⟩ := ihr h₁
      obtain ⟨v, hv, hxv⟩ := iht h₂
      refine ⟨u ++ v, hu.trans hv, fun ha hx => ?_⟩
      rw [avoids, Bool.and_eq_true] at ha
      rcases List.mem_append.mp hx with hx | hx
      · exact hxu ha.1 hx
      · exact hxv ha.2 hx
  | alt r t ihr iht =>
      rw [run, List.mem_append] at h
      rcases h with h | h
      · obtain ⟨w, hw, hx⟩ := ihr h
        exact ⟨w, hw, fun ha => hx ((Bool.and_eq_true _ _).mp ha).1⟩
      · obtain ⟨w, hw, hx⟩ := iht h
        exact ⟨w, hw, fun ha => hx ((Bool.and_eq_true _ _).mp ha).2⟩
  | many greedy p =>
      rw [run, List.mem_map] at h
      obtain ⟨k, hk, rfl⟩ := h
      refine ⟨_, takes_advance s k, fun ha hx => ?_⟩
      have hp := mem_take_takeWhile (le_of_mem_lengths hk) hx
      rw [avoids, Bool.not_eq_true', hp] at ha
      cases ha
  | group n r ih =>
      rw [run, List.mem_map] at h
      obtain ⟨s₁, h₁, rfl⟩ := h
      obtain ⟨w, hw, hx⟩ := ih h₁
      refine ⟨w, ⟨?_, hw.rest⟩, hx⟩
      rw [close, hw.taken, List.nil_append]
  | notBehind p => exact ⟨[], takes_stay_not h, fun _ => List.not_mem_nil⟩
  | notAhead p => exact ⟨[], takes_stay_not h, fun _ => List.not_mem_nil⟩
  | boundary word => exact ⟨[], takes_stay h, fun _ => List.not_mem_nil⟩
  | atStart => exact ⟨[], takes_stay h, fun _ => List.not_mem_nil⟩
  | atEnd => exact ⟨[], takes_stay h, fun _ => List.not_mem_nil⟩

/-- What is taken holds nothing that the pattern avoids. -/
theorem Takes.not_mem {x : Char} {r : Pattern} {s s' : Position} {w : List Char}
    (hw : Takes s s' w) (h : s' ∈ run r s) (hr : r.avoids x = true) : x ∉ w := by
  obtain ⟨w', hw', hx⟩ := run_takes x h
  have he : s.taken ++ w = s.taken ++ w' := hw.taken.symm.trans hw'.taken
  rw [List.append_cancel_left he]
  exact hx hr

/-- A run of characters of a set is taken. -/
theorem run_some {p : Char → Bool} {s s' : Position} (h : s' ∈ run (some_ p) s) :
    ∃ w, Takes s s' w ∧ ∀ c ∈ w, p c = true := by
  obtain ⟨w, hw, -⟩ := run_takes ' ' h
  refine ⟨w, hw, fun c hc => ?_⟩
  by_contra hp
  have hr : (some_ p).avoids c = true := by
    rw [some_, avoids, avoids, avoids, Bool.not_eq_true _ |>.mp hp]
    rfl
  exact hw.not_mem h hr hc

/-- A word is taken, up to its case. -/
theorem run_literal {fold : Char → Char} {word : List Char} {s s' : Position}
    (h : s' ∈ run (literal fold word) s) : ∃ w, Takes s s' w ∧ w.map fold = word := by
  induction word generalizing s with
  | nil =>
      rw [literal, List.foldr_nil, run, List.mem_singleton] at h
      exact ⟨[], h ▸ Takes.refl s, rfl⟩
  | cons c word ih =>
      have h : s' ∈ run (seq (set fun d => fold d == c) (literal fold word)) s := h
      rw [run, List.mem_flatMap] at h
      obtain ⟨s₁, h₁, h₂⟩ := h
      obtain ⟨d, hd, hfold⟩ := run_set h₁
      obtain ⟨w, hw, hmap⟩ := ih h₂
      refine ⟨d :: w, hd.trans hw, ?_⟩
      rw [List.map_cons, hmap, beq_iff_eq.mp hfold]

theorem run_groups {r : Pattern} (hr : r.groupless = true) {s s' : Position} (h : s' ∈ run r s) :
    s'.groups = s.groups := by
  -- An assertion goes on from where it is, or not at all.
  have hstay : ∀ {s s' : Position} {b : Prop} [Decidable b],
      s' ∈ (if b then [s] else []) → s'.groups = s.groups := by
    intro s s' b _ hs
    split at hs
    · rw [List.mem_singleton] at hs
      rw [hs]
    · cases hs
  induction r generalizing s s' with
  | empty =>
      rw [run, List.mem_singleton] at h
      rw [h]
  | set p =>
      rw [run] at h
      split at h
      · rw [List.mem_singleton] at h
        rw [h]
        rfl
      · cases h
  | seq r t ihr iht =>
      rw [groupless, Bool.and_eq_true] at hr
      rw [run, List.mem_flatMap] at h
      obtain ⟨s₁, h₁, h₂⟩ := h
      rw [iht hr.2 h₂, ihr hr.1 h₁]
  | alt r t ihr iht =>
      rw [groupless, Bool.and_eq_true] at hr
      rw [run, List.mem_append] at h
      rcases h with h | h
      · exact ihr hr.1 h
      · exact iht hr.2 h
  | many greedy p =>
      rw [run, List.mem_map] at h
      obtain ⟨k, -, rfl⟩ := h
      rfl
  | group n r ih => cases hr
  | notBehind p | notAhead p =>
      rw [run, ← ite_not] at h
      exact hstay h
  | boundary word | atStart | atEnd => exact hstay h

theorem run_consumes {r : Pattern} (hr : r.consumes = true) {s s' : Position}
    (h : s' ∈ run r s) : s.taken.length < s'.taken.length := by
  have hmono {r : Pattern} {s s' : Position} (h : s' ∈ run r s) :
      s.taken.length ≤ s'.taken.length := by
    obtain ⟨w, hw, -⟩ := run_takes ' ' h
    rw [hw.taken, List.length_append]
    exact Nat.le_add_right _ _
  induction r generalizing s s' with
  | set p =>
      obtain ⟨c, hc, -⟩ := run_set h
      rw [hc.taken, List.length_append]
      exact Nat.lt_succ_self _
  | seq r t ihr iht =>
      rw [run, List.mem_flatMap] at h
      obtain ⟨s₁, h₁, h₂⟩ := h
      rw [consumes, Bool.or_eq_true] at hr
      rcases hr with hr | hr
      · exact Nat.lt_of_lt_of_le (ihr hr h₁) (hmono h₂)
      · exact Nat.lt_of_le_of_lt (hmono h₁) (iht hr h₂)
  | alt r t ihr iht =>
      rw [run, List.mem_append] at h
      rw [consumes, Bool.and_eq_true] at hr
      rcases h with h | h
      · exact ihr hr.1 h
      · exact iht hr.2 h
  | group n r ih =>
      rw [run, List.mem_map] at h
      obtain ⟨s₁, h₁, rfl⟩ := h
      have hinner : 0 < s₁.taken.length := ih hr h₁
      rw [close, List.length_append]
      omega
  | empty | many | notBehind | notAhead | boundary | atStart | atEnd => cases hr

/-- A match does not end with what its last part cannot take. -/
theorem run_seq_last {x : Char} {r t : Pattern} (hc : t.consumes = true) (hx : t.avoids x = true)
    {s s' : Position} (h : s' ∈ run (seq r t) s) : s'.taken.getLast? ≠ some x := by
  rw [run, List.mem_flatMap] at h
  obtain ⟨s₁, -, h₂⟩ := h
  obtain ⟨w, hw, hno⟩ := run_takes x h₂
  have hlt := run_consumes hc h₂
  have hne : w ≠ [] := by
    intro he
    rw [hw.taken, he, List.append_nil] at hlt
    exact Nat.lt_irrefl _ hlt
  rw [hw.taken, List.getLast?_append_of_ne_nil _ hne]
  exact fun he => hno hx (List.mem_of_getLast? he)

/-- A group and what follows it: the group is the beginning of the match. -/
theorem run_group_seq (x : Char) {n : Nat} {r t : Pattern} (ht : t.groupless = true)
    {s s' : Position} (hs : s.taken = []) (h : s' ∈ run (seq (group n r) t) s) :
    ∃ w, s'.taken = s'.group n ++ w ∧ (r.avoids x = true → x ∉ s'.group n) ∧
      (t.avoids x = true → x ∉ w) := by
  rw [run, List.mem_flatMap] at h
  obtain ⟨s₁, h₁, h₂⟩ := h
  rw [run, List.mem_map] at h₁
  obtain ⟨s₀, h₀, rfl⟩ := h₁
  obtain ⟨u, hu, hxu⟩ := run_takes x h₀
  obtain ⟨w, hw, hxw⟩ := run_takes x h₂
  have hgroup : s'.group n = u := by
    rw [Position.group, run_groups ht h₂, close, List.lookup_cons, beq_self_eq_true]
    exact hu.taken
  refine ⟨w, ?_, fun ha => hgroup ▸ hxu ha, hxw⟩
  rw [hgroup, hw.taken, close, hs, hu.taken]
  rfl

/-! ### Segments -/

theorem mem_run_of_find {r : Pattern} {last : Option Char} {rest : List Char} {m : Position}
    (h : find r last rest = some m) : m ∈ run r ⟨last, [], rest, []⟩ :=
  List.mem_of_head? h

/-- A match takes what the text goes on with. -/
theorem find_takes {r : Pattern} {last : Option Char} {rest : List Char} {m : Position}
    (h : find r last rest = some m) : rest = m.taken ++ m.rest := by
  obtain ⟨w, hw, -⟩ := run_takes ' ' (mem_run_of_find h)
  rw [hw.taken]
  exact hw.rest

theorem segments_char {r : Pattern} {n : Nat} {last : Option Char} {c : Char} {cs : List Char}
    (h : ∀ m, find r last (c :: cs) = some m → m.taken = []) :
    segments r (n + 1) last (c :: cs) = .char c :: segments r n (some c) cs := by
  rw [segments]
  cases hm : find r last (c :: cs) with
  | none => rfl
  | some m => exact if_pos (h m hm)

theorem segments_found {r : Pattern} {n : Nat} {last : Option Char} {c : Char} {cs : List Char}
    {m : Position} (h : find r last (c :: cs) = some m) (hm : m.taken ≠ []) :
    segments r (n + 1) last (c :: cs) = .found m :: segments r n m.last m.rest := by
  rw [segments, h]
  exact if_neg hm

theorem rest_length {r : Pattern} {last : Option Char} {c : Char} {cs : List Char} {m : Position}
    (h : find r last (c :: cs) = some m) (hm : m.taken ≠ []) : m.rest.length ≤ cs.length := by
  have hlength := congrArg List.length (find_takes h)
  rw [List.length_cons, List.length_append] at hlength
  have := List.length_pos_of_ne_nil hm
  omega

/-- A place of a text has a match that takes something, or none. -/
theorem find_cases (r : Pattern) (last : Option Char) (text : List Char) :
    (∃ m, find r last text = some m ∧ m.taken ≠ []) ∨
      ∀ m, find r last text = some m → m.taken = [] := by
  by_cases h : ∃ m, find r last text = some m ∧ m.taken ≠ []
  · exact .inl h
  · exact .inr fun m hm => by
      by_contra hne
      exact h ⟨m, hm, hne⟩

theorem source_segments {r : Pattern} {n : Nat} {last : Option Char} {text : List Char}
    (hn : text.length ≤ n) : (segments r n last text).flatMap Segment.source = text := by
  induction n generalizing last text with
  | zero =>
      rw [List.length_eq_zero_iff.mp (Nat.le_zero.mp hn)]
      rfl
  | succ n ih =>
      cases text with
      | nil => rfl
      | cons c cs =>
          have hcs : cs.length ≤ n := Nat.le_of_succ_le_succ hn
          obtain ⟨m, hm, hne⟩ | hnone := find_cases r last (c :: cs)
          · rw [segments_found hm hne, List.flatMap_cons, ih ((rest_length hm hne).trans hcs)]
            exact (find_takes hm).symm
          · rw [segments_char hnone, List.flatMap_cons, ih hcs]
            rfl

theorem mem_segments {r : Pattern} {n : Nat} {last : Option Char} {text : List Char} {m : Position}
    (h : .found m ∈ segments r n last text) :
    ∃ last' rest, m ∈ run r ⟨last', [], rest, []⟩ ∧ m.taken ≠ [] := by
  induction n generalizing last text with
  | zero => cases h
  | succ n ih =>
      cases text with
      | nil => cases h
      | cons c cs =>
          obtain ⟨m', hm, hne⟩ | hnone := find_cases r last (c :: cs)
          · rw [segments_found hm hne] at h
            rcases List.mem_cons.mp h with he | h
            · cases he
              exact ⟨last, c :: cs, mem_run_of_find hm, hne⟩
            · exact ih h
          · rw [segments_char hnone] at h
            exact ih ((List.mem_cons.mp h).resolve_left nofun)

theorem mem_matchesOf {r : Pattern} {text : List Char} {m : Position} :
    m ∈ matchesOf r text ↔ .found m ∈ segmentsOf r text := by
  rw [matchesOf, List.mem_filterMap]
  constructor
  · rintro ⟨s, hs, h⟩
    cases s with
    | char c => cases h
    | found m' => exact Option.some.inj h ▸ hs
  · intro h
    exact ⟨_, h, rfl⟩

/-! ### Counting -/

theorem count_segments (x : Char) (f : Position → List Char) {l : List Segment}
    (h : ∀ m, .found m ∈ l → (f m).count x ≤ m.taken.count x) :
    (l.flatMap (Segment.target f)).count x ≤ (l.flatMap Segment.source).count x ∧
      ((l.flatMap (Segment.target f)).count x = (l.flatMap Segment.source).count x ↔
        ∀ m, .found m ∈ l → (f m).count x = m.taken.count x) := by
  induction l with
  | nil => exact ⟨Nat.le_refl _, fun _ => nofun, fun _ => rfl⟩
  | cons s l ih =>
      obtain ⟨hle, hiff⟩ := ih fun m hm => h m (List.mem_cons_of_mem _ hm)
      have hhead : (s.target f).count x ≤ s.source.count x := by
        cases s with
        | char c => exact Nat.le_refl _
        | found m => exact h m List.mem_cons_self
      simp only [List.flatMap_cons, List.count_append]
      refine ⟨by omega, fun he m hm => ?_, fun hall => ?_⟩
      · rcases List.mem_cons.mp hm with rfl | hm
        · show (Segment.target f (.found m)).count x = (Segment.source (.found m)).count x
          omega
        · exact hiff.mp (by omega) m hm
      · rw [hiff.mpr fun m hm => hall m (List.mem_cons_of_mem _ hm)]
        cases s with
        | char c => rfl
        | found m => rw [show (Segment.target f (.found m)).count x = _ from
            hall m List.mem_cons_self]; rfl

/-- A substitution that adds none keeps their number if and only if every match does. -/
theorem count_sub (x : Char) {r : Pattern} {f : Position → List Char} {text : List Char}
    (h : ∀ m ∈ matchesOf r text, (f m).count x ≤ m.taken.count x) :
    (sub r f text).count x ≤ text.count x ∧
      ((sub r f text).count x = text.count x ↔
        ∀ m ∈ matchesOf r text, (f m).count x = m.taken.count x) := by
  have hcount := count_segments x f (l := segmentsOf r text) fun m hm =>
    h m (mem_matchesOf.mpr hm)
  rw [segmentsOf, source_segments (Nat.le_refl _)] at hcount
  refine ⟨hcount.1, hcount.2.trans ⟨fun hall m hm => hall m (mem_matchesOf.mp hm),
    fun hall m hm => hall m (mem_matchesOf.mpr hm)⟩⟩

theorem infix_segments {s u : List Char} {f : Position → List Char} {l : List Segment}
    (h : ∀ m, .found m ∈ l → ∃ kept mark, f m = kept ++ mark ∧ kept <+: m.taken ∧
      Replace.Apart s mark) (hs : s <:+: u ++ l.flatMap (Segment.target f)) :
    s <:+: u ++ l.flatMap Segment.source := by
  induction l generalizing u with
  | nil => exact hs
  | cons x l ih =>
      have hl := fun m hm => h m (List.mem_cons_of_mem x hm)
      rw [List.flatMap_cons] at hs ⊢
      cases x with
      | char c =>
          rw [← List.append_assoc] at hs ⊢
          exact ih hl hs
      | found m =>
          obtain ⟨kept, mark, hf, hkept, hapart⟩ := h m List.mem_cons_self
          have hs : s <:+: (u ++ kept) ++ (mark ++ l.flatMap (Segment.target f)) := by
            rw [Segment.target, hf] at hs
            simpa only [List.append_assoc] using hs
          rcases Replace.infix_of_apart hapart hs with hbefore | hafter
          · obtain ⟨w, hw⟩ := hkept
            refine hbefore.trans ⟨[], w ++ l.flatMap Segment.source, ?_⟩
            rw [Segment.source, ← hw]
            simp only [List.nil_append, List.append_assoc]
          · have hrest : s <:+: l.flatMap Segment.source := @ih [] hl hafter
            exact hrest.trans ⟨u ++ m.taken, [], by simp [Segment.source]⟩

/-- What is apart from the marks, and in the text after a substitution, was in it before. -/
theorem infix_sub {s text : List Char} {r : Pattern} {f : Position → List Char}
    (h : ∀ m ∈ matchesOf r text, ∃ kept mark, f m = kept ++ mark ∧ kept <+: m.taken ∧
      Replace.Apart s mark) (hs : s <:+: sub r f text) : s <:+: text := by
  have hall := @infix_segments s [] f (segmentsOf r text)
    (fun m hm => h m (mem_matchesOf.mpr hm)) hs
  rwa [List.nil_append, segmentsOf, source_segments (Nat.le_refl _)] at hall

/-- A character that ends no match stays the last. -/
theorem sub_last {x : Char} {r : Pattern} {f : Position → List Char} {text : List Char}
    (h : ∀ m ∈ matchesOf r (text ++ [x]), m.taken.getLast? ≠ some x) :
    ∃ t, sub r f (text ++ [x]) = t ++ [x] := by
  have hsource : (segmentsOf r (text ++ [x])).flatMap Segment.source = text ++ [x] :=
    source_segments (Nat.le_refl _)
  rcases List.eq_nil_or_concat (segmentsOf r (text ++ [x])) with hnil | ⟨l, last, hl⟩
  · rw [hnil] at hsource
    exact absurd hsource.symm (List.append_ne_nil_of_right_ne_nil _ (List.cons_ne_nil x []))
  · rw [List.concat_eq_append] at hl
    rw [hl, List.flatMap_append, List.flatMap_singleton] at hsource
    cases last with
    | char c =>
        obtain ⟨-, hc⟩ := List.append_inj' hsource rfl
        obtain rfl := (List.cons.inj hc).1
        refine ⟨l.flatMap (Segment.target f), ?_⟩
        rw [sub, hl, List.flatMap_append, List.flatMap_singleton]
        rfl
    | found m =>
        have hm : .found m ∈ segmentsOf r (text ++ [x]) :=
          hl ▸ List.mem_append_right _ (List.mem_singleton_self _)
        obtain ⟨-, -, -, hne⟩ := mem_segments hm
        have hlast := congrArg List.getLast? hsource
        rw [Segment.source, List.getLast?_append_of_ne_nil _ hne, List.getLast?_concat] at hlast
        exact absurd hlast (h m (mem_matchesOf.mpr hm))

/-- A match of a pattern is a way through it. -/
theorem matchesOf_run {r : Pattern} {text : List Char} {m : Position} (h : m ∈ matchesOf r text) :
    ∃ last rest, m ∈ run r ⟨last, [], rest, []⟩ :=
  let ⟨last, rest, hm, _⟩ := mem_segments (mem_matchesOf.mp h)
  ⟨last, rest, hm⟩

/-- A match of a group and what follows it, after a pattern that takes nothing. -/
theorem matchesOf_group (x : Char) {n : Nat} {a r t : Pattern}
    (ha : ∀ s s', s' ∈ run a s → s' = s) (ht : t.groupless = true) {text : List Char} {m : Position}
    (h : m ∈ matchesOf (seq a (seq (group n r) t)) text) :
    ∃ w, m.taken = m.group n ++ w ∧ (r.avoids x = true → x ∉ m.group n) ∧
      (t.avoids x = true → x ∉ w) := by
  obtain ⟨last, rest, hm⟩ := matchesOf_run h
  rw [run, List.mem_flatMap] at hm
  obtain ⟨s, hs, hm⟩ := hm
  exact run_group_seq x ht (by rw [ha _ _ hs]) hm

/-- A match is part of the text. -/
theorem infix_taken {r : Pattern} {text : List Char} {m : Position} (h : m ∈ matchesOf r text) :
    m.taken <:+: text := by
  obtain ⟨l₁, l₂, hl⟩ := List.append_of_mem (mem_matchesOf.mp h)
  have hsource : (segmentsOf r text).flatMap Segment.source = text :=
    source_segments (Nat.le_refl _)
  rw [hl, List.flatMap_append, List.flatMap_cons, ← List.append_assoc] at hsource
  exact ⟨_, _, hsource⟩

theorem run_notBehind {p : Char → Bool} (s s' : Position) (h : s' ∈ run (notBehind p) s) :
    s' = s := by
  rw [run] at h
  split at h
  · cases h
  · exact List.mem_singleton.mp h

theorem run_boundary {word : Char → Bool} (s s' : Position) (h : s' ∈ run (boundary word) s) :
    s' = s := by
  rw [run] at h
  split at h
  · exact List.mem_singleton.mp h
  · cases h

end Pattern

end Orchestrator
