import Mathlib.Data.List.Basic
import Mathlib.Logic.Function.Iterate

/-!
# Text — percent-decoding

`urllib.parse.unquote`: the escapes of a text become bytes, and the bytes are read as UTF-8, each
maximal ill-formed part as U+FFFD.

* `unescape`, `decode`, `unquote`: escapes to bytes, bytes to characters, and both.
* `unquote_append_cons`: a character no escape is made of cuts the text in two.
* `unquote_eq_or_shorter`, `unquote_iterate`: decoding again and again comes to rest.
-/

namespace Orchestrator.Percent

/-! ### Bytes -/

/-- What a character of the text, or an escape, stands for. -/
inductive Piece where
  | byte (b : Nat)
  | char (c : Char)

def hexValue (c : Char) : Option Nat :=
  if '0' ≤ c ∧ c ≤ '9' then some (c.toNat - 48)
  else if 'a' ≤ c ∧ c ≤ 'f' then some (c.toNat - 87)
  else if 'A' ≤ c ∧ c ≤ 'F' then some (c.toNat - 55)
  else none

/-- The byte two hexadecimal digits name. -/
def escaped (a b : Char) : Option Nat := do
  let high ← hexValue a
  let low ← hexValue b
  return 16 * high + low

/-- A character that is not part of an escape. -/
def plain (c : Char) : Piece := if c.toNat < 128 then .byte c.toNat else .char c

/-- A `%` that no two hexadecimal digits follow stands for itself. -/
def unescape : List Char → List Piece
  | [] => []
  | [c] => [plain c]
  | [c, a] => [plain c, plain a]
  | c :: a :: b :: cs =>
      match if c = '%' then escaped a b else none with
      | some byte => .byte byte :: unescape cs
      | none => plain c :: unescape (a :: b :: cs)

/-! ### UTF-8 -/

def replacement : Char := '\uFFFD'

/-- A character that has begun: the next byte lies between `low` and `high`, and `more` bytes
follow it. -/
structure Pending where
  more : Nat
  low : Nat
  high : Nat
  value : Nat
  beyond : 128 ≤ low

/-- A first byte: the characters it completes, and the one it begins. -/
def lead (b : Nat) : List Char × Option Pending :=
  if b < 0x80 then ([Char.ofNat b], none)
  else if 0xC2 ≤ b ∧ b ≤ 0xDF then ([], some ⟨0, 0x80, 0xBF, b % 32, by decide⟩)
  else if b = 0xE0 then ([], some ⟨1, 0xA0, 0xBF, 0, by decide⟩)
  else if b = 0xED then ([], some ⟨1, 0x80, 0x9F, 13, by decide⟩)
  else if 0xE1 ≤ b ∧ b ≤ 0xEF then ([], some ⟨1, 0x80, 0xBF, b % 16, by decide⟩)
  else if b = 0xF0 then ([], some ⟨2, 0x90, 0xBF, 0, by decide⟩)
  else if 0xF1 ≤ b ∧ b ≤ 0xF3 then ([], some ⟨2, 0x80, 0xBF, b % 8, by decide⟩)
  else if b = 0xF4 then ([], some ⟨2, 0x80, 0x8F, 4, by decide⟩)
  else ([replacement], none)

/-- The next byte of a character that has begun, where it fits. -/
def Pending.take (p : Pending) (b : Nat) : List Char × Option Pending :=
  let value := p.value * 64 + b % 64
  match p.more with
  | 0 => ([Char.ofNat value], none)
  | n + 1 => ([], some ⟨n, 0x80, 0xBF, value, by decide⟩)

/-- What is left of a character that does not go on. -/
def flush : Option Pending → List Char
  | none => []
  | some _ => [replacement]

/-- One piece of the text. -/
def step (p : Option Pending) : Piece → List Char × Option Pending
  | .char c => (flush p ++ [c], none)
  | .byte b =>
      match p.filter fun q => q.low ≤ b ∧ b ≤ q.high with
      | some q => q.take b
      | none => (flush p ++ (lead b).1, (lead b).2)

def decode : Option Pending → List Piece → List Char
  | p, [] => flush p
  | p, x :: xs => (step p x).1 ++ decode (step p x).2 xs

/-- `unquote(text)`. -/
def unquote (s : List Char) : List Char := decode none (unescape s)

/-! ### Cuts -/

/-- Neither `%` nor a hexadecimal digit. -/
def cuts (c : Char) : Bool := c != '%' && (hexValue c).isNone

theorem escaped_right {a c : Char} (hc : cuts c = true) : escaped a c = none := by
  simp only [cuts, Bool.and_eq_true, Option.isNone_iff_eq_none] at hc
  simp [escaped, hc.2]

theorem escaped_left {c b : Char} (hc : cuts c = true) : escaped c b = none := by
  simp only [cuts, Bool.and_eq_true, Option.isNone_iff_eq_none] at hc
  simp [escaped, hc.2]

theorem unescape_cons {c : Char} (hc : c ≠ '%') (cs : List Char) :
    unescape (c :: cs) = plain c :: unescape cs := by
  cases cs with
  | nil => rfl
  | cons a cs =>
      cases cs with
      | nil => rfl
      | cons b cs => rw [unescape, if_neg hc]

/-- An escape does not reach over a character that cuts. -/
theorem unescape_append_cons {c : Char} (hc : cuts c = true) (x y : List Char) :
    unescape (x ++ c :: y) = unescape x ++ plain c :: unescape y := by
  have hne : c ≠ '%' := by
    intro h
    subst h
    exact absurd hc (by decide)
  fun_induction unescape x with
  | case1 => exact unescape_cons hne y
  | case2 d =>
      cases y with
      | nil => rfl
      | cons b y =>
          -- The digits of an escape would be `c` and `b`.
          simp only [List.cons_append, List.nil_append, unescape, escaped_left hc, ite_self]
          rw [unescape_cons hne]
  | case3 d a =>
      simp only [List.cons_append, List.nil_append, unescape, escaped_right hc, ite_self]
      cases y with
      | nil => rfl
      | cons b y =>
          simp only [unescape, escaped_left hc, ite_self]
          rw [unescape_cons hne]
  | case4 d a b cs byte h ih =>
      simp only [List.cons_append, unescape, h, ih]
  | case5 d a b cs h ih =>
      simp only [List.cons_append, unescape, h] at ih ⊢
      rw [ih]

theorem step_plain {c : Char} (p : Option Pending) : step p (plain c) = (flush p ++ [c], none) := by
  unfold plain
  split
  · next h =>
      have hn : (p.filter fun q => q.low ≤ c.toNat ∧ c.toNat ≤ q.high) = none := by
        cases p with
        | none => rfl
        | some q =>
            have := q.beyond
            rw [Option.filter_eq_none_iff]
            intro q' hq hin
            cases hq
            simp only [decide_eq_true_eq] at hin
            omega
      simp only [step, hn, lead, if_pos h, Char.ofNat_toNat]
  · rfl

theorem decode_append_plain (p : Option Pending) (c : Char) (xs ys : List Piece) :
    decode p (xs ++ plain c :: ys) = decode p xs ++ c :: decode none ys := by
  induction xs generalizing p with
  | nil => simp only [List.nil_append, decode, step_plain, List.append_assoc]; rfl
  | cons x xs ih => simp only [List.cons_append, decode, ih, List.append_assoc]

/-- A character that cuts stays where it is, and what is before and after it is decoded apart. -/
theorem unquote_append_cons {c : Char} (hc : cuts c = true) (x y : List Char) :
    unquote (x ++ c :: y) = unquote x ++ c :: unquote y := by
  rw [unquote, unescape_append_cons hc, decode_append_plain]
  rfl

theorem unquote_cons {c : Char} (hc : cuts c = true) (y : List Char) :
    unquote (c :: y) = c :: unquote y :=
  unquote_append_cons hc [] y

theorem mem_unquote {c : Char} (hc : cuts c = true) {s : List Char} (h : c ∈ s) :
    c ∈ unquote s := by
  obtain ⟨x, y, rfl⟩ := List.append_of_mem h
  rw [unquote_append_cons hc]
  exact List.mem_append_right _ List.mem_cons_self

/-- The parts of a decoded text are the parts of its decoded parts. -/
theorem splitOn_unquote {c : Char} (hc : cuts c = true) (s : List Char) :
    (unquote s).splitOn c = (s.splitOn c).flatMap fun part => (unquote part).splitOn c := by
  induction h : s.length using Nat.strongRecOn generalizing s with
  | ind n ih =>
      by_cases hm : c ∈ s
      · obtain ⟨x, y, rfl, hx⟩ := List.eq_append_cons_of_mem hm
        have hy := ih y.length (by simp at h; omega) y rfl
        rw [unquote_append_cons hc, List.splitOn_append_cons_self, hy,
          List.splitOn_append_cons_self, List.splitOn_eq_singleton hx]
        simp
      · rw [List.splitOn_eq_singleton hm]
        simp

/-! ### Rest -/

theorem decode_plain (s : List Char) : decode none (s.map plain) = s := by
  induction s with
  | nil => rfl
  | cons c s ih => rw [List.map_cons, decode, step_plain, ih]; rfl

/-- A text without escapes is its own pieces. -/
theorem unescape_eq_or_shorter (s : List Char) :
    unescape s = s.map plain ∨ (unescape s).length < s.length := by
  fun_induction unescape s with
  | case1 => exact .inl rfl
  | case2 c => exact .inl rfl
  | case3 c a => exact .inl rfl
  | case4 c a b cs byte h ih =>
      right
      rcases ih with ih | ih
      · simp [ih]
      · simp only [List.length_cons]; omega
  | case5 c a b cs h ih =>
      rcases ih with ih | ih
      · exact .inl (by rw [ih]; rfl)
      · right
        simp only [List.length_cons] at ih ⊢
        omega

/-- The characters a pending one may still give. -/
def owed (p : Option Pending) : Nat := (flush p).length

theorem lead_length (b : Nat) : (lead b).1.length + owed (lead b).2 = 1 := by
  unfold lead
  split_ifs <;> rfl

theorem step_length (p : Option Pending) (x : Piece) :
    (step p x).1.length + owed (step p x).2 ≤ owed p + 1 := by
  cases x with
  | char c => simp [step, owed, flush]
  | byte b =>
      rw [step]
      split
      · next q hq =>
          obtain ⟨rfl, -⟩ := Option.filter_eq_some_iff.mp hq
          unfold Pending.take
          split <;> simp [owed, flush]
      · have := lead_length b
        simp only [List.length_append]
        unfold owed at *
        omega

theorem decode_length (p : Option Pending) (xs : List Piece) :
    (decode p xs).length ≤ owed p + xs.length := by
  induction xs generalizing p with
  | nil => exact Nat.le_refl _
  | cons x xs ih =>
      have h := ih (step p x).2
      have hs := step_length p x
      simp only [decode, List.length_append, List.length_cons]
      omega

theorem unquote_eq_or_shorter (s : List Char) : unquote s = s ∨ (unquote s).length < s.length := by
  rcases unescape_eq_or_shorter s with h | h
  · exact .inl (by rw [unquote, h, decode_plain])
  · have hd : (unquote s).length ≤ 0 + (unescape s).length := decode_length none _
    exact .inr (by omega)

/-- As many decodings as the text has characters leave nothing to decode. -/
theorem unquote_iterate {n : Nat} {s : List Char} (h : s.length ≤ n) :
    unquote (unquote^[n] s) = unquote^[n] s := by
  induction n generalizing s with
  | zero =>
      rcases unquote_eq_or_shorter s with hs | hs
      · exact hs
      · omega
  | succ n ih =>
      rw [Function.iterate_succ_apply]
      rcases unquote_eq_or_shorter s with hs | hs
      · rw [hs, Function.iterate_fixed hs, hs]
      · exact ih (by omega)

/-- What further decodings can only lose, every decoding has once the text is at rest. -/
theorem forall_iterate_iff {P : List Char → Prop} (hP : ∀ s, P (unquote s) → P s)
    (s : List Char) : (∀ n, P (unquote^[n] s)) ↔ P (unquote^[s.length] s) := by
  refine ⟨fun h => h _, fun h n => ?_⟩
  have later : ∀ k, P (unquote^[s.length + k] s) := by
    intro k
    rw [Nat.add_comm, Function.iterate_add_apply, Function.iterate_fixed (unquote_iterate (Nat.le_refl _))]
    exact h
  have earlier : ∀ k t, P (unquote^[k] t) → P t := by
    intro k
    induction k with
    | zero => exact fun t ht => ht
    | succ k ih =>
        intro t ht
        rw [Function.iterate_succ_apply] at ht
        exact hP t (ih _ ht)
  -- From the `n`-th decoding on, one can go on until the text is at rest.
  have hn := later n
  rw [Function.iterate_add_apply] at hn
  exact earlier _ _ hn

end Orchestrator.Percent
