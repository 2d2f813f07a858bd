import Orchestrator.Text.Percent
import Mathlib.Data.List.Infix

/-!
# Text — UTF-8

Texts as bytes, and bytes read as text, where ill-formed parts are replaced or left out.

* `encode`: `text.encode("utf-8")`.
* `decodeWith`, `decodeReplace`, `decodeIgnore`: `data.decode("utf-8", errors=…)`.
* `decodeWith_encode`: what was encoded is read back.
* `decodeIgnore_drop`: of a cut text a suffix is read, and it is no longer than what was left.
-/

namespace Orchestrator.Utf8

open Percent (Pending replacement)

def encode (s : List Char) : List UInt8 := s.flatMap String.utf8EncodeChar

/-- A first byte, where `mark` stands for one that is none. -/
def lead (mark : List Char) (b : UInt8) : List Char × Option Pending :=
  if b.toNat < 0x80 ∨ 0xC2 ≤ b.toNat ∧ b.toNat ≤ 0xF4 then Percent.lead b.toNat else (mark, none)

/-- What stands for a character that does not go on. -/
def flush (mark : List Char) : Option Pending → List Char
  | none => []
  | some _ => mark

def step (mark : List Char) (p : Option Pending) (b : UInt8) : List Char × Option Pending :=
  match p.filter fun q => q.low ≤ b.toNat ∧ b.toNat ≤ q.high with
  | some q => q.take b.toNat
  | none => (flush mark p ++ (lead mark b).1, (lead mark b).2)

/-- Each maximal ill-formed part is read as `mark`. -/
def decodeWith (mark : List Char) : Option Pending → List UInt8 → List Char
  | p, [] => flush mark p
  | p, b :: bs => (step mark p b).1 ++ decodeWith mark (step mark p b).2 bs

/-- `data.decode("utf-8", errors="replace")`. -/
def decodeReplace (data : List UInt8) : List Char := decodeWith [replacement] none data

/-- `data.decode("utf-8", errors="ignore")`. -/
def decodeIgnore (data : List UInt8) : List Char := decodeWith [] none data

/-! ### Whole characters -/

theorem toNat_ofNat {n : Nat} (h : n < 256) : (UInt8.ofNat n).toNat = n := by
  rw [UInt8.toNat_ofNat']
  exact Nat.mod_eq_of_lt h

/-- Where a character has begun, a byte in the bounds is taken. -/
theorem decodeWith_take {mark : List Char} {q : Pending} {b : UInt8} {bs : List UInt8}
    (h : q.low ≤ b.toNat ∧ b.toNat ≤ q.high) :
    decodeWith mark (some q) (b :: bs) =
      (q.take b.toNat).1 ++ decodeWith mark (q.take b.toNat).2 bs := by
  have hq : ((some q).filter fun q => q.low ≤ b.toNat ∧ b.toNat ≤ q.high) = some q :=
    Option.filter_eq_some_iff.mpr ⟨rfl, decide_eq_true h⟩
  simp only [decodeWith, step, hq]

/-- Where none has, a first byte begins one. -/
theorem decodeWith_lead {mark : List Char} {b : UInt8} {bs : List UInt8} :
    decodeWith mark none (b :: bs) = (lead mark b).1 ++ decodeWith mark (lead mark b).2 bs := rfl

/-- A first byte of the table begins what the table says. -/
theorem decodeWith_first {mark : List Char} {n : Nat} {bs : List UInt8}
    (h : n < 0x80 ∨ 0xC2 ≤ n ∧ n ≤ 0xF4) :
    decodeWith mark none (UInt8.ofNat n :: bs) =
      (Percent.lead n).1 ++ decodeWith mark (Percent.lead n).2 bs := by
  have hn : (UInt8.ofNat n).toNat = n := toNat_ofNat (by omega)
  rw [decodeWith_lead, lead, hn, if_pos h]

/-- The last byte of a character. -/
theorem decodeWith_last {mark : List Char} {low high value n : Nat} {h : 128 ≤ low}
    {bs : List UInt8} (hlow : low ≤ n) (hhigh : n ≤ high) (hn : n < 256) :
    decodeWith mark (some ⟨0, low, high, value, h⟩) (UInt8.ofNat n :: bs) =
      Char.ofNat (value * 64 + n % 64) :: decodeWith mark none bs := by
  have hb : (UInt8.ofNat n).toNat = n := toNat_ofNat hn
  rw [decodeWith_take (by rw [hb]; exact ⟨hlow, hhigh⟩), hb]
  rfl

/-- A byte of a character before the last. -/
theorem decodeWith_more {mark : List Char} {more low high value n : Nat} {h : 128 ≤ low}
    {bs : List UInt8} (hlow : low ≤ n) (hhigh : n ≤ high) (hn : n < 256) :
    decodeWith mark (some ⟨more + 1, low, high, value, h⟩) (UInt8.ofNat n :: bs) =
      decodeWith mark (some ⟨more, 0x80, 0xBF, value * 64 + n % 64, by decide⟩) bs := by
  have hb : (UInt8.ofNat n).toNat = n := toNat_ofNat hn
  rw [decodeWith_take (by rw [hb]; exact ⟨hlow, hhigh⟩), hb]
  rfl

/-- A character is read back from its bytes. -/
theorem decodeWith_char (mark : List Char) (c : Char) (bs : List UInt8) :
    decodeWith mark none (String.utf8EncodeChar c ++ bs) = c :: decodeWith mark none bs := by
  have hvalid : c.toNat < 0xd800 ∨ 0xdfff < c.toNat ∧ c.toNat < 0x110000 := c.valid
  have hc : Char.ofNat c.toNat = c := Char.ofNat_toNat c
  have hval : c.val.toNat = c.toNat := rfl
  simp only [String.utf8EncodeChar, hval]
  generalize c.toNat = v at hvalid hc ⊢
  have hread {w : Nat} (h : w = v) : Char.ofNat w = c := h ▸ hc
  by_cases h1 : v ≤ 0x7f
  · rw [if_pos h1]
    change decodeWith mark none (UInt8.ofNat v :: bs) = _
    rw [decodeWith_first (by omega), Percent.lead, if_pos (by omega), hc]
    rfl
  by_cases h2 : v ≤ 0x7ff
  · rw [if_neg h1, if_pos h2]
    change decodeWith mark none (UInt8.ofNat (v / 64 % 0x20 + 0xc0) ::
      UInt8.ofNat (v % 0x40 + 0x80) :: bs) = _
    rw [decodeWith_first (by omega), Percent.lead, if_neg (by omega), if_pos (by omega)]
    refine (decodeWith_last (by omega) (by omega) (by omega)).trans ?_
    rw [hread (by omega)]
  by_cases h3 : v ≤ 0xffff
  · rw [if_neg h1, if_neg h2, if_pos h3]
    change decodeWith mark none (UInt8.ofNat (v / 4096 % 0x10 + 0xe0) ::
      UInt8.ofNat (v / 64 % 0x40 + 0x80) :: UInt8.ofNat (v % 0x40 + 0x80) :: bs) = _
    rw [decodeWith_first (by omega), Percent.lead, if_neg (by omega), if_neg (by omega)]
    -- The bounds of the second byte keep out long forms and surrogates.
    split_ifs
    all_goals first | omega | skip
    all_goals
      refine (decodeWith_more (by omega) (by omega) (by omega)).trans ?_
      refine (decodeWith_last (by omega) (by omega) (by omega)).trans ?_
      rw [hread (by omega)]
  · rw [if_neg h1, if_neg h2, if_neg h3]
    change decodeWith mark none (UInt8.ofNat (v / 262144 % 0x08 + 0xf0) ::
      UInt8.ofNat (v / 4096 % 0x40 + 0x80) :: UInt8.ofNat (v / 64 % 0x40 + 0x80) ::
        UInt8.ofNat (v % 0x40 + 0x80) :: bs) = _
    rw [decodeWith_first (by omega), Percent.lead, if_neg (by omega), if_neg (by omega),
      if_neg (by omega), if_neg (by omega), if_neg (by omega)]
    split_ifs
    all_goals first | omega | skip
    all_goals
      refine (decodeWith_more (by omega) (by omega) (by omega)).trans ?_
      refine (decodeWith_more (by omega) (by omega) (by omega)).trans ?_
      refine (decodeWith_last (by omega) (by omega) (by omega)).trans ?_
      rw [hread (by omega)]

theorem decodeWith_encode (mark s : List Char) (bs : List UInt8) :
    decodeWith mark none (encode s ++ bs) = s ++ decodeWith mark none bs := by
  induction s with
  | nil => rfl
  | cons c s ih =>
      rw [encode, List.flatMap_cons, List.append_assoc, decodeWith_char, List.cons_append]
      exact congrArg (c :: ·) ih

theorem decodeIgnore_encode (s : List Char) : decodeIgnore (encode s) = s := by
  have h := decodeWith_encode [] s []
  rw [List.append_nil] at h
  exact h.trans (List.append_nil s)

/-! ### Cut texts -/

/-- The bytes after the first continue a character. -/
theorem tail_utf8EncodeChar (c : Char) :
    ∀ b ∈ (String.utf8EncodeChar c).tail, 0x80 ≤ b.toNat ∧ b.toNat ≤ 0xBF := by
  have hbyte (n : Nat) : 0x80 ≤ (UInt8.ofNat (n % 0x40 + 0x80)).toNat ∧
      (UInt8.ofNat (n % 0x40 + 0x80)).toNat ≤ 0xBF := by
    rw [toNat_ofNat (by omega)]
    omega
  intro b hb
  unfold String.utf8EncodeChar at hb
  dsimp only at hb
  split_ifs at hb
  all_goals
    simp only [List.tail_cons, List.mem_cons, List.not_mem_nil, or_false] at hb
  · rw [hb]
    exact hbyte _
  · rcases hb with rfl | rfl <;> exact hbyte _
  · rcases hb with rfl | rfl | rfl <;> exact hbyte _

/-- Bytes that continue nothing are left out. -/
theorem decodeIgnore_tail {tail bs : List UInt8}
    (h : ∀ b ∈ tail, 0x80 ≤ b.toNat ∧ b.toNat ≤ 0xBF) :
    decodeIgnore (tail ++ bs) = decodeIgnore bs := by
  induction tail with
  | nil => rfl
  | cons b tail ih =>
      have hb := h b List.mem_cons_self
      rw [List.cons_append, decodeIgnore, decodeWith_lead, lead, if_neg (by omega)]
      exact ih fun b hb => h b (List.mem_cons_of_mem _ hb)

/-- What is read of a cut text is a suffix of it, and not longer than what was left. -/
theorem decodeIgnore_drop (s : List Char) (k : Nat) :
    decodeIgnore ((encode s).drop k) <:+ s ∧
      (encode (decodeIgnore ((encode s).drop k))).length ≤ (encode s).length - k := by
  induction s generalizing k with
  | nil => simp [encode, decodeIgnore, decodeWith, flush]
  | cons c s ih =>
      have hcons : encode (c :: s) = String.utf8EncodeChar c ++ encode s := List.flatMap_cons
      by_cases hk : (String.utf8EncodeChar c).length ≤ k
      · obtain ⟨hsuffix, hlength⟩ := ih (k - (String.utf8EncodeChar c).length)
        rw [hcons, List.drop_append, List.drop_eq_nil_of_le hk, List.nil_append]
        refine ⟨hsuffix.trans (List.suffix_cons c s), hlength.trans ?_⟩
        rw [List.length_append]
        omega
      cases k with
      | zero =>
          rw [List.drop_zero, decodeIgnore_encode]
          exact ⟨List.suffix_rfl, le_refl _⟩
      | succ k =>
          -- The cut is in the first character, of which nothing can be read.
          have htail : ∀ b ∈ (String.utf8EncodeChar c).drop (k + 1),
              0x80 ≤ b.toNat ∧ b.toNat ≤ 0xBF := by
            intro b hb
            rw [← List.drop_tail] at hb
            exact tail_utf8EncodeChar c b (List.mem_of_mem_drop hb)
          have hzero : k + 1 - (String.utf8EncodeChar c).length = 0 := by omega
          rw [hcons, List.drop_append, hzero, List.drop_zero, decodeIgnore_tail htail,
            decodeIgnore_encode]
          refine ⟨List.suffix_cons c s, ?_⟩
          rw [List.length_append]
          omega

/-! ### Replaced parts -/

/-- Something is read of any data, if what is ill-formed is marked. -/
theorem decodeWith_eq_nil {mark : List Char} (hmark : mark ≠ []) {p : Option Pending}
    {bs : List UInt8} (h : decodeWith mark p bs = []) : p = none ∧ bs = [] := by
  induction bs generalizing p with
  | nil =>
      cases p with
      | none => exact ⟨rfl, rfl⟩
      | some q => exact absurd h hmark
  | cons b bs ih =>
      exfalso
      rw [decodeWith, List.append_eq_nil_iff] at h
      obtain ⟨hnone, rfl⟩ := ih h.2
      have hstep := h.1
      unfold step at hstep hnone
      split at hstep
      · next q hq =>
          rw [hq] at hnone
          dsimp only at hnone
          unfold Percent.Pending.take at hstep hnone
          dsimp only at hstep hnone
          split at hstep
          · cases hstep
          · next hmore => simp only [hmore] at hnone; cases hnone
      · next hq =>
          rw [hq] at hnone
          dsimp only at hnone
          have hlead := (List.append_eq_nil_iff.mp hstep).2
          unfold lead at hlead hnone
          split at hlead
          · next hfirst =>
              rw [if_pos hfirst] at hnone
              have hsum := Percent.lead_length b.toNat
              rw [hlead, hnone] at hsum
              cases hsum
          · exact hmark hlead

theorem decodeReplace_ne_nil {data : List UInt8} (h : data ≠ []) : decodeReplace data ≠ [] :=
  fun hnil => h (decodeWith_eq_nil (List.cons_ne_nil _ _) hnil).2

end Orchestrator.Utf8
