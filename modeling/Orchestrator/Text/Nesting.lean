import Orchestrator.Text.Percent

/-!
# Text — nested escapes

What a text has to contain for a word to stand in one of its decodings.

* `Writes`: a way to write a character, with escapes in escapes so deep; `Spells`: a word.
* `unquote_spelled`: a decoding takes one level off, wherever the word is spelled.
* `unquote_split`: an ASCII character of a decoding has one character or one escape behind it.
* `iterate_spelled_iff`: the decodings in which a word stands.
-/

namespace Orchestrator.Percent

/-! ### Ways to write -/

/-- A way to write `c`: itself, or an escape whose three characters are written in some way. -/
inductive Writes : Nat → Char → List Char → Prop
  | self (c : Char) : Writes 0 c [c]
  | escape {c a b : Char} {p x y : List Char} {i j k : Nat} : Writes i '%' p → Writes j a x →
      Writes k b y → escaped a b = some c.toNat → c.toNat < 128 →
      Writes (max i (max j k) + 1) c (p ++ (x ++ y))

/-- A way to write a word, its deepest character so deep. -/
inductive Spells : Nat → List Char → List Char → Prop
  | nil : Spells 0 [] []
  | cons {n m : Nat} {c : Char} {w cs ws : List Char} : Writes n c w → Spells m cs ws →
      Spells (max n m) (c :: cs) (w ++ ws)

/-- A deep way to write a character starts with the sign of an escape. -/
theorem Writes.start {n : Nat} {c : Char} {w : List Char} (h : Writes n c w) :
    (n = 0 ∧ w = [c]) ∨ ∃ t, w = '%' :: t := by
  induction h with
  | self c => exact .inl ⟨rfl, rfl⟩
  | escape _ _ _ _ _ ihp _ _ =>
      rcases ihp with ⟨-, rfl⟩ | ⟨t, rfl⟩
      · exact .inr ⟨_, rfl⟩
      · exact .inr ⟨_, rfl⟩

/-! ### Escapes in a context -/

theorem escaped_percent {a : Char} : escaped a '%' = none := by
  simp [escaped, hexValue]

theorem percent_escaped {b : Char} : escaped '%' b = none := by
  simp [escaped, hexValue]

/-- A percent sign is no digit. -/
theorem hex_ne_percent {a b : Char} {n : Nat} (h : escaped a b = some n) : a ≠ '%' ∧ b ≠ '%' := by
  constructor
  · rintro rfl
    rw [percent_escaped] at h
    cases h
  · rintro rfl
    rw [escaped_percent] at h
    cases h

theorem hexValue_ascii {c : Char} {n : Nat} (h : hexValue c = some n) : c.toNat < 128 := by
  have hle : ∀ {d : Char}, c ≤ d → c.toNat ≤ d.toNat := fun h => h
  unfold hexValue at h
  split at h
  · next hc => exact Nat.lt_of_le_of_lt (hle hc.2) (by decide)
  · split at h
    · next hc => exact Nat.lt_of_le_of_lt (hle hc.2) (by decide)
    · split at h
      · next hc => exact Nat.lt_of_le_of_lt (hle hc.2) (by decide)
      · cases h

theorem escaped_ascii {a b : Char} {n : Nat} (h : escaped a b = some n) :
    a.toNat < 128 ∧ b.toNat < 128 := by
  obtain ⟨high, ha, h⟩ := Option.bind_eq_some_iff.mp h
  obtain ⟨low, hb, -⟩ := Option.bind_eq_some_iff.mp h
  exact ⟨hexValue_ascii ha, hexValue_ascii hb⟩

/-- A first character that no escape follows stands for itself. -/
theorem unescape_cons_of {c : Char} {cs : List Char}
    (h : ∀ a b t, cs = a :: b :: t → c = '%' → escaped a b = none) :
    unescape (c :: cs) = plain c :: unescape cs := by
  by_cases hc : c = '%'
  · cases cs with
    | nil => rfl
    | cons a cs =>
        cases cs with
        | nil => rfl
        | cons b cs => rw [unescape, if_pos hc, h a b cs rfl hc]
  · exact unescape_cons hc cs

/-- An escape does not reach over a character that is no digit of it. -/
theorem unescape_append {c : Char} (hc : hexValue c = none) (x y : List Char) :
    unescape (x ++ c :: y) = unescape x ++ unescape (c :: y) := by
  have left : ∀ b, escaped c b = none := fun b => by simp [escaped, hc]
  have right : ∀ a, escaped a c = none := fun a => by
    cases h : hexValue a <;> simp [escaped, h, hc]
  fun_induction unescape x with
  | case1 => rfl
  | case2 d =>
      refine unescape_cons_of fun a b t ht _ => ?_
      obtain ⟨rfl, -⟩ := List.cons.inj ht
      exact left b
  | case3 d a =>
      have hd : unescape (d :: a :: c :: y) = plain d :: unescape (a :: c :: y) := by
        refine unescape_cons_of fun a' b t ht _ => ?_
        obtain ⟨hab, ht⟩ := List.cons.inj ht
        obtain ⟨hcb, -⟩ := List.cons.inj ht
        rw [← hab, ← hcb]
        exact right a
      have ha : unescape (a :: c :: y) = plain a :: unescape (c :: y) := by
        refine unescape_cons_of fun a' b t ht _ => ?_
        obtain ⟨rfl, -⟩ := List.cons.inj ht
        exact left b
      rw [List.cons_append, List.cons_append, List.nil_append, hd, ha]
      rfl
  | case4 d a b cs byte h ih =>
      rw [List.cons_append, List.cons_append, List.cons_append, unescape, h]
      exact congrArg (Piece.byte byte :: ·) ih
  | case5 d a b cs h ih =>
      rw [List.cons_append, List.cons_append, List.cons_append, unescape, h]
      exact congrArg (plain d :: ·) ih

/-! ### One level -/

/-- Wherever `w` stands, its escapes make `w'` of it. -/
def Reads (w w' : List Char) : Prop := ∀ v, unescape (w ++ v) = w'.map plain ++ unescape v

/-- Readings go on from one another. -/
theorem Reads.append {w w' x x' : List Char} (h : Reads w w') (hx : Reads x x') :
    Reads (w ++ x) (w' ++ x') := by
  intro v
  rw [List.append_assoc, h, hx, List.map_append, List.append_assoc]

/-- A character that is no percent sign is read as itself. -/
theorem reads_self {c : Char} (hc : c ≠ '%') : Reads [c] [c] := fun v => unescape_cons hc v

/-- A sign that no two plain digits follow stands for itself. -/
theorem unescape_sign {a b : Char} {x y : List Char} {j k : Nat} (hx : Writes j a x)
    (hy : Writes k b y) (hdeep : ¬ (j = 0 ∧ k = 0)) (v : List Char) :
    unescape ('%' :: (x ++ (y ++ v))) = plain '%' :: unescape (x ++ (y ++ v)) := by
  refine unescape_cons_of fun d e t ht _ => ?_
  rcases hx.start with ⟨rfl, rfl⟩ | ⟨u, rfl⟩
  · rcases hy.start with ⟨rfl, rfl⟩ | ⟨u, rfl⟩
    · exact absurd ⟨rfl, rfl⟩ hdeep
    · obtain ⟨-, ht⟩ := List.cons.inj ht
      obtain ⟨rfl, -⟩ := List.cons.inj ht
      exact escaped_percent
  · obtain ⟨rfl, -⟩ := List.cons.inj ht
    exact percent_escaped

/-- A decoding takes one level off a deep way to write a character. -/
theorem Writes.decode {n : Nat} {c : Char} {w : List Char} (h : Writes (n + 1) c w) :
    ∃ w', Writes n c w' ∧ Reads w w' := by
  generalize hm : n + 1 = m at h
  induction h generalizing n with
  | self c => cases hm
  | @escape c a b p x y i j k hp hx hy hesc hc ihp ihx ihy =>
      obtain ⟨ha, hb⟩ := hex_ne_percent hesc
      -- A part that is plain stays, and one that is deep is one level less so.
      have part : ∀ {d : Char} {u : List Char} {m : Nat}, d ≠ '%' → Writes m d u →
          (∀ {n : Nat}, n + 1 = m → ∃ u', Writes n d u' ∧ Reads u u') →
          ∃ u', Writes (m - 1) d u' ∧ Reads u u' := by
        intro d u m hd hu ih
        cases m with
        | succ m => exact ih rfl
        | zero =>
            cases hu
            exact ⟨[d], .self d, reads_self hd⟩
      by_cases hplain : i = 0 ∧ j = 0 ∧ k = 0
      · obtain ⟨rfl, rfl, rfl⟩ := hplain
        cases hp
        cases hx
        cases hy
        obtain rfl : n = 0 := by omega
        refine ⟨[c], .self c, fun v => ?_⟩
        have hbyte : plain c = .byte c.toNat := if_pos hc
        show unescape ('%' :: a :: b :: v) = plain c :: unescape v
        rw [unescape, if_pos rfl, hesc, hbyte]
      · obtain ⟨x', hx', hrx⟩ := part ha hx ihx
        obtain ⟨y', hy', hry⟩ := part hb hy ihy
        have hn : n = max (i - 1) (max (j - 1) (k - 1)) + 1 := by omega
        cases i with
        | succ i =>
            obtain ⟨p', hp', hrp⟩ := ihp rfl
            refine ⟨p' ++ (x' ++ y'), ?_, hrp.append (hrx.append hry)⟩
            rw [hn]
            exact .escape hp' hx' hy' hesc hc
        | zero =>
            cases hp
            refine ⟨['%'] ++ (x' ++ y'), ?_, fun v => ?_⟩
            · rw [hn]
              exact .escape (.self '%') hx' hy' hesc hc
            · have hsign := unescape_sign hx hy (fun h => hplain ⟨rfl, h⟩) v
              have hrest := (hrx.append hry) v
              rw [List.append_assoc] at hrest
              rw [List.append_assoc, List.append_assoc]
              show unescape ('%' :: (x ++ (y ++ v))) = _
              rw [hsign, hrest]
              rfl

/-! ### Words -/

/-- The word is made of ASCII characters that no escape is made of. -/
def Plain (cs : List Char) : Prop := ∀ c ∈ cs, cuts c = true ∧ c.toNat < 128

theorem cuts_ne {c : Char} (h : cuts c = true) : c ≠ '%' := by
  rintro rfl
  revert h
  decide

theorem cuts_hex {c : Char} (h : cuts c = true) : hexValue c = none := by
  rw [cuts, Bool.and_eq_true, Option.isNone_iff_eq_none] at h
  exact h.2

/-- A decoding takes one level off a word. -/
theorem Spells.decode {n : Nat} {cs w : List Char} (h : Spells n cs w) (hc : Plain cs) :
    ∃ w', Spells (n - 1) cs w' ∧ Reads w w' := by
  induction h with
  | nil => exact ⟨[], .nil, fun v => rfl⟩
  | @cons n m c w cs ws hw _ ih =>
      obtain ⟨ws', hs, hr⟩ := ih fun d hd => hc d (List.mem_cons_of_mem c hd)
      have hsub : max n m - 1 = max (n - 1) (m - 1) := by omega
      rw [hsub]
      cases n with
      | zero =>
          cases hw
          have hne := cuts_ne (hc c List.mem_cons_self).1
          exact ⟨[c] ++ ws', .cons (.self c) hs, (reads_self hne).append hr⟩
      | succ n =>
          obtain ⟨w', hw', hr'⟩ := hw.decode
          exact ⟨w' ++ ws', .cons hw' hs, hr'.append hr⟩

/-- A word spells itself. -/
theorem Spells.of_self (cs : List Char) : Spells 0 cs cs := by
  induction cs with
  | nil => exact .nil
  | cons c cs ih => exact .cons (.self c) ih

/-- What is left of a word that is not nested at all is the word. -/
theorem Spells.eq_self {cs w : List Char} (h : Spells 0 cs w) : w = cs := by
  generalize hm : 0 = m at h
  induction h with
  | nil => rfl
  | @cons n m c w cs ws hw _ ih =>
      obtain ⟨rfl, rfl⟩ : n = 0 ∧ m = 0 := by omega
      cases hw
      rw [ih rfl]
      rfl

/-- A word starts with a character that is no digit of an escape. -/
theorem Spells.start {n : Nat} {c : Char} {cs w : List Char} (h : Spells n (c :: cs) w)
    (hc : cuts c = true) : ∃ d t, w = d :: t ∧ hexValue d = none := by
  cases h with
  | cons hw _ =>
      rcases hw.start with ⟨-, rfl⟩ | ⟨t, rfl⟩
      · exact ⟨c, _, rfl, cuts_hex hc⟩
      · exact ⟨'%', _, rfl, by decide⟩

/-- A character of the text ends what bytes have begun. -/
theorem decode_append_plains (p : Option Pending) {c : Char} (cs : List Char) (xs ys : List Piece) :
    decode p (xs ++ ((c :: cs).map plain ++ ys)) = decode p xs ++ (c :: cs ++ decode none ys) := by
  induction cs generalizing c p xs with
  | nil => exact decode_append_plain p c xs ys
  | cons d cs ih =>
      have h := @ih none d []
      rw [List.map_cons, List.cons_append, decode_append_plain]
      exact congrArg (decode p xs ++ c :: ·) h

theorem Spells.ne_nil {n : Nat} {cs w : List Char} (h : Spells n cs w) (hne : cs ≠ []) :
    w ≠ [] := by
  cases h with
  | nil => exact absurd rfl hne
  | cons hw _ =>
      rcases hw.start with ⟨-, rfl⟩ | ⟨t, rfl⟩ <;> simp

/-- A decoding takes one level off a word wherever it stands, and the rest is decoded apart. -/
theorem unquote_spelled {n : Nat} {cs w : List Char} (h : Spells n cs w) (hc : Plain cs)
    (hne : cs ≠ []) : ∃ w', Spells (n - 1) cs w' ∧
      ∀ l r, unquote (l ++ (w ++ r)) = unquote l ++ (w' ++ unquote r) := by
  obtain ⟨w', hs, hr⟩ := h.decode hc
  obtain ⟨c, cs, rfl⟩ := List.exists_cons_of_ne_nil hne
  refine ⟨w', hs, fun l r => ?_⟩
  obtain ⟨d, t, rfl, hd⟩ := h.start (hc c List.mem_cons_self).1
  obtain ⟨e, u, rfl⟩ := List.exists_cons_of_ne_nil (hs.ne_nil hne)
  rw [unquote, List.cons_append, unescape_append hd, ← List.cons_append, hr r,
    decode_append_plains]
  rfl

/-- As many decodings as it is deep leave the word. -/
theorem iterate_spelled {cs : List Char} (hc : Plain cs) (hne : cs ≠ []) (n : Nat) :
    ∀ {m : Nat} {w : List Char}, m ≤ n → Spells m cs w →
      ∀ l r, unquote^[n] (l ++ (w ++ r)) = unquote^[n] l ++ (cs ++ unquote^[n] r) := by
  induction n with
  | zero =>
      intro m w hm h l r
      rw [Nat.le_zero.mp hm] at h
      rw [h.eq_self]
      rfl
  | succ n ih =>
      intro m w hm h l r
      obtain ⟨w', hs, hw⟩ := unquote_spelled h hc hne
      rw [Function.iterate_succ_apply, Function.iterate_succ_apply, Function.iterate_succ_apply,
        hw, ih (by omega) hs]

/-! ### What is behind a character -/

/-- The value a character is completed with is that of one, and not of an ASCII character. -/
def Completes : Nat → Nat → Nat → Nat → Prop
  | 0, low, high, value => ∀ b, low ≤ b → b ≤ high →
      128 ≤ value * 64 + b % 64 ∧ (value * 64 + b % 64).isValidChar
  | n + 1, low, high, value => ∀ b, low ≤ b → b ≤ high →
      Completes n 0x80 0xBF (value * 64 + b % 64)

/-- What is pending is a character that is not ASCII. -/
def Good (p : Option Pending) : Prop := ∀ q ∈ p, Completes q.more q.low q.high q.value

theorem good_none : Good none := fun _ h => by cases h

theorem good_some {q : Pending} (h : Completes q.more q.low q.high q.value) : Good (some q) :=
  fun _ hq => Option.some.inj hq ▸ h

theorem good_lead (b : Nat) : Good (lead b).2 := by
  unfold lead
  split_ifs
  · exact good_none
  · refine good_some fun c h₁ h₂ => ?_
    simp only [Nat.isValidChar] at *
    omega
  · refine good_some fun c h₁ h₂ d h₃ h₄ => ?_
    simp only [Nat.isValidChar] at *
    omega
  · refine good_some fun c h₁ h₂ d h₃ h₄ => ?_
    simp only [Nat.isValidChar] at *
    omega
  · refine good_some fun c h₁ h₂ d h₃ h₄ => ?_
    simp only [Nat.isValidChar] at *
    omega
  · refine good_some fun c h₁ h₂ d h₃ h₄ e h₅ h₆ => ?_
    simp only [Nat.isValidChar] at *
    omega
  · refine good_some fun c h₁ h₂ d h₃ h₄ e h₅ h₆ => ?_
    simp only [Nat.isValidChar] at *
    omega
  · refine good_some fun c h₁ h₂ d h₃ h₄ e h₅ h₆ => ?_
    simp only [Nat.isValidChar] at *
    omega
  · exact good_none

/-- A piece keeps it so. -/
theorem good_step {p : Option Pending} (hp : Good p) (x : Piece) : Good (step p x).2 := by
  cases x with
  | char c => exact good_none
  | byte b =>
      rw [step]
      split
      · next q hq =>
          obtain ⟨rfl, hb⟩ := Option.filter_eq_some_iff.mp hq
          have hc := hp q rfl
          obtain ⟨more, low, high, value, beyond⟩ := q
          simp only [decide_eq_true_eq] at hb hc
          cases more with
          | zero => exact good_none
          | succ n => exact good_some (hc b hb.1 hb.2)
      · exact good_lead b

theorem replacement_not_ascii : ¬ replacement.toNat < 128 := by decide

/-- What is given up on becomes one mark. -/
theorem mem_flush {p : Option Pending} {c : Char} (h : c ∈ flush p) : c = replacement := by
  cases p with
  | none => cases h
  | some q => exact List.mem_singleton.mp h

theorem flush_snoc {p : Option Pending} {c : Char} {left mid : List Char}
    (h : flush p ++ [c] = left ++ c :: mid) (hc : c.toNat < 128) : flush p = left ∧ mid = [] := by
  rcases List.append_eq_append_iff.mp h with ⟨as, hl, hr⟩ | ⟨bs, hl, hr⟩
  · cases as with
    | nil =>
        rw [List.append_nil] at hl
        exact ⟨hl.symm, (List.cons.inj hr).2.symm⟩
    | cons a as =>
        have := congrArg List.length hr
        simp at this
  · cases bs with
    | nil =>
        rw [List.append_nil] at hl
        exact ⟨hl, (List.cons.inj hr).2⟩
    | cons b bs =>
        obtain ⟨rfl, -⟩ := List.cons.inj hr
        have hm : c ∈ flush p := hl ▸ List.mem_append_right left List.mem_cons_self
        exact absurd (mem_flush hm ▸ hc) replacement_not_ascii

theorem toNat_ofNat {n : Nat} (h : n.isValidChar) : (Char.ofNat n).toNat = n := by
  rw [Char.ofNat, dif_pos h]
  rfl

/-- A byte that is an ASCII character is that character. -/
theorem mem_lead {b : Nat} {c : Char} (h : c ∈ (lead b).1) (hc : c.toNat < 128) :
    b = c.toNat ∧ lead b = ([c], none) := by
  unfold lead at h ⊢
  split_ifs at h ⊢ with hb
  all_goals first | cases h; done | skip
  · obtain rfl := List.mem_singleton.mp h
    exact ⟨(toNat_ofNat (.inl (by omega))).symm, rfl⟩
  · obtain rfl := List.mem_singleton.mp h
    exact absurd hc replacement_not_ascii

/-- The pieces of a text: what is ASCII is a byte. -/
def Bytes (xs : List Piece) : Prop := ∀ d, Piece.char d ∈ xs → 128 ≤ d.toNat

/-- A piece gives an ASCII character only as the byte it is. -/
theorem step_ascii {p : Option Pending} (hp : Good p) {x : Piece} {c : Char}
    (hx : ∀ d, x = .char d → 128 ≤ d.toNat) (h : c ∈ (step p x).1) (hc : c.toNat < 128) :
    x = .byte c.toNat ∧ step p x = (flush p ++ [c], none) := by
  have not_flush : c ∉ flush p := fun hm => replacement_not_ascii (mem_flush hm ▸ hc)
  cases x with
  | char d =>
      rcases List.mem_append.mp h with hm | hm
      · exact absurd hm not_flush
      · obtain rfl := List.mem_singleton.mp hm
        have hd := hx c rfl
        omega
  | byte b =>
      rw [step] at h ⊢
      split at h
      · next q hq =>
          obtain ⟨rfl, hb⟩ := Option.filter_eq_some_iff.mp hq
          have hcomp := hp q rfl
          obtain ⟨more, low, high, value, beyond⟩ := q
          simp only [decide_eq_true_eq] at hb hcomp
          cases more with
          | zero =>
              obtain rfl := List.mem_singleton.mp h
              obtain ⟨hlow, hvalid⟩ := hcomp b hb.1 hb.2
              rw [toNat_ofNat hvalid] at hc
              omega
          | succ n => cases h
      · next hq =>
          rcases List.mem_append.mp h with hm | hm
          · exact absurd hm not_flush
          · obtain ⟨rfl, hl⟩ := mem_lead hm hc
            refine ⟨rfl, ?_⟩
            rw [hl]

/-- An ASCII character of what the bytes give is one of the bytes. -/
theorem decode_split {c : Char} (hc : c.toNat < 128) {right : List Char} :
    ∀ {p : Option Pending} {xs : List Piece} {left : List Char}, Good p → Bytes xs →
      decode p xs = left ++ c :: right → ∃ ys zs, xs = ys ++ .byte c.toNat :: zs ∧
        decode p ys = left ∧ decode none zs = right := by
  intro p xs
  induction xs generalizing p with
  | nil =>
      intro left _ _ h
      have hm : c ∈ flush p := by
        show c ∈ decode p []
        rw [h]
        exact List.mem_append_right _ List.mem_cons_self
      exact absurd (mem_flush hm ▸ hc) replacement_not_ascii
  | cons x xs ih =>
      intro left hp hxs h
      have hx : ∀ d, x = .char d → 128 ≤ d.toNat := fun d hd => hxs d (hd ▸ List.mem_cons_self)
      rw [decode] at h
      -- The character is in what this step gives, or in what comes later.
      rcases List.append_eq_append_iff.mp h with ⟨left', rfl, hr⟩ | ⟨mid, hl, hr⟩
      · obtain ⟨ys, zs, rfl, hy, hz⟩ :=
          ih (good_step hp x) (fun d hd => hxs d (List.mem_cons_of_mem x hd)) hr
        refine ⟨x :: ys, zs, rfl, ?_, hz⟩
        rw [decode, hy]
      · cases mid with
        | nil =>
            rw [List.append_nil] at hl
            have hrest : decode (step p x).2 xs = [] ++ c :: right := hr.symm
            obtain ⟨ys, zs, rfl, hy, hz⟩ := ih (good_step hp x)
              (fun d hd => hxs d (List.mem_cons_of_mem x hd)) hrest
            refine ⟨x :: ys, zs, rfl, ?_, hz⟩
            rw [decode, hy, hl, List.append_nil]
        | cons d mid =>
            obtain ⟨rfl, -⟩ := List.cons.inj hr
            have hm : c ∈ (step p x).1 := by
              rw [hl]
              exact List.mem_append_right _ List.mem_cons_self
            -- An ASCII character is given by its own byte, which leaves nothing pending.
            obtain ⟨rfl, hs⟩ := step_ascii hp hx hm hc
            rw [hs] at hl
            obtain ⟨rfl, rfl⟩ := flush_snoc hl hc
            refine ⟨[], xs, rfl, rfl, ?_⟩
            rw [hs] at hr
            exact (List.cons.inj hr).2.symm

/-- `v` is one character, or one escape, for `c`. -/
inductive Once (c : Char) : List Char → Prop
  | self : Once c [c]
  | escape {a b : Char} : escaped a b = some c.toNat → Once c ['%', a, b]

theorem plain_byte {d c : Char} (h : plain d = .byte c.toNat) : d = c := by
  unfold plain at h
  split at h
  · have hn := congrArg Char.ofNat (Piece.byte.inj h)
    rwa [Char.ofNat_toNat, Char.ofNat_toNat] at hn
  · cases h

/-- A byte of the pieces is one character, or one escape, of the text. -/
theorem unescape_split {c : Char} {s : List Char} {ys zs : List Piece}
    (h : unescape s = ys ++ .byte c.toNat :: zs) :
    ∃ l v r, s = l ++ (v ++ r) ∧ Once c v ∧ unescape l = ys ∧ unescape r = zs := by
  fun_induction unescape s generalizing ys with
  | case1 => cases ys <;> cases h
  | case2 d =>
      cases ys with
      | nil =>
          obtain ⟨hd, rfl⟩ := List.cons.inj h
          exact ⟨[], [d], [], rfl, plain_byte hd ▸ .self, rfl, rfl⟩
      | cons y ys =>
          obtain ⟨-, h⟩ := List.cons.inj h
          cases ys <;> cases h
  | case3 d a =>
      cases ys with
      | nil =>
          obtain ⟨hd, rfl⟩ := List.cons.inj h
          exact ⟨[], [d], [a], rfl, plain_byte hd ▸ .self, rfl, rfl⟩
      | cons y ys =>
          obtain ⟨rfl, ht⟩ := List.cons.inj h
          cases ys with
          | nil =>
              obtain ⟨ha, rfl⟩ := List.cons.inj ht
              exact ⟨[d], [a], [], rfl, plain_byte ha ▸ .self, rfl, rfl⟩
          | cons y ys =>
              obtain ⟨-, ht⟩ := List.cons.inj ht
              cases ys <;> cases ht
  | case4 d a b cs byte hesc ih =>
      -- An escape is one piece, so that the cut is before or after it.
      have hd : d = '%' ∧ escaped a b = some byte := by
        by_cases hd : d = '%'
        · exact ⟨hd, by rwa [if_pos hd] at hesc⟩
        · rw [if_neg hd] at hesc
          cases hesc
      obtain ⟨rfl, hab⟩ := hd
      cases ys with
      | nil =>
          obtain ⟨hb, rfl⟩ := List.cons.inj h
          obtain rfl := Piece.byte.inj hb
          exact ⟨[], ['%', a, b], cs, rfl, .escape hab, rfl, rfl⟩
      | cons y ys =>
          obtain ⟨rfl, ht⟩ := List.cons.inj h
          obtain ⟨l, v, r, rfl, hv, hl, hr⟩ := ih ht
          refine ⟨'%' :: a :: b :: l, v, r, rfl, hv, ?_, hr⟩
          rw [unescape, if_pos rfl, hab, hl]
  | case5 d a b cs hesc ih =>
      cases ys with
      | nil =>
          obtain ⟨hd, rfl⟩ := List.cons.inj h
          exact ⟨[], [d], a :: b :: cs, rfl, plain_byte hd ▸ .self, rfl, rfl⟩
      | cons y ys =>
          obtain ⟨rfl, ht⟩ := List.cons.inj h
          obtain ⟨l, v, r, hs, hv, hl, hr⟩ := ih ht
          refine ⟨d :: l, v, r, congrArg (d :: ·) hs, hv, ?_, hr⟩
          rw [unescape_cons_of, hl]
          -- What stands before the cut is no escape with what stands after it either.
          rintro a' b' t rfl rfl
          obtain ⟨rfl, hb⟩ := List.cons.inj hs
          obtain ⟨rfl, -⟩ := List.cons.inj hb
          rwa [if_pos rfl] at hesc

/-- Only characters that are not ASCII stay as they are. -/
theorem bytes_unescape (s : List Char) : Bytes (unescape s) := by
  have char_plain : ∀ c d : Char, Piece.char d = plain c → 128 ≤ d.toNat := by
    intro c d h
    unfold plain at h
    split at h
    · cases h
    · next hc =>
        obtain rfl := Piece.char.inj h
        omega
  intro d
  fun_induction unescape s with
  | case1 => exact fun h => by cases h
  | case2 c => exact fun h => char_plain c d (List.mem_singleton.mp h)
  | case3 c a =>
      intro h
      rcases List.mem_cons.mp h with h | h
      · exact char_plain c d h
      · exact char_plain a d (List.mem_singleton.mp h)
  | case4 c a b cs byte hesc ih =>
      intro h
      rcases List.mem_cons.mp h with h | h
      · cases h
      · exact ih h
  | case5 c a b cs hesc ih =>
      intro h
      rcases List.mem_cons.mp h with h | h
      · exact char_plain c d h
      · exact ih h

/-- An ASCII character of a decoding has one character or one escape behind it, and what is before
and after it is decoded apart. -/
theorem unquote_split {c : Char} (hc : c.toNat < 128) {s left right : List Char}
    (h : unquote s = left ++ c :: right) : ∃ l v r, s = l ++ (v ++ r) ∧ Once c v ∧
      unquote l = left ∧ unquote r = right := by
  obtain ⟨ys, zs, hs, hy, hz⟩ := decode_split hc good_none (bytes_unescape s) h
  obtain ⟨l, v, r, rfl, hv, hl, hr⟩ := unescape_split hs
  exact ⟨l, v, r, rfl, hv, by rw [unquote, hl, hy], by rw [unquote, hr, hz]⟩

theorem step_ne_nil (p : Option Pending) (x : Piece) : step p x ≠ ([], none) := by
  cases x with
  | char c => cases p <;> exact fun h => by cases h
  | byte b =>
      rw [step]
      split
      · next q _ =>
          obtain ⟨more, low, high, value, beyond⟩ := q
          cases more <;> exact fun h => by cases h
      · intro h
        have hf := congrArg (fun x => (x.1.length, x.2)) h
        have hl := lead_length b
        simp only [List.length_append, List.length_nil, Prod.mk.injEq] at hf
        rw [hf.2, owed] at hl
        simp only [flush, List.length_nil] at hl
        omega

/-- Only of nothing does nothing come. -/
theorem decode_eq_nil {p : Option Pending} {xs : List Piece} (h : decode p xs = []) :
    p = none ∧ xs = [] := by
  induction xs generalizing p with
  | nil =>
      cases p with
      | none => exact ⟨rfl, rfl⟩
      | some q => cases h
  | cons x xs ih =>
      obtain ⟨hx, hxs⟩ := List.append_eq_nil_iff.mp h
      exact absurd (Prod.ext hx (ih hxs).1) (step_ne_nil p x)

/-- Nothing is decoded away. -/
theorem unquote_eq_nil {s : List Char} (h : unquote s = []) : s = [] := by
  have hs := (decode_eq_nil h).2
  cases s with
  | nil => rfl
  | cons c s =>
      cases s with
      | nil => cases hs
      | cons a s =>
          cases s with
          | nil => cases hs
          | cons b s =>
              rw [unescape] at hs
              split at hs <;> cases hs

theorem iterate_eq_nil {n : Nat} {s : List Char} (h : unquote^[n] s = []) : s = [] := by
  induction n generalizing s with
  | zero => exact h
  | succ n ih =>
      rw [Function.iterate_succ_apply] at h
      exact unquote_eq_nil (ih h)

theorem iterate_nil (n : Nat) : unquote^[n] [] = [] := Function.iterate_fixed rfl n

/-! ### What is behind a word -/

/-- Each character of the first text is one character, or one escape, of the second. -/
inductive Expands : List Char → List Char → Prop
  | nil : Expands [] []
  | cons {c : Char} {v cs ws : List Char} : Once c v → Expands cs ws → Expands (c :: cs) (v ++ ws)

/-- An expansion of two texts has two parts. -/
theorem Expands.of_append {x y w : List Char} (h : Expands (x ++ y) w) :
    ∃ u v, w = u ++ v ∧ Expands x u ∧ Expands y v := by
  induction x generalizing w with
  | nil => exact ⟨[], w, rfl, .nil, h⟩
  | cons c x ih =>
      cases h with
      | cons hv hrest =>
          obtain ⟨u, v, rfl, hu, hy⟩ := ih hrest
          exact ⟨_ ++ u, v, (List.append_assoc _ u v).symm, .cons hv hu, hy⟩

/-- A word at the start of a decoding. -/
theorem unquote_starts {cs : List Char} (hc : ∀ c ∈ cs, c.toNat < 128) {s right : List Char}
    (h : unquote s = cs ++ right) : ∃ w r, s = w ++ r ∧ Expands cs w ∧ unquote r = right := by
  induction cs generalizing s with
  | nil => exact ⟨[], s, rfl, .nil, h⟩
  | cons c cs ih =>
      have hhere : unquote s = [] ++ c :: (cs ++ right) := h
      obtain ⟨l, v, t, rfl, hv, hl, ht⟩ := unquote_split (hc c List.mem_cons_self) hhere
      obtain rfl := unquote_eq_nil hl
      obtain ⟨w, r, rfl, hw, hr⟩ := ih (fun d hd => hc d (List.mem_cons_of_mem c hd)) ht
      exact ⟨v ++ w, r, (List.append_assoc v w r).symm, .cons hv hw, hr⟩

/-- A word of a decoding. -/
theorem unquote_splits {cs : List Char} (hc : ∀ c ∈ cs, c.toNat < 128) (hne : cs ≠ [])
    {s left right : List Char} (h : unquote s = left ++ (cs ++ right)) :
    ∃ l w r, s = l ++ (w ++ r) ∧ Expands cs w ∧ unquote l = left ∧ unquote r = right := by
  obtain ⟨c, cs, rfl⟩ := List.exists_cons_of_ne_nil hne
  obtain ⟨l, v, t, rfl, hv, hl, ht⟩ := unquote_split (hc c List.mem_cons_self) h
  obtain ⟨w, r, rfl, hw, hr⟩ := unquote_starts (fun d hd => hc d (List.mem_cons_of_mem c hd)) ht
  exact ⟨l, v ++ w, r, by rw [List.append_assoc], .cons hv hw, hl, hr⟩

/-- An ASCII character is written in ASCII. -/
theorem Writes.ascii {n : Nat} {c : Char} {w : List Char} (h : Writes n c w)
    (hc : c.toNat < 128) : ∀ d ∈ w, d.toNat < 128 := by
  induction h with
  | self c =>
      intro d hd
      rwa [List.mem_singleton.mp hd]
  | escape _ _ _ hesc _ ihp ihx ihy =>
      obtain ⟨ha, hb⟩ := escaped_ascii hesc
      intro d hd
      rcases List.mem_append.mp hd with hd | hd
      · exact ihp (by decide) d hd
      · rcases List.mem_append.mp hd with hd | hd
        · exact ihx ha d hd
        · exact ihy hb d hd

theorem Spells.ascii {n : Nat} {cs w : List Char} (h : Spells n cs w)
    (hc : ∀ c ∈ cs, c.toNat < 128) : ∀ d ∈ w, d.toNat < 128 := by
  induction h with
  | nil => exact fun d hd => by cases hd
  | @cons n m c w cs ws hw _ ih =>
      intro d hd
      rcases List.mem_append.mp hd with hd | hd
      · exact hw.ascii (hc c List.mem_cons_self) d hd
      · exact ih (fun e he => hc e (List.mem_cons_of_mem c he)) d hd

/-- An expansion writes a character at most one level deeper. -/
theorem Writes.expand {n : Nat} {c : Char} {w' : List Char} (h : Writes n c w')
    (hc : c.toNat < 128) {w : List Char} (hw : Expands w' w) : ∃ m ≤ n + 1, Writes m c w := by
  induction h generalizing w with
  | self c =>
      cases hw with
      | cons hv hnil =>
          cases hnil
          rw [List.append_nil]
          cases hv with
          | self => exact ⟨0, Nat.zero_le _, .self c⟩
          | escape hesc => exact ⟨1, Nat.le_refl _, .escape (.self '%') (.self _) (.self _) hesc hc⟩
  | escape _ _ _ hesc hc ihp ihx ihy =>
      obtain ⟨p, t, rfl, hp, ht⟩ := hw.of_append
      obtain ⟨x, y, rfl, hx, hy⟩ := ht.of_append
      obtain ⟨ha, hb⟩ := escaped_ascii hesc
      obtain ⟨i, hi, hp⟩ := ihp (by decide) hp
      obtain ⟨j, hj, hx⟩ := ihx ha hx
      obtain ⟨k, hk, hy⟩ := ihy hb hy
      exact ⟨_, by omega, .escape hp hx hy hesc hc⟩

/-- One more encoding of a spelling is a spelling. -/
theorem Spells.expand {n : Nat} {cs w' : List Char} (h : Spells n cs w')
    (hc : ∀ c ∈ cs, c.toNat < 128) {w : List Char} (hw : Expands w' w) :
    ∃ m ≤ n + 1, Spells m cs w := by
  induction h generalizing w with
  | nil =>
      cases hw
      exact ⟨0, Nat.zero_le _, .nil⟩
  | @cons i j c x cs xs hx _ ih =>
      obtain ⟨u, v, rfl, hu, hv⟩ := hw.of_append
      obtain ⟨n, hn, hu⟩ := hx.expand (hc c List.mem_cons_self) hu
      obtain ⟨m, hm, hv⟩ := ih (fun d hd => hc d (List.mem_cons_of_mem c hd)) hv
      exact ⟨max n m, by omega, .cons hu hv⟩

/-- **The words of a decoding.**  A word stands in the `n`-th decoding exactly where the text
spells it with escapes at most `n` deep. -/
theorem iterate_spelled_iff {cs : List Char} (hc : Plain cs) (hne : cs ≠ []) (n : Nat)
    {s left right : List Char} : unquote^[n] s = left ++ (cs ++ right) ↔
      ∃ m ≤ n, ∃ l w r, s = l ++ (w ++ r) ∧ Spells m cs w ∧ unquote^[n] l = left ∧
        unquote^[n] r = right := by
  constructor
  · intro h
    induction n generalizing s with
    | zero => exact ⟨0, Nat.le_refl _, left, cs, right, h, .of_self cs, rfl, rfl⟩
    | succ n ih =>
        obtain ⟨m, hm, l', w', r', hs, hw, rfl, rfl⟩ := ih h
        have hascii : ∀ c ∈ cs, c.toNat < 128 := fun c hm => (hc c hm).2
        obtain ⟨l, w, r, rfl, hx, rfl, rfl⟩ :=
          unquote_splits (hw.ascii hascii) (hw.ne_nil hne) hs
        obtain ⟨k, hk, hw⟩ := hw.expand hascii hx
        exact ⟨k, by omega, l, w, r, rfl, hw, rfl, rfl⟩
  · rintro ⟨m, hm, l, w, r, rfl, hw, rfl, rfl⟩
    exact iterate_spelled hc hne n hm hw l r

end Orchestrator.Percent
