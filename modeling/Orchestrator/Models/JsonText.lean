import Mathlib.Algebra.GroupWithZero.Nat
import Mathlib.Data.List.Perm.Basic
import Mathlib.Data.List.Sort
import Mathlib.Data.List.Forall2
import Orchestrator.Models.Scalars
import Orchestrator.Models.Texts

/-!
# Models — JSON texts

`json.dumps(value, ensure_ascii=False)` and what can be read off its text.

* `Json.text`: the text; `Json.sorted`: the value with `sort_keys=True`.
* `Json.dumpable`: `allow_nan=False` does not raise, nor does a number too long to be written.
* `Json.bytes`: the length of the text in UTF-8.
* `text_inj`: the text determines the value.
* `Same`, `same_of_text`: equal up to the order of entries, as the sorted texts tell.
-/

namespace Orchestrator

/-! ### Texts -/

/-- A digit of an escape. -/
def hexChar (n : Nat) : Char := "0123456789abcdef".toList.getD n '0'

/-- One character between the quotes. -/
def escapeChar (c : Char) : List Char :=
  if c = '"' then ['\\', '"']
  else if c = '\\' then ['\\', '\\']
  else if c = '\n' then ['\\', 'n']
  else if c = '\r' then ['\\', 'r']
  else if c = '\t' then ['\\', 't']
  else if c = '\x0c' then ['\\', 'f']
  else if c = '\x08' then ['\\', 'b']
  else if c.toNat < 32 then
    ['\\', 'u', '0', '0', hexChar (c.toNat / 16), hexChar (c.toNat % 16)]
  else [c]

/-- `json.dumps` of a text. -/
def quoted (s : String) : List Char := '"' :: (s.toList.flatMap escapeChar ++ ['"'])

/-- `repr(n)`. -/
def intText : Int → List Char
  | .ofNat n => Nat.toDigits 10 n
  | .negSucc n => '-' :: Nat.toDigits 10 (n + 1)

/-- How `json.dumps` writes what is not finite. -/
def NonFinite.text : NonFinite → List Char
  | .nan => "NaN".toList
  | .infinity => "Infinity".toList
  | .minusInfinity => "-Infinity".toList

mutual

def Json.text : Json → List Char
  | .null => "null".toList
  | .bool true => "true".toList
  | .bool false => "false".toList
  | .num n => intText n
  | .float x => x.text.toList
  | .nonfinite x => x.text
  | .str s => quoted s
  | .arr [] => ['[', ']']
  | .arr (x :: l) => '[' :: (x.text ++ itemsText l)
  | .obj [] => ['\x7b', '\x7d']
  | .obj ((k, x) :: l) => '\x7b' :: (quoted k ++ ':' :: ' ' :: (x.text ++ fieldsText l))

/-- The items after the first, and the bracket. -/
def itemsText : List Json → List Char
  | [] => [']']
  | x :: l => ',' :: ' ' :: (x.text ++ itemsText l)

/-- The entries after the first, and the brace. -/
def fieldsText : List (String × Json) → List Char
  | [] => ['\x7d']
  | (k, x) :: l => ',' :: ' ' :: (quoted k ++ ':' :: ' ' :: (x.text ++ fieldsText l))

end

/-- The limit of `sys.get_int_max_str_digits()`. -/
def maxStrDigits : Nat := 4300

mutual

/-- `json.dumps(value, allow_nan=False)` does not raise. -/
def Json.dumpable : Json → Bool
  | .num n => decide ((Nat.toDigits 10 n.natAbs).length ≤ maxStrDigits)
  | .nonfinite _ => false
  | .arr items => itemsDumpable items
  | .obj fields => fieldsDumpable fields
  | _ => true

/-- No item holds what cannot be encoded. -/
def itemsDumpable : List Json → Bool
  | [] => true
  | x :: l => x.dumpable && itemsDumpable l

/-- No value of a field does. -/
def fieldsDumpable : List (String × Json) → Bool
  | [] => true
  | (_, x) :: l => x.dumpable && fieldsDumpable l

end

/-- `len(text.encode("utf-8"))`. -/
def utf8Length (s : List Char) : Nat := (s.map Char.utf8Size).sum

/-- The length of the encoding in UTF-8. -/
def Json.bytes (x : Json) : Nat := utf8Length x.text

mutual

/-- The value, with the entries of each object in the order of their keys. -/
def Json.sorted : Json → Json
  | .arr items => .arr (itemsSorted items)
  | .obj fields => .obj ((fieldsSorted fields).insertionSort fun a b => a.1 ≤ b.1)
  | x => x

/-- Each item with its keys sorted. -/
def itemsSorted : List Json → List Json
  | [] => []
  | x :: l => x.sorted :: itemsSorted l

/-- Each value with its keys sorted. -/
def fieldsSorted : List (String × Json) → List (String × Json)
  | [] => []
  | (k, x) :: l => (k, x.sorted) :: fieldsSorted l

end

/-- `json.dumps(value, sort_keys=True, ensure_ascii=False)`. -/
def Json.canonical (x : Json) : List Char := x.sorted.text

/-! ### The text determines the value -/

/-- What may follow a value: nothing, or a character no number or word contains. -/
def Delimited (r : List Char) : Prop :=
  ∀ c, r.head? = some c → c = ',' ∨ c = ']' ∨ c = '\x7d'

/-- A character of a number or of a word. -/
def isAtomChar (c : Char) : Bool := c.isAlphanum || c == '-' || c == '+' || c == '.'

/-- A number or a name ends where it is delimited. -/
theorem Delimited.takeWhile {r : List Char} (h : Delimited r) : r.takeWhile isAtomChar = [] := by
  cases r with
  | nil => rfl
  | cons c cs =>
      rcases h c rfl with rfl | rfl | rfl <;> rfl

theorem delimited_items (l : List Json) (r : List Char) : Delimited (itemsText l ++ r) := by
  intro c h
  cases l with
  | nil =>
      simp [itemsText] at h
      exact .inr (.inl h.symm)
  | cons x l =>
      simp [itemsText] at h
      exact .inl h.symm

theorem delimited_fields (l : List (String × Json)) (r : List Char) :
    Delimited (fieldsText l ++ r) := by
  intro c h
  cases l with
  | nil =>
      simp [fieldsText] at h
      exact .inr (.inr h.symm)
  | cons x l =>
      simp [fieldsText] at h
      exact .inl h.symm

/-- Reading one character between the quotes. -/
def unescapeChar : List Char → Option (Char × List Char)
  | '\\' :: 'u' :: '0' :: '0' :: a :: b :: r =>
      ((List.range 32).find? fun n => hexChar (n / 16) == a && hexChar (n % 16) == b).map
        fun n => (Char.ofNat n, r)
  | '\\' :: c :: r =>
      if c = 'n' then some ('\n', r)
      else if c = 'r' then some ('\r', r)
      else if c = 't' then some ('\t', r)
      else if c = 'f' then some ('\x0c', r)
      else if c = 'b' then some ('\x08', r)
      else some (c, r)
  | c :: r => some (c, r)
  | [] => none

/-- An escape is read as the character it is of. -/
theorem unescapeChar_escapeChar (c : Char) (r : List Char) :
    unescapeChar (escapeChar c ++ r) = some (c, r) := by
  unfold escapeChar
  split_ifs with h₁ h₂ h₃ h₄ h₅ h₆ h₇ h₈
  · rw [h₁]; rfl
  · rw [h₂]; rfl
  · rw [h₃]; rfl
  · rw [h₄]; rfl
  · rw [h₅]; rfl
  · rw [h₆]; rfl
  · rw [h₇]; rfl
  · -- The two digits are those of one code point below 32.
    have hfind : ∀ n, n < 32 → ((List.range 32).find? fun m =>
        hexChar (m / 16) == hexChar (n / 16) && hexChar (m % 16) == hexChar (n % 16)) = some n := by
      decide
    simp only [List.cons_append, List.nil_append, unescapeChar, hfind _ h₈, Option.map_some,
      Char.ofNat_toNat]
  · rw [List.cons_append, List.nil_append, unescapeChar.eq_def]
    split
    · next heq => exact absurd (List.cons.inj heq).1 h₂
    · next heq => exact absurd (List.cons.inj heq).1 h₂
    · next heq => cases heq; rfl
    · next heq => cases heq

/-- An escape does not begin with the end of a text. -/
theorem escapeChar_head (c : Char) (r : List Char) : (escapeChar c ++ r).head? ≠ some '"' := by
  unfold escapeChar
  split_ifs with h
  case neg => simpa using h
  all_goals simp

/-- The closing quote is the first that is not escaped. -/
theorem escaped_inj {s t : List Char} {u v : List Char}
    (h : s.flatMap escapeChar ++ '"' :: u = t.flatMap escapeChar ++ '"' :: v) : s = t ∧ u = v := by
  induction s generalizing t with
  | nil =>
      cases t with
      | nil => exact ⟨rfl, (List.cons.inj h).2⟩
      | cons d t =>
          rw [List.flatMap_cons, List.append_assoc] at h
          exact absurd (congrArg List.head? h).symm (escapeChar_head d _)
  | cons c s ih =>
      rw [List.flatMap_cons, List.append_assoc] at h
      cases t with
      | nil => exact absurd (congrArg List.head? h) (escapeChar_head c _)
      | cons d t =>
          rw [List.flatMap_cons, List.append_assoc] at h
          have hu := congrArg unescapeChar h
          rw [unescapeChar_escapeChar, unescapeChar_escapeChar] at hu
          obtain ⟨rfl, hr⟩ := Prod.mk.inj (Option.some.inj hu)
          obtain ⟨rfl, huv⟩ := ih hr
          exact ⟨rfl, huv⟩

/-- A text is told by its encoding, and by where that ends. -/
theorem quoted_inj {s t : String} {u v : List Char} (h : quoted s ++ u = quoted t ++ v) :
    s = t ∧ u = v := by
  simp only [quoted, List.cons_append, List.append_assoc, List.nil_append] at h
  obtain ⟨hs, huv⟩ := escaped_inj (List.cons.inj h).2
  exact ⟨String.toList_injective hs, huv⟩

/-- A minus is no digit. -/
theorem minus_not_digit (n : Nat) : '-' ∉ Nat.toDigits 10 n := by
  intro h
  exact absurd (Nat.isDigit_of_mem_toDigits (by decide) (by decide) h) (by decide)

/-- A number is told by its digits. -/
theorem intText_inj {m n : Int} (h : intText m = intText n) : m = n := by
  cases m with
  | ofNat m =>
      cases n with
      | ofNat n => rw [toDigits_inj h]
      | negSucc n =>
          exact absurd (show '-' ∈ intText (.ofNat m) by rw [h]; exact List.mem_cons_self)
            (minus_not_digit m)
  | negSucc m =>
      cases n with
      | ofNat n =>
          exact absurd (show '-' ∈ intText (.ofNat n) by rw [← h]; exact List.mem_cons_self)
            (minus_not_digit n)
      | negSucc n =>
          have := toDigits_inj (List.cons.inj h).2
          rw [show m = n by omega]

theorem intText_chars {n : Int} {c : Char} (h : c ∈ intText n) : c.isDigit = true ∨ c = '-' := by
  cases n with
  | ofNat n => exact .inl (Nat.isDigit_of_mem_toDigits (by decide) (by decide) h)
  | negSucc n =>
      rcases List.mem_cons.mp h with rfl | h
      · exact .inr rfl
      · exact .inl (Nat.isDigit_of_mem_toDigits (by decide) (by decide) h)

theorem intText_ne_nil (n : Int) : intText n ≠ [] := by
  cases n with
  | ofNat n => exact Nat.toDigits_ne_nil
  | negSucc n => exact List.cons_ne_nil _ _

/-- What the first character of a text tells. -/
inductive Json.Kind where
  | atom | text | list | object
  deriving DecidableEq

/-- What sort of value it is. -/
def Json.kind : Json → Json.Kind
  | .str _ => .text
  | .arr _ => .list
  | .obj _ => .object
  | _ => .atom

/-- The sort of a value, from the first character of its encoding. -/
def kindOf : List Char → Json.Kind
  | '"' :: _ => .text
  | '[' :: _ => .list
  | '\x7b' :: _ => .object
  | _ => .atom

/-- The constants. -/
def constants : List Json :=
  [.null, .bool true, .bool false, .nonfinite .nan, .nonfinite .infinity, .nonfinite .minusInfinity]

/-- An atom is a constant, a number or a float. -/
theorem atom_cases {x : Json} (h : x.kind = .atom) :
    x ∈ constants ∨ (∃ n, x = .num n) ∨ ∃ f, x = .float f := by
  cases x with
  | null => exact .inl (by simp [constants])
  | bool b => cases b <;> exact .inl (by simp [constants])
  | num n => exact .inr (.inl ⟨n, rfl⟩)
  | float f => exact .inr (.inr ⟨f, rfl⟩)
  | nonfinite x => cases x <;> exact .inl (by simp [constants])
  | str | arr | obj => cases h

def isFloatChar (c : Char) : Bool := c.isDigit || c == '-' || c == '+' || c == '.' || c == 'e'

theorem FloatText.chars (x : FloatText) {c : Char} (h : c ∈ x.text.toList) :
    isFloatChar c = true := by
  have := x.floats
  rw [Bool.and_eq_true] at this
  exact List.all_eq_true.mp this.1 c h

/-- A float has a point or an exponent. -/
theorem FloatText.point (x : FloatText) : ∃ c ∈ x.text.toList, c = '.' ∨ c = 'e' := by
  have := x.floats
  rw [Bool.and_eq_true] at this
  obtain ⟨c, hc, h⟩ := List.any_eq_true.mp this.2
  exact ⟨c, hc, by simpa using h⟩

theorem constants_spec {x : Json} (h : x ∈ constants) :
    (x.text ≠ [] ∧ ∀ c ∈ x.text, isAtomChar c = true) ∧ ∃ c ∈ x.text, isFloatChar c = false := by
  simp only [constants, List.mem_cons, List.not_mem_nil, or_false] at h
  have hany : ∀ {l : List Char}, l.any (fun c => !isFloatChar c) = true →
      ∃ c ∈ l, isFloatChar c = false := by
    intro l h
    simpa using h
  rcases h with rfl | rfl | rfl | rfl | rfl | rfl <;>
    exact ⟨⟨by decide, List.all_eq_true.mp (by decide)⟩, hany (by decide)⟩

theorem isAtomChar_of_isFloatChar {c : Char} (h : isFloatChar c = true) : isAtomChar c = true := by
  simp only [isFloatChar, Bool.or_eq_true, beq_iff_eq] at h
  rcases h with (((h | rfl) | rfl) | rfl) | rfl
  · simp [isAtomChar, Char.isAlphanum, h]
  all_goals rfl

theorem isFloatChar_of_int {n : Int} {c : Char} (h : c ∈ intText n) : isFloatChar c = true := by
  rcases intText_chars h with h | rfl
  · simp [isFloatChar, h]
  · rfl

/-- An atom has characters, and they are those of atoms. -/
theorem atom_spec {x : Json} (h : x.kind = .atom) :
    x.text ≠ [] ∧ ∀ c ∈ x.text, isAtomChar c = true := by
  rcases atom_cases h with h | ⟨n, rfl⟩ | ⟨f, rfl⟩
  · exact (constants_spec h).1
  · exact ⟨intText_ne_nil n, fun c hc => isAtomChar_of_isFloatChar (isFloatChar_of_int hc)⟩
  · refine ⟨fun he => ?_, fun c hc => isAtomChar_of_isFloatChar (f.chars hc)⟩
    obtain ⟨c, hc, -⟩ := f.point
    rw [Json.text] at he
    rw [he] at hc
    cases hc

/-- A constant has a letter no number has, and a float has a point or an exponent. -/
theorem atom_inj {x y : Json} (hx : x.kind = .atom) (hy : y.kind = .atom)
    (h : x.text = y.text) : x = y := by
  have noFloat : ∀ {z w : Json}, z ∈ constants → w.text = z.text →
      ¬ ∀ c ∈ w.text, isFloatChar c = true := by
    intro z w hz hzw hw
    obtain ⟨c, hc, hf⟩ := (constants_spec hz).2
    rw [hw c (hzw ▸ hc)] at hf
    cases hf
  have noInt : ∀ (n : Int) (f : FloatText), intText n ≠ f.text.toList := by
    intro n f hnf
    obtain ⟨c, hc, hp⟩ := f.point
    rw [← hnf] at hc
    rcases intText_chars hc with hd | rfl
    · rcases hp with rfl | rfl <;> exact absurd hd (by decide)
    · exact absurd hp (by decide)
  rcases atom_cases hx with hx | ⟨m, rfl⟩ | ⟨f, rfl⟩
  · rcases atom_cases hy with hy | ⟨n, rfl⟩ | ⟨g, rfl⟩
    · simp only [constants, List.mem_cons, List.not_mem_nil, or_false] at hx hy
      rcases hx with rfl | rfl | rfl | rfl | rfl | rfl <;>
        rcases hy with rfl | rfl | rfl | rfl | rfl | rfl <;>
        first | rfl | exact absurd h (by decide)
    · exact (noFloat hx h.symm fun _ hc => isFloatChar_of_int hc).elim
    · exact (noFloat hx h.symm fun _ hc => g.chars hc).elim
  · rcases atom_cases hy with hy | ⟨n, rfl⟩ | ⟨g, rfl⟩
    · exact (noFloat hy h fun _ hc => isFloatChar_of_int hc).elim
    · rw [intText_inj h]
    · exact (noInt m g h).elim
  · rcases atom_cases hy with hy | ⟨n, rfl⟩ | ⟨g, rfl⟩
    · exact (noFloat hy h fun _ hc => f.chars hc).elim
    · exact (noInt n f h.symm).elim
    · cases f
      cases g
      rw [Json.text, Json.text] at h
      cases String.toList_injective h
      rfl

/-- The first character tells the sort. -/
theorem kindOf_text (x : Json) (r : List Char) : kindOf (x.text ++ r) = x.kind := by
  by_cases h : x.kind = .atom
  · obtain ⟨hne, hc⟩ := atom_spec h
    rw [h]
    cases ht : x.text with
    | nil => exact absurd ht hne
    | cons c cs =>
        have ha := hc c (ht ▸ List.mem_cons_self)
        rw [List.cons_append]
        unfold kindOf
        split
        · next heq => cases heq; exact absurd ha (by decide)
        · next heq => cases heq; exact absurd ha (by decide)
        · next heq => cases heq; exact absurd ha (by decide)
        · rfl
  · cases x with
    | str s => rfl
    | arr items => cases items <;> rfl
    | obj fields => cases fields <;> rfl
    | _ => exact absurd rfl h

/-- Values that begin alike are of one sort. -/
theorem kind_eq {x y : Json} {u v : List Char} (h : x.text ++ u = y.text ++ v) :
    y.kind = x.kind := by
  rw [← kindOf_text y v, ← h, kindOf_text]

/-- A text does not begin where a list or an object ends. -/
theorem text_head (x : Json) (u : List Char) :
    (x.text ++ u).head? ≠ some ']' ∧ (x.text ++ u).head? ≠ some '\x7d' := by
  by_cases h : x.kind = .atom
  · obtain ⟨hne, hc⟩ := atom_spec h
    cases ht : x.text with
    | nil => exact absurd ht hne
    | cons c cs =>
        have ha := hc c (ht ▸ List.mem_cons_self)
        rw [List.cons_append, List.head?_cons]
        constructor <;>
        · intro he
          cases he
          exact absurd ha (by decide)
  · cases x with
    | str s => simp [Json.text, quoted]
    | arr items => cases items <;> simp [Json.text]
    | obj fields => cases fields <;> simp [Json.text]
    | _ => exact absurd rfl h

/-- An atom is told by its encoding, where that is delimited. -/
theorem atom_append_inj {x y : Json} {u v : List Char} (hx : x.kind = .atom) (hu : Delimited u)
    (hv : Delimited v) (h : x.text ++ u = y.text ++ v) : x = y ∧ u = v := by
  have hy : y.kind = .atom := (kind_eq h).trans hx
  have ht := congrArg (List.takeWhile isAtomChar) h
  rw [List.takeWhile_append_of_pos (atom_spec hx).2, List.takeWhile_append_of_pos (atom_spec hy).2,
    hu.takeWhile, hv.takeWhile, List.append_nil, List.append_nil] at ht
  refine ⟨atom_inj hx hy ht, ?_⟩
  rw [ht] at h
  exact List.append_cancel_left h

mutual

/-- **Injectivity.**  A text that begins with the text of a value begins with no other value's. -/
theorem text_append_inj : (x y : Json) → (u v : List Char) → Delimited u → Delimited v →
    x.text ++ u = y.text ++ v → x = y ∧ u = v
  | .str s, y, u, v, _, _, h => by
      have hk := kind_eq h
      cases y with
      | str t =>
          obtain ⟨rfl, huv⟩ := quoted_inj h
          exact ⟨rfl, huv⟩
      | _ => cases hk
  | .arr [], y, u, v, _, _, h => by
      have hk := kind_eq h
      cases y with
      | arr m =>
          cases m with
          | nil => exact ⟨rfl, by simpa [Json.text] using h⟩
          | cons b m =>
              simp only [Json.text, List.cons_append, List.append_assoc, List.cons.injEq,
                true_and] at h
              exact absurd (congrArg List.head? h).symm (text_head b _).1
      | _ => cases hk
  -- Item by item: what stands after an item is delimited.
  | .arr (a :: l), y, u, v, _, _, h => by
      have hk := kind_eq h
      cases y with
      | arr m =>
          cases m with
          | nil =>
              simp only [Json.text, List.cons_append, List.append_assoc, List.cons.injEq,
                true_and] at h
              exact absurd (congrArg List.head? h) (text_head a _).1
          | cons b m =>
              simp only [Json.text, List.cons_append, List.append_assoc, List.cons.injEq,
                true_and] at h
              obtain ⟨rfl, hl⟩ := text_append_inj a b _ _ (delimited_items l u)
                (delimited_items m v) h
              obtain ⟨rfl, huv⟩ := itemsText_inj l m u v hl
              exact ⟨rfl, huv⟩
      | _ => cases hk
  | .obj [], y, u, v, _, _, h => by
      have hk := kind_eq h
      cases y with
      | obj m =>
          cases m with
          | nil => exact ⟨rfl, by simpa [Json.text] using h⟩
          | cons b m => simp [Json.text, quoted] at h
      | _ => cases hk
  | .obj ((j, a) :: l), y, u, v, _, _, h => by
      have hk := kind_eq h
      cases y with
      | obj m =>
          cases m with
          | nil => simp [Json.text, quoted] at h
          | cons b m =>
              simp only [Json.text, List.cons_append, List.append_assoc, List.cons.injEq,
                true_and] at h
              obtain ⟨rfl, ht⟩ := quoted_inj h
              simp only [List.cons.injEq, true_and] at ht
              obtain ⟨rfl, hl⟩ := text_append_inj a b.2 _ _ (delimited_fields l u)
                (delimited_fields m v) ht
              obtain ⟨rfl, huv⟩ := fieldsText_inj l m u v hl
              exact ⟨rfl, huv⟩
      | _ => cases hk
  | .null, _, _, _, hu, hv, h => atom_append_inj rfl hu hv h
  | .bool _, _, _, _, hu, hv, h => atom_append_inj rfl hu hv h
  | .num _, _, _, _, hu, hv, h => atom_append_inj rfl hu hv h
  | .float _, _, _, _, hu, hv, h => atom_append_inj rfl hu hv h
  | .nonfinite _, _, _, _, hu, hv, h => atom_append_inj rfl hu hv h

/-- So are items. -/
theorem itemsText_inj : (l m : List Json) → (u v : List Char) →
    itemsText l ++ u = itemsText m ++ v → l = m ∧ u = v
  | [], [], _, _, h => ⟨rfl, by simpa [itemsText] using h⟩
  | [], b :: m, _, _, h => by simp [itemsText] at h
  | a :: l, [], _, _, h => by simp [itemsText] at h
  | a :: l, b :: m, u, v, h => by
      simp only [itemsText, List.cons_append, List.append_assoc, List.cons.injEq, true_and] at h
      obtain ⟨rfl, hl⟩ := text_append_inj a b _ _ (delimited_items l u) (delimited_items m v) h
      obtain ⟨rfl, huv⟩ := itemsText_inj l m u v hl
      exact ⟨rfl, huv⟩

/-- So are fields. -/
theorem fieldsText_inj : (l m : List (String × Json)) → (u v : List Char) →
    fieldsText l ++ u = fieldsText m ++ v → l = m ∧ u = v
  | [], [], _, _, h => ⟨rfl, by simpa [fieldsText] using h⟩
  | [], b :: m, _, _, h => by simp [fieldsText] at h
  | a :: l, [], _, _, h => by simp [fieldsText] at h
  | (j, a) :: l, (k, b) :: m, u, v, h => by
      simp only [fieldsText, List.cons_append, List.append_assoc, List.cons.injEq, true_and] at h
      obtain ⟨rfl, ht⟩ := quoted_inj h
      simp only [List.cons.injEq, true_and] at ht
      obtain ⟨rfl, hl⟩ := text_append_inj a b _ _ (delimited_fields l u) (delimited_fields m v) ht
      obtain ⟨rfl, huv⟩ := fieldsText_inj l m u v hl
      exact ⟨rfl, huv⟩

end

/-- A value is told by its encoding. -/
theorem text_inj {x y : Json} (h : x.text = y.text) : x = y :=
  (text_append_inj x y [] [] (fun _ h => by cases h) (fun _ h => by cases h)
    (by rw [h])).1

instance : DecidableEq Json := fun x y =>
  decidable_of_iff (x.text = y.text) ⟨text_inj, congrArg Json.text⟩

/-! ### Equality up to the order of entries -/

mutual

/-- Equal as JSON values: booleans, integers and floats are apart, and the order of the entries of
an object does not matter. -/
inductive Json.Same : Json → Json → Prop where
  | leaf {x : Json} (h : x.kind = .atom ∨ x.kind = .text) : Json.Same x x
  | arr {l m : List Json} (h : SameItems l m) : Json.Same (.arr l) (.arr m)
  | obj {l m n : List (String × Json)} (h : SameFields l m) (hp : m.Perm n) :
      Json.Same (.obj l) (.obj n)

/-- Items that are the same one by one. -/
inductive SameItems : List Json → List Json → Prop where
  | nil : SameItems [] []
  | cons {x y : Json} {l m : List Json} (h : Json.Same x y) (hs : SameItems l m) :
      SameItems (x :: l) (y :: m)

/-- Fields that are the same one by one. -/
inductive SameFields : List (String × Json) → List (String × Json) → Prop where
  | nil : SameFields [] []
  | cons {k : String} {x y : Json} {l m : List (String × Json)} (h : Json.Same x y)
      (hs : SameFields l m) : SameFields ((k, x) :: l) ((k, y) :: m)

end

theorem itemsSorted_eq (l : List Json) : itemsSorted l = l.map Json.sorted := by
  induction l with
  | nil => rfl
  | cons x l ih => rw [itemsSorted, ih, List.map_cons]

theorem fieldsSorted_eq (l : List (String × Json)) :
    fieldsSorted l = l.map fun e => (e.1, e.2.sorted) := by
  induction l with
  | nil => rfl
  | cons x l ih => rw [fieldsSorted, ih, List.map_cons]

/-- Sorting keys keeps the sort of a value. -/
theorem sorted_kind (x : Json) : x.sorted.kind = x.kind := by
  cases x <;> rfl

/-- Atoms and texts have no keys. -/
theorem sorted_leaf {x : Json} (h : x.kind = .atom ∨ x.kind = .text) : x.sorted = x := by
  cases x with
  | arr | obj => rcases h with h | h <;> cases h
  | _ => rfl

theorem sameItems_of {l m : List Json} (h : l.map Json.sorted = m.map Json.sorted)
    (hs : ∀ x ∈ l, ∀ y, x.sorted = y.sorted → x.Same y) : SameItems l m := by
  induction l generalizing m with
  | nil =>
      obtain rfl := List.map_eq_nil_iff.mp h.symm
      exact .nil
  | cons x l ih =>
      cases m with
      | nil => cases h
      | cons y m =>
          obtain ⟨hx, hl⟩ := List.cons.inj h
          exact .cons (hs x List.mem_cons_self y hx)
            (ih hl fun z hz => hs z (List.mem_cons_of_mem _ hz))

theorem sameFields_of {l m : List (String × Json)}
    (h : List.Forall₂ (fun a b => a.1 = b.1 ∧ a.2.sorted = b.2.sorted) l m)
    (hs : ∀ e ∈ l, ∀ y, e.2.sorted = y.sorted → e.2.Same y) : SameFields l m := by
  induction h with
  | nil => exact .nil
  | @cons a b l m hab _ ih =>
      obtain ⟨j, x⟩ := a
      obtain ⟨k, y⟩ := b
      obtain ⟨rfl, hx⟩ := hab
      exact .cons (hs _ List.mem_cons_self y hx) (ih fun z hz => hs z (List.mem_cons_of_mem _ hz))

/-- Values with the same sorted form are equal up to the order of entries. -/
theorem same_of_sorted (x y : Json) (h : x.sorted = y.sorted) : x.Same y := by
  have hk : y.kind = x.kind := by rw [← sorted_kind, ← h, sorted_kind]
  match x with
  | .arr l =>
      cases y with
      | arr m =>
          simp only [Json.sorted, itemsSorted_eq, Json.arr.injEq] at h
          exact .arr (sameItems_of h fun z hz y hy => same_of_sorted z y hy)
      | _ => cases hk
  | .obj l =>
      cases y with
      | obj n =>
          simp only [Json.sorted, fieldsSorted_eq, Json.obj.injEq] at h
          -- Both lists of sorted entries are permutations of the same list.
          have hp : (l.map fun e => (e.1, e.2.sorted)).Perm (n.map fun e => (e.1, e.2.sorted)) := by
            have hl := (List.perm_insertionSort (fun a b : String × Json => a.1 ≤ b.1)
              (l.map fun e => (e.1, e.2.sorted))).symm
            rw [h] at hl
            exact hl.trans (List.perm_insertionSort _ _)
          have hn : List.Forall₂ (fun a b => a.1 = b.1 ∧ a.2 = b.2.sorted)
              (n.map fun e => (e.1, e.2.sorted)) n := by
            rw [List.forall₂_map_left_iff]
            exact List.forall₂_same.mpr fun e _ => ⟨rfl, rfl⟩
          obtain ⟨m, hm, hmn⟩ := List.perm_comp_forall₂ hp hn
          rw [List.forall₂_map_left_iff] at hm
          exact .obj (sameFields_of hm fun e he y hy => same_of_sorted e.2 y hy) hmn
      | _ => cases hk
  | .str _ | .null | .bool _ | .num _ | .float _ | .nonfinite _ =>
      have hy : y.kind = .atom ∨ y.kind = .text := by first | exact .inl hk | exact .inr hk
      rw [sorted_leaf hy] at h
      rw [← h]
      exact .leaf (by first | exact .inl rfl | exact .inr rfl)
termination_by sizeOf x
decreasing_by
  · have := List.sizeOf_lt_of_mem hz
    simp only [Json.arr.sizeOf_spec]
    omega
  · have := List.sizeOf_lt_of_mem he
    have hle : sizeOf e.2 < sizeOf e := by
      cases e
      simp only [Prod.mk.sizeOf_spec]
      omega
    simp only [Json.obj.sizeOf_spec]
    omega

/-- The sorted texts of two values tell whether they are equal. -/
theorem same_of_canonical {x y : Json} (h : x.canonical = y.canonical) : x.Same y :=
  same_of_sorted x y (text_inj h)

end Orchestrator
