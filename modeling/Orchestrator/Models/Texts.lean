import Mathlib.Data.List.Basic
import Mathlib.Data.List.TakeDrop

/-!
# Models — texts and paths

The string and `pathlib` operations that ownership and containment rest on, as Python has them.

* `startsWith`, `split`, `join`, `splitOnce`, `rsplit`, `strip`, `clip`, `lower`: of strings.
* `PurePath`: a `PurePosixPath`.  Empty and `.` segments are dropped, `..` stays.
* `isRelativeTo`: one path below another, segment by segment.
* `normpath`: `os.path.normpath`, which resolves `..` in the text.
-/

namespace Orchestrator

/-! ### Strings -/

/-- `s.startswith(p)`. -/
def startsWith (s p : String) : Bool := p.toList.isPrefixOf s.toList

/-- `s.split(c)`. -/
def split (c : Char) (s : String) : List String := (s.toList.splitOn c).map String.ofList

/-- `c.join(parts)`. -/
def join (c : Char) (parts : List String) : String :=
  String.ofList ([c].intercalate (parts.map String.toList))

/-- `s.rsplit(c, 1)`, where there is a `c`. -/
def rsplit (c : Char) (s : String) : Option (String × String) :=
  match s.toList.reverse.dropWhile (· != c) with
  | [] => none
  | _ :: before => some (String.ofList before.reverse,
      String.ofList (s.toList.reverse.takeWhile (· != c)).reverse)

/-- `s.rsplit(c, 1)[-1]`. -/
def lastPart (c : Char) (s : String) : String :=
  match rsplit c s with
  | some (_, last) => last
  | none => s

/-- `s.split(c, 1)`, where there is a `c`. -/
def splitOnce (c : Char) (s : String) : Option (String × String) :=
  match s.toList.dropWhile (· != c) with
  | [] => none
  | _ :: after => some (String.ofList (s.toList.takeWhile (· != c)), String.ofList after)

/-- `c.isspace()`. -/
def isSpace (c : Char) : Bool :=
  let n := c.toNat
  (9 ≤ n && n ≤ 13) || (28 ≤ n && n ≤ 32) || n == 0x85 || n == 0xa0 || n == 0x1680 ||
    (0x2000 ≤ n && n ≤ 0x200a) || n == 0x2028 || n == 0x2029 || n == 0x202f || n == 0x205f ||
    n == 0x3000

/-- `s.strip()`. -/
def strip (s : String) : String :=
  String.ofList (((s.toList.dropWhile isSpace).reverse.dropWhile isSpace).reverse)

/-- `text[:n]`. -/
def clip (n : Nat) (text : String) : String := String.ofList (text.toList.take n)

/-- `_SHA.fullmatch(text)`. -/
def isFullSha (text : String) : Bool :=
  (text.length == 40 || text.length == 64) && text.toList.all fun c =>
    ('0' ≤ c && c ≤ '9') || ('a' ≤ c && c ≤ 'f') || ('A' ≤ c && c ≤ 'F')

/-- `re.fullmatch(r"[a-f0-9]{40}", text)`. -/
def isLowerSha (text : String) : Bool :=
  text.length == 40 && text.toList.all fun c => ('0' ≤ c && c ≤ '9') || ('a' ≤ c && c ≤ 'f')

/-- `text.lower()`, on the texts the code lowers: hexadecimal digits. -/
def lower (text : String) : String := String.ofList (text.toList.map Char.toLower)

theorem startsWith_iff {s p : String} :
    startsWith s p = true ↔ ∃ rest, s.toList = p.toList ++ rest := by
  rw [startsWith, List.isPrefixOf_iff_prefix]
  constructor
  · rintro ⟨rest, h⟩; exact ⟨rest, h.symm⟩
  · rintro ⟨rest, h⟩; exact ⟨rest, h.symm⟩

theorem rsplit_eq_some {c : Char} {s a b : String} (h : rsplit c s = some (a, b)) :
    s.toList = a.toList ++ c :: b.toList ∧ c ∉ b.toList := by
  unfold rsplit at h
  split at h
  · cases h
  · next x before hx =>
      cases h
      have hc : x = c := by
        have := List.head?_dropWhile_not (p := (· != c)) (l := s.toList.reverse)
        rw [hx] at this
        simpa using this
      have hs := List.takeWhile_append_dropWhile (p := (· != c)) (l := s.toList.reverse)
      rw [hx, hc] at hs
      refine ⟨?_, fun hm => ?_⟩
      · have := congrArg List.reverse hs
        simp only [List.reverse_append, List.reverse_cons, List.reverse_reverse] at this
        rw [String.toList_ofList, String.toList_ofList, List.append_cons]
        exact this.symm
      · rw [String.toList_ofList, List.mem_reverse] at hm
        have := List.all_takeWhile (p := (· != c)) (l := s.toList.reverse)
        simpa using List.all_eq_true.mp this c hm

/-- Two cuts of a list at one mark are the same, or each part that is longer has the other mark. -/
theorem cut_cases {α : Type} {c : α} {a b a' b' : List α} (h : a ++ c :: b = a' ++ c :: b') :
    (a = a' ∧ b = b') ∨ (c ∈ a' ∧ c ∈ b) ∨ (c ∈ a ∧ c ∈ b') := by
  rcases List.append_eq_append_iff.mp h with ⟨x, hx, hy⟩ | ⟨x, hx, hy⟩
  · cases x with
    | nil => exact .inl ⟨by simpa using hx.symm, by simpa using hy⟩
    | cons d x =>
        obtain ⟨rfl, rfl⟩ := List.cons.inj hy
        exact .inr (.inl ⟨by rw [hx]; simp, by simp⟩)
  · cases x with
    | nil => exact .inl ⟨by simpa using hx, by simpa using hy.symm⟩
    | cons d x =>
        obtain ⟨rfl, rfl⟩ := List.cons.inj hy
        exact .inr (.inr ⟨by rw [hx]; simp, by simp⟩)

/-- A list is cut in one way only at a mark that occurs once. -/
theorem cut_unique {α : Type} {c : α} {a b a' b' : List α} (h : a ++ c :: b = a' ++ c :: b')
    (ha : c ∉ a') (hb : c ∉ b') : a = a' ∧ b = b' := by
  rcases cut_cases h with h | ⟨h, -⟩ | ⟨-, h⟩
  · exact h
  · exact absurd h ha
  · exact absurd h hb

/-- Cuts at the first mark are the same. -/
theorem first_cut_unique {α : Type} {c : α} {a b a' b' : List α} (h : a ++ c :: b = a' ++ c :: b')
    (ha : c ∉ a) (ha' : c ∉ a') : a = a' ∧ b = b' := by
  rcases cut_cases h with h | ⟨h, -⟩ | ⟨h, -⟩
  · exact h
  · exact absurd h ha'
  · exact absurd h ha

/-- Cuts at the last mark are the same. -/
theorem last_cut_unique {α : Type} {c : α} {a b a' b' : List α} (h : a ++ c :: b = a' ++ c :: b')
    (hb : c ∉ b) (hb' : c ∉ b') : a = a' ∧ b = b' := by
  rcases cut_cases h with h | ⟨-, h⟩ | ⟨-, h⟩
  · exact h
  · exact absurd h hb
  · exact absurd h hb'

theorem toDigits_inj {m n : Nat} (h : Nat.toDigits 10 m = Nat.toDigits 10 n) : m = n := by
  rw [← Nat.ofDigitChars_ten_toDigits (n := m), h, Nat.ofDigitChars_ten_toDigits]

theorem toString_injective {m n : Nat} (h : toString m = toString n) : m = n := by
  have h := congrArg String.toList h
  rw [Nat.toString_eq_repr, Nat.toString_eq_repr, Nat.toList_repr, Nat.toList_repr] at h
  exact toDigits_inj h

/-- No part of a text has the separator. -/
theorem not_mem_splitOn {c : Char} {l part : List Char} (h : part ∈ l.splitOn c) : c ∉ part := by
  induction l generalizing part with
  | nil =>
      rw [List.splitOn_nil, List.mem_singleton] at h
      rw [h]
      exact List.not_mem_nil
  | cons x l ih =>
      rw [List.splitOn_cons_eq_if_modifyHead] at h
      split at h
      · rcases List.mem_cons.mp h with rfl | h
        · exact List.not_mem_nil
        · exact ih h
      · next hx =>
          cases hl : l.splitOn c with
          | nil => exact absurd hl (List.splitOn_ne_nil _ _)
          | cons first rest =>
              rw [hl, List.modifyHead_cons] at h
              rcases List.mem_cons.mp h with rfl | h
              · intro hc
                rcases List.mem_cons.mp hc with rfl | hc
                · simp at hx
                · exact ih (hl ▸ List.mem_cons_self) hc
              · exact ih (hl ▸ List.mem_cons_of_mem _ h)

/-- A part stands between two separators, or at an end of the text. -/
theorem part_of_splitOn {c : Char} {l part : List Char} (h : part ∈ l.splitOn c) :
    ∃ left right, l = left ++ (part ++ right) ∧ (left = [] ∨ ∃ start, left = start ++ [c]) ∧
      (right = [] ∨ ∃ rest, right = c :: rest) := by
  induction hl : l.length using Nat.strongRecOn generalizing l with
  | ind n ih =>
      by_cases hm : c ∈ l
      · obtain ⟨x, y, rfl, hx⟩ := List.eq_append_cons_of_mem hm
        rw [List.splitOn_append_cons_self, List.splitOn_eq_singleton hx] at h
        rcases List.mem_append.mp h with h | h
        · obtain rfl := List.mem_singleton.mp h
          exact ⟨[], c :: y, rfl, .inl rfl, .inr ⟨y, rfl⟩⟩
        · have hlt : y.length < n := by
            rw [← hl, List.length_append, List.length_cons]
            omega
          obtain ⟨left, right, rfl, hleft, hright⟩ := ih y.length hlt h rfl
          refine ⟨x ++ c :: left, right, by simp, .inr ?_, hright⟩
          rcases hleft with rfl | ⟨start, rfl⟩
          · exact ⟨x, rfl⟩
          · exact ⟨x ++ c :: start, by simp⟩
      · rw [List.splitOn_eq_singleton hm, List.mem_singleton] at h
        exact ⟨[], [], by simp [h], .inl rfl, .inl rfl⟩

/-! ### Paths -/

/-- A `PurePosixPath`: its root (`""`, `"/"` or `"//"`), and its segments. -/
structure PurePath where
  root : String
  segments : List String
  deriving DecidableEq, Repr

namespace PurePath

/-- The root of a text: two slashes, no more and no less, are kept. -/
def rootOf (s : String) : String :=
  match s.toList with
  | '/' :: '/' :: '/' :: _ => "/"
  | '/' :: '/' :: _ => "//"
  | '/' :: _ => "/"
  | _ => ""

def parse (s : String) : PurePath where
  root := rootOf s
  segments := (split '/' s).filter fun x => x != "" && x != "."

theorem root_eq_empty {s : String} :
    (parse s).root = "" ↔ startsWith s "/" = false := by
  unfold parse rootOf startsWith
  dsimp only
  generalize s.toList = l
  split
  · simp
  · simp
  · simp
  · next h =>
      cases l with
      | nil => simp
      | cons c cs =>
          have hc : ('/' == c) = false := beq_false_of_ne fun hc => h cs (hc ▸ rfl)
          simp [List.isPrefixOf, hc]

/-- `p / q`, for a relative `q`. -/
def append (p : PurePath) (q : List String) : PurePath := { p with segments := p.segments ++ q }

/-- `str(p)`. -/
def toText (p : PurePath) : String :=
  if p.root == "" && p.segments.isEmpty then "." else p.root ++ join '/' p.segments

/-- `p.is_relative_to(q)`. -/
def isRelativeTo (p q : PurePath) : Bool :=
  p.root == q.root && q.segments.isPrefixOf p.segments

/-- One segment of `normpath`, onto those before it. -/
def normSegment (rooted : Bool) (before : List String) (x : String) : List String :=
  if x = ".." then
    match before.getLast? with
    | none => if rooted then [] else [".."]
    | some last => if last = ".." then before ++ [".."] else before.dropLast
  else before ++ [x]

/-- `Path(os.path.normpath(s))`. -/
def normpath (s : String) : PurePath where
  root := rootOf s
  segments := (parse s).segments.foldl (normSegment (rootOf s != "")) []

end PurePath

end Orchestrator
