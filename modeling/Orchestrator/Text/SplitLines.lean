import Mathlib.Data.List.Basic
import Mathlib.Tactic.SplitIfs

/-!
# Text — lines

`text.splitlines(keepends=True)`.

* `splitLines`: the lines of a text, each with its end.
* `flatten_splitLines`: together they are the text.
* `length_splitLines_suffix`: a suffix has no more lines.
* `length_splitLines`: how many lines there are, where only newlines end them.
* `splitLines_flatten_drop`: the last lines of a text are the lines of what they make up.
-/

namespace Orchestrator.SplitLines

/-- A character that ends a line. -/
def isLineEnd (c : Char) : Bool :=
  (0x0A ≤ c.toNat && c.toNat ≤ 0x0D) || (0x1C ≤ c.toNat && c.toNat ≤ 0x1E) || c.toNat == 0x85 ||
    c.toNat == 0x2028 || c.toNat == 0x2029

/-- `text.splitlines(keepends=True)`. -/
def splitLines : List Char → List (List Char)
  | [] => []
  | '\r' :: '\n' :: cs => ['\r', '\n'] :: splitLines cs
  | c :: cs =>
      if isLineEnd c then [c] :: splitLines cs
      else match splitLines cs with
        | [] => [[c]]
        | line :: lines => (c :: line) :: lines

/-- `text.splitlines()`. -/
def withoutEnds (s : List Char) : List (List Char) :=
  (splitLines s).map fun line => line.filter (!isLineEnd ·)

theorem flatten_splitLines (s : List Char) : (splitLines s).flatten = s := by
  fun_induction splitLines s with
  | case1 => rfl
  | case2 cs ih => rw [List.flatten_cons, ih]; rfl
  | case3 c cs _ hend ih => rw [List.flatten_cons, ih]; rfl
  | case4 c cs _ hend hnil ih =>
      rw [hnil] at ih
      rw [← ih]
      rfl
  | case5 c cs _ hend line lines hlines ih =>
      rw [hlines] at ih
      rw [← ih]
      rfl

/-- A line is read from the rest of the text. -/
theorem splitLines_eq_cons {s line : List Char} {lines : List (List Char)}
    (h : splitLines s = line :: lines) : ∃ rest, s = line ++ rest ∧ lines = splitLines rest := by
  fun_induction splitLines s generalizing line lines with
  | case1 => cases h
  | case2 cs ih =>
      cases h
      exact ⟨cs, rfl, rfl⟩
  | case3 c cs _ hend ih =>
      cases h
      exact ⟨cs, rfl, rfl⟩
  | case4 c cs _ hend hnil ih =>
      cases h
      have hcs := flatten_splitLines cs
      rw [hnil] at hcs
      exact ⟨[], by rw [← hcs]; rfl, rfl⟩
  | case5 c cs _ hend first others hlines ih =>
      cases h
      obtain ⟨rest, hrest, hothers⟩ := ih hlines
      exact ⟨rest, by rw [hrest]; rfl, hothers⟩

/-- A character in front adds a line, or none. -/
theorem length_splitLines_cons (c : Char) (s : List Char) :
    (splitLines s).length ≤ (splitLines (c :: s)).length := by
  generalize ht : c :: s = t
  fun_cases splitLines t with
  | case1 => cases ht
  | case2 cs =>
      -- What ends the line was the end of a line already.
      cases ht
      have hrest : splitLines ('\n' :: cs) = ['\n'] :: splitLines cs := by
        rw [splitLines, if_pos (by decide)]
        intro cs' h
        cases h
      rw [hrest]
      exact Nat.le_refl _
  | case3 d cs _ hend =>
      cases ht
      exact Nat.le_succ _
  | case4 d cs _ hend hnil =>
      cases ht
      rw [hnil]
      exact Nat.zero_le _
  | case5 d cs _ hend line lines hlines =>
      cases ht
      rw [hlines]
      exact Nat.le_refl _

theorem length_splitLines_suffix {s t : List Char} (h : s <:+ t) :
    (splitLines s).length ≤ (splitLines t).length := by
  obtain ⟨x, rfl⟩ := h
  induction x with
  | nil => exact Nat.le_refl _
  | cons c x ih => exact Nat.le_trans ih (length_splitLines_cons c (x ++ s))

/-- The text goes on after its last newline. -/
def goesOn (s : List Char) : Bool := s.getLast?.any (· != '\n')

theorem goesOn_cons {c d : Char} {s : List Char} : goesOn (c :: d :: s) = goesOn (d :: s) := by
  rw [goesOn, List.getLast?_cons_cons, goesOn]

theorem splitLines_eq_nil {s : List Char} (h : splitLines s = []) : s = [] := by
  have hs := flatten_splitLines s
  rw [h] at hs
  exact hs.symm

/-- A line for each newline, and one for what comes after the last. -/
theorem length_splitLines {s : List Char} (h : ∀ c ∈ s, isLineEnd c = true → c = '\n') :
    (splitLines s).length = s.count '\n' + if goesOn s then 1 else 0 := by
  have hcr : isLineEnd '\r' = true := by decide
  fun_induction splitLines s with
  | case1 => rfl
  | case2 cs ih =>
      have := h '\r' List.mem_cons_self hcr
      cases this
  | case3 c cs _ hend ih =>
      obtain rfl := h c List.mem_cons_self hend
      rw [List.length_cons, ih fun d hd => h d (List.mem_cons_of_mem _ hd), List.count_cons_self]
      cases cs with
      | nil => rfl
      | cons d cs =>
          rw [goesOn_cons]
          omega
  | case4 c cs _ hend hnil ih =>
      obtain rfl := splitLines_eq_nil hnil
      have hc : c ≠ '\n' := fun he => hend (he ▸ (by decide))
      rw [List.count_cons_of_ne hc, goesOn, List.getLast?_singleton, Option.any_some,
        bne_iff_ne.mpr hc]
      rfl
  | case5 c cs _ hend line lines hlines ih =>
      have hc : c ≠ '\n' := fun he => hend (he ▸ (by decide))
      have hcs := ih fun d hd => h d (List.mem_cons_of_mem _ hd)
      rw [hlines] at hcs
      rw [List.count_cons_of_ne hc, List.length_cons, ← List.length_cons (a := line), hcs]
      cases cs with
      | nil => cases hlines
      | cons d cs => rw [goesOn_cons]

theorem splitLines_flatten_drop (s : List Char) (n : Nat) :
    splitLines ((splitLines s).drop n).flatten = (splitLines s).drop n := by
  induction n generalizing s with
  | zero => rw [List.drop_zero, flatten_splitLines]
  | succ n ih =>
      cases h : splitLines s with
      | nil => rfl
      | cons line lines =>
          obtain ⟨rest, -, rfl⟩ := splitLines_eq_cons h
          exact ih rest

/-- The last lines make up a suffix. -/
theorem flatten_drop_suffix (s : List Char) (n : Nat) :
    ((splitLines s).drop n).flatten <:+ s := by
  refine ⟨((splitLines s).take n).flatten, ?_⟩
  rw [← List.flatten_append, List.take_append_drop, flatten_splitLines]

end Orchestrator.SplitLines
