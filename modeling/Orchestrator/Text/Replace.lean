import Mathlib.Data.List.Infix

/-!
# Text — replacement

A text is searched from the left, parts of it are replaced by one mark, and the rest stays: the
result is the pieces that stay, with the mark between them.

* `pieces`: what stays, for a matcher that says how much of a match to keep and to drop.
* `substitute`, `replace`: the text with the mark; a matcher, and a fixed text.
* `Apart`: a text that the mark cannot be part of, in whole or at its ends.
* `not_infix_intercalate`: marks between pieces do not make a text that is apart from the mark.
* `not_infix_replace`, `not_infix_replace_self`: after a replacement.
* `replace_of_not_infix`: what is not there is not replaced.
* `count_replace`: a replacement that keeps the number of an element.
* `replace_last`: a replacement that keeps the last element.
-/

namespace Orchestrator.Replace

variable {α : Type}

/-! ### The search -/

/-- A match: how many elements stay, and how many are dropped after them. -/
structure Match where
  keep : Nat
  drop : Nat

/-- Where the search is: in a match, of which elements stay or are dropped, or not. -/
inductive Mode where
  | search
  | keep (n drop : Nat)
  | drop (n : Nat)

/-- An element in front of the first piece. -/
def attach (a : α) : List (List α) → List (List α)
  | [] => [[a]]
  | p :: ps => (a :: p) :: ps

/-- What stays of a text, cut where a part has been dropped. -/
def pieces (find : List α → Option Match) : Mode → List α → List (List α)
  | _, [] => [[]]
  | .drop (n + 1), _ :: as => pieces find (.drop n) as
  | .keep (k + 1) d, a :: as => attach a (pieces find (.keep k d) as)
  | .keep 0 d, _ :: as => [] :: pieces find (.drop (d - 1)) as
  | .search, a :: as | .drop 0, a :: as =>
      match find (a :: as) with
      | none => attach a (pieces find .search as)
      | some ⟨0, d⟩ => [] :: pieces find (.drop (d - 1)) as
      | some ⟨k + 1, d⟩ => attach a (pieces find (.keep k d) as)

/-- `re.sub`, with the mark for what a match drops. -/
def substitute (find : List α → Option Match) (mark text : List α) : List α :=
  mark.intercalate (pieces find .search text)

/-- A match of a fixed text: all of it is dropped. -/
def literal [DecidableEq α] (old text : List α) : Option Match :=
  if old.isPrefixOf text then some ⟨0, old.length⟩ else none

/-- `text.replace(old, mark)`, for a nonempty `old`. -/
def replace [DecidableEq α] (old mark text : List α) : List α := substitute (literal old) mark text

/-! ### The pieces -/

/-- Nothing has been dropped yet. -/
def Mode.fresh : Mode → Prop
  | .drop (_ + 1) => False
  | _ => True

theorem attach_infix {a : α} {l : List (List α)} {as : List α}
    (hl : ∃ p ps, l = p :: ps ∧ p <+: as ∧ ∀ q ∈ ps, q <:+: as) :
    ∃ p ps, attach a l = p :: ps ∧ p <+: a :: as ∧ ∀ q ∈ ps, q <:+: a :: as := by
  obtain ⟨p, ps, rfl, hp, hps⟩ := hl
  refine ⟨a :: p, ps, rfl, List.cons_prefix_cons.mpr ⟨rfl, hp⟩, fun q hq => ?_⟩
  exact (hps q hq).trans (List.suffix_cons a as).isInfix

/-- Every piece is part of the text, and the first one its beginning. -/
theorem pieces_infix (find : List α → Option Match) (mode : Mode) (text : List α) :
    ∃ p ps, pieces find mode text = p :: ps ∧ (mode.fresh → p <+: text) ∧ p <:+: text ∧
      ∀ q ∈ ps, q <:+: text := by
  -- A piece ends here, and an empty one stands before the others.
  have cut {m : Mode} {a : α} {as : List α}
      (h : ∃ p ps, pieces find m as = p :: ps ∧ (m.fresh → p <+: as) ∧ p <:+: as ∧
        ∀ q ∈ ps, q <:+: as) {t : Prop} :
      ∃ p ps, [] :: pieces find m as = p :: ps ∧ (t → p <+: a :: as) ∧ p <:+: a :: as ∧
        ∀ q ∈ ps, q <:+: a :: as := by
    obtain ⟨p, ps, he, -, hp, hps⟩ := h
    refine ⟨[], _, rfl, fun _ => List.nil_prefix, List.nil_infix, fun q hq => ?_⟩
    rw [he] at hq
    rcases List.mem_cons.mp hq with rfl | hq
    · exact hp.trans (List.suffix_cons a as).isInfix
    · exact (hps q hq).trans (List.suffix_cons a as).isInfix
  -- The first piece goes on to the left.
  have stay {m : Mode} {a : α} {as : List α} (hm : m.fresh)
      (h : ∃ p ps, pieces find m as = p :: ps ∧ (m.fresh → p <+: as) ∧ p <:+: as ∧
        ∀ q ∈ ps, q <:+: as) {t : Prop} :
      ∃ p ps, attach a (pieces find m as) = p :: ps ∧ (t → p <+: a :: as) ∧ p <:+: a :: as ∧
        ∀ q ∈ ps, q <:+: a :: as := by
    obtain ⟨p, ps, he, hpre, -, hps⟩ := h
    obtain ⟨q, qs, hq, hqp, hqs⟩ := attach_infix (a := a) ⟨p, ps, he, hpre hm, hps⟩
    exact ⟨q, qs, hq, fun _ => hqp, hqp.isInfix, hqs⟩
  induction text generalizing mode with
  | nil =>
      refine ⟨[], [], ?_, fun _ => List.nil_prefix, List.nil_infix, by simp⟩
      cases mode <;> rfl
  | cons a as ih =>
      have search : ∃ p ps, pieces find .search (a :: as) = p :: ps ∧ (True → p <+: a :: as) ∧
          p <:+: a :: as ∧ ∀ q ∈ ps, q <:+: a :: as := by
        simp only [pieces]
        split
        · exact stay (m := .search) trivial (ih _)
        · exact cut (ih _)
        · exact stay (m := .keep _ _) trivial (ih _)
      match mode with
      | .drop (n + 1) =>
          obtain ⟨p, ps, he, -, hp, hps⟩ := ih (.drop n)
          refine ⟨p, ps, he, fun h => h.elim, hp.trans (List.suffix_cons a as).isInfix, ?_⟩
          exact fun q hq => (hps q hq).trans (List.suffix_cons a as).isInfix
      | .keep (k + 1) d => exact stay (m := .keep k d) trivial (ih _)
      | .keep 0 d => exact cut (ih _)
      | .search => exact search
      | .drop 0 => exact search

/-- A piece is part of the text. -/
theorem infix_of_mem_pieces {find : List α → Option Match} {mode : Mode} {text p : List α}
    (h : p ∈ pieces find mode text) : p <:+: text := by
  obtain ⟨q, qs, he, -, hq, hqs⟩ := pieces_infix find mode text
  rw [he] at h
  rcases List.mem_cons.mp h with rfl | h
  · exact hq
  · exact hqs p h

/-- What is replaced is in no piece. -/
theorem not_infix_of_mem_pieces [DecidableEq α] {old text p : List α} (hold : old ≠ []) (n : Nat)
    (h : p ∈ pieces (literal old) (.drop n) text) : ¬ old <:+: p := by
  have none_in_nil : ¬ old <:+: [] := fun h => hold (List.infix_nil.mp h)
  induction text generalizing n p with
  | nil =>
      have hp : p = [] := by
        cases n <;> simpa [pieces] using h
      rw [hp]
      exact none_in_nil
  | cons a as ih =>
      match n with
      | n + 1 => exact ih n h
      | 0 =>
          simp only [pieces, literal] at h
          by_cases hb : old.isPrefixOf (a :: as) = true
          · rw [if_pos hb] at h
            obtain ⟨k, hk⟩ : ∃ k, old.length = k + 1 :=
              Nat.exists_eq_succ_of_ne_zero (fun h => hold (List.length_eq_zero_iff.mp h))
            rw [hk] at h
            rcases List.mem_cons.mp h with rfl | h
            · exact none_in_nil
            · exact ih k h
          · rw [if_neg hb] at h
            have hsearch : pieces (literal old) .search as = pieces (literal old) (.drop 0) as := by
              cases as <;> rfl
            obtain ⟨q, qs, he, hpre, -⟩ := pieces_infix (literal old) .search as
            simp only [he, attach, List.mem_cons] at h
            have hmem (r : List α) (hr : r ∈ q :: qs) : ¬ old <:+: r :=
              ih 0 (by rwa [← hsearch, he])
            rcases h with rfl | h
            · rw [List.infix_cons_iff]
              rintro (hp | hi)
              · -- The text would have matched here.
                exact hb (List.isPrefixOf_iff_prefix.mpr
                  (hp.trans (List.cons_prefix_cons.mpr ⟨rfl, hpre trivial⟩)))
              · exact hmem q List.mem_cons_self hi
            · exact hmem p (List.mem_cons_of_mem _ h)

/-! ### Marks -/

/-- `s` and the mark cannot overlap. -/
def Apart (s mark : List α) : Prop :=
  (∀ p ∈ mark.tails, p ≠ [] → ¬ p <+: s) ∧ (∀ p ∈ mark.inits, p ≠ [] → ¬ p <:+ s) ∧
    ¬ mark <:+: s ∧ ¬ s <:+: mark

instance [DecidableEq α] (s mark : List α) : Decidable (Apart s mark) := by
  unfold Apart
  infer_instance

/-- Where `s` is found around a mark, it is on one side of it. -/
theorem infix_of_apart {s mark u v : List α} (h : Apart s mark) (hi : s <:+: u ++ (mark ++ v)) :
    s <:+: u ∨ s <:+: v := by
  obtain ⟨hsuf, hpre, hin, hof⟩ := h
  obtain ⟨x, y, hxy⟩ := hi
  rw [List.append_assoc] at hxy
  rcases List.append_eq_append_iff.mp hxy with ⟨u₂, hu, hs⟩ | ⟨m₁, hx, hm⟩
  · -- It starts in `u`, at `u₂`.
    rcases List.append_eq_append_iff.mp hs with ⟨u₃, hu₂, -⟩ | ⟨s₂, hs₂, hm⟩
    · left
      exact ⟨x, u₃, by rw [List.append_assoc, ← hu₂, ← hu]⟩
    · by_cases hne : s₂ = []
      · left
        refine ⟨x, [], ?_⟩
        rw [List.append_nil, hs₂, hne, List.append_nil, ← hu]
      · rcases List.append_eq_append_iff.mp hm with ⟨s₃, hs₃, -⟩ | ⟨m₂, hm₂, -⟩
        · exact absurd ⟨u₂, s₃, by rw [hs₂, hs₃, List.append_assoc]⟩ hin
        · refine absurd ⟨u₂, hs₂.symm⟩ (hpre s₂ ?_ hne)
          exact (List.mem_inits _ _).mpr ⟨m₂, hm₂.symm⟩
  · -- It starts after `m₁`.
    rcases List.append_eq_append_iff.mp hm with ⟨v₁, -, hv⟩ | ⟨m₂, hm₂, hs⟩
    · right
      exact ⟨v₁, y, by rw [List.append_assoc, hv]⟩
    · by_cases hne : m₂ = []
      · right
        rw [hne, List.nil_append] at hs
        exact ⟨[], y, by rw [List.nil_append, hs]⟩
      · rcases List.append_eq_append_iff.mp hs with ⟨m₃, hm₃, -⟩ | ⟨s₂, hs₂, -⟩
        · exact absurd ⟨m₁, m₃, by rw [hm₂, hm₃, List.append_assoc]⟩ hof
        · refine absurd ⟨s₂, hs₂.symm⟩ (hsuf m₂ ?_ hne)
          exact (List.mem_tails _ _).mpr ⟨m₁, hm₂.symm⟩

/-- The first element of the one is not in the other, and the other way round. -/
theorem apart_of_heads {a b : α} {s mark : List α} (ha : a ∉ b :: mark) (hb : b ∉ a :: s) :
    Apart (a :: s) (b :: mark) := by
  refine ⟨fun p hp hne hpre => ?_, fun p hp hne hsuf => ?_, fun hi => ?_, fun hi => ?_⟩
  · obtain ⟨x, p, rfl⟩ := List.exists_cons_of_ne_nil hne
    obtain ⟨rfl, -⟩ := List.cons_prefix_cons.mp hpre
    exact ha (((List.mem_tails _ _).mp hp).subset List.mem_cons_self)
  · obtain ⟨x, p, rfl⟩ := List.exists_cons_of_ne_nil hne
    obtain ⟨rfl, -⟩ := List.cons_prefix_cons.mp ((List.mem_inits _ _).mp hp)
    exact hb (hsuf.subset List.mem_cons_self)
  · exact hb (hi.subset List.mem_cons_self)
  · exact ha (hi.subset List.mem_cons_self)

/-- What is in no piece, and apart from the mark, is not in the whole. -/
theorem not_infix_intercalate {s mark : List α} {l : List (List α)} (hs : s ≠ [])
    (h : Apart s mark) (hl : ∀ p ∈ l, ¬ s <:+: p) : ¬ s <:+: mark.intercalate l := by
  induction l with
  | nil =>
      intro hi
      exact hs (List.infix_nil.mp (by simpa [List.intercalate] using hi))
  | cons p l ih =>
      cases l with
      | nil => simpa [List.intercalate] using hl p List.mem_cons_self
      | cons q l =>
          have he : mark.intercalate (p :: q :: l) = p ++ (mark ++ mark.intercalate (q :: l)) := by
            simp [List.intercalate, List.intersperse]
          rw [he]
          intro hi
          rcases infix_of_apart h hi with hp | hq
          · exact hl p List.mem_cons_self hp
          · exact ih (fun r hr => hl r (List.mem_cons_of_mem _ hr)) hq

/-! ### Replacements -/

/-- Where nothing is found, nothing is replaced. -/
theorem substitute_of_none {find : List α → Option Match} {mark text : List α}
    (h : ∀ u, u <:+ text → find u = none) : substitute find mark text = text := by
  have hpieces : pieces find .search text = [text] := by
    induction text with
    | nil => rfl
    | cons a as ih =>
        rw [pieces, h _ List.suffix_rfl]
        dsimp only
        rw [ih fun u hu => h u (hu.trans (List.suffix_cons a as))]
        rfl
  rw [substitute, hpieces, List.intercalate_singleton]

theorem replace_of_not_infix [DecidableEq α] {old mark text : List α} (h : ¬ old <:+: text) :
    replace old mark text = text := by
  refine substitute_of_none fun u hu => if_neg fun hb => h ?_
  exact (List.isPrefixOf_iff_prefix.mp hb).isInfix.trans hu.isInfix

theorem not_infix_substitute {find : List α → Option Match} {s mark text : List α} (hs : s ≠ [])
    (h : Apart s mark) (ht : ¬ s <:+: text) : ¬ s <:+: substitute find mark text :=
  not_infix_intercalate hs h fun _ hp hi => ht (hi.trans (infix_of_mem_pieces hp))

/-- What was not in the text, and is apart from the mark, is not made by a replacement. -/
theorem not_infix_replace [DecidableEq α] {old s mark text : List α} (hs : s ≠ [])
    (h : Apart s mark) (ht : ¬ s <:+: text) : ¬ s <:+: replace old mark text :=
  not_infix_substitute hs h ht

/-- What is replaced is gone, if it is apart from the mark. -/
theorem not_infix_replace_self [DecidableEq α] {s mark text : List α} (hs : s ≠ [])
    (h : Apart s mark) :
    ¬ s <:+: replace s mark text := by
  refine not_infix_intercalate hs h fun p hp => @not_infix_of_mem_pieces α _ s text p hs 0 ?_
  have he : pieces (literal s) .search text = pieces (literal s) (.drop 0) text := by
    cases text <;> rfl
  rwa [← he]

theorem infix_of_replace [DecidableEq α] {old s mark text : List α} (hs : s ≠ [])
    (h : Apart s mark) (hi : s <:+: replace old mark text) : s <:+: text := by
  by_contra hno
  exact not_infix_replace hs h hno hi

/-! ### Counting -/

theorem count_attach [DecidableEq α] {x a : α} {mark : List α} {l : List (List α)} (hl : l ≠ []) :
    (mark.intercalate (attach a l)).count x = [a].count x + (mark.intercalate l).count x := by
  cases l with
  | nil => exact absurd rfl hl
  | cons p ps =>
      cases ps with
      | nil => simp [attach, List.count_cons, Nat.add_comm]
      | cons q qs => simp [attach, List.count_cons, Nat.add_comm, Nat.add_left_comm, Nat.add_assoc]

theorem pieces_ne_nil (find : List α → Option Match) (mode : Mode) (text : List α) :
    pieces find mode text ≠ [] := by
  obtain ⟨p, ps, h, -⟩ := pieces_infix find mode text
  rw [h]
  exact List.cons_ne_nil p ps

/-- The marks make up for what is dropped. -/
theorem count_pieces [DecidableEq α] {x : α} {old mark : List α} (hold : old ≠ [])
    (hmark : mark.count x = old.count x) (text : List α) :
    (mark.intercalate (pieces (literal old) .search text)).count x = text.count x ∧
      ∀ n, (mark.intercalate (pieces (literal old) (.drop n) text)).count x =
        (text.drop n).count x := by
  induction text with
  | nil =>
      refine ⟨by simp [pieces], fun n => ?_⟩
      cases n <;> simp [pieces]
  | cons a as ih =>
      obtain ⟨hsearch, hdrop⟩ := ih
      have hhere : (mark.intercalate (pieces (literal old) .search (a :: as))).count x =
          (a :: as).count x := by
        simp only [pieces, literal]
        by_cases hb : old.isPrefixOf (a :: as) = true
        · rw [if_pos hb]
          obtain ⟨rest, hrest⟩ := List.isPrefixOf_iff_prefix.mp hb
          -- What is dropped after the first element is the rest of the match.
          have hcut : as.drop (old.length - 1) = rest := by
            cases old with
            | nil => exact absurd rfl hold
            | cons b bs =>
                obtain ⟨-, has⟩ := List.cons.inj hrest
                rw [← has]
                exact List.drop_left
          obtain ⟨p, ps, hps⟩ := List.exists_cons_of_ne_nil
            (pieces_ne_nil (literal old) (.drop (old.length - 1)) as)
          have hafter := hdrop (old.length - 1)
          rw [hcut, hps] at hafter
          dsimp only
          rw [hps, List.intercalate_cons_cons, List.nil_append, List.count_append, hafter, hmark,
            ← hrest, List.count_append]
        · rw [if_neg hb]
          dsimp only
          rw [count_attach (pieces_ne_nil _ _ _), hsearch, ← List.count_append]
          rfl
      refine ⟨hhere, fun n => ?_⟩
      cases n with
      | zero => exact hhere
      | succ n => exact hdrop n

/-- A mark with as many of an element keeps their number. -/
theorem count_replace [DecidableEq α] {x : α} {old mark : List α} (hold : old ≠ [])
    (hmark : mark.count x = old.count x) (text : List α) :
    (replace old mark text).count x = text.count x :=
  (count_pieces hold hmark text).1

/-! ### The last element -/

theorem intercalate_attach {a : α} {mark : List α} {l : List (List α)} (hl : l ≠ []) :
    mark.intercalate (attach a l) = a :: mark.intercalate l := by
  obtain ⟨p, ps, rfl⟩ := List.exists_cons_of_ne_nil hl
  cases ps with
  | nil => rw [attach, List.intercalate_singleton, List.intercalate_singleton]
  | cons q qs => rw [attach, List.intercalate_cons_cons, List.intercalate_cons_cons]; rfl

/-- A match without the last element ends before it. -/
theorem pieces_last [DecidableEq α] {x : α} {old mark : List α} (hold : old ≠ []) (hx : x ∉ old)
    (text : List α) :
    (∃ t, mark.intercalate (pieces (literal old) .search (text ++ [x])) = t ++ [x]) ∧
      ∀ n ≤ text.length,
        ∃ t, mark.intercalate (pieces (literal old) (.drop n) (text ++ [x])) = t ++ [x] := by
  induction text with
  | nil =>
      have hnot : ¬ old.isPrefixOf [x] = true := by
        intro hb
        obtain ⟨a, as, rfl⟩ := List.exists_cons_of_ne_nil hold
        obtain ⟨rfl, -⟩ := List.cons_prefix_cons.mp (List.isPrefixOf_iff_prefix.mp hb)
        exact hx List.mem_cons_self
      have hpieces : mark.intercalate (pieces (literal old) .search [x]) = [x] := by
        rw [pieces, literal, if_neg hnot]
        exact List.intercalate_singleton
      refine ⟨⟨[], hpieces⟩, fun n hn => ⟨[], ?_⟩⟩
      rw [Nat.le_zero.mp hn]
      exact hpieces
  | cons a as ih =>
      obtain ⟨⟨t, ht⟩, hdrop⟩ := ih
      have hhere : ∃ t,
          mark.intercalate (pieces (literal old) .search (a :: (as ++ [x]))) = t ++ [x] := by
        simp only [pieces, literal]
        by_cases hb : old.isPrefixOf (a :: (as ++ [x])) = true
        · rw [if_pos hb]
          dsimp only
          -- The match ends before the last element, which it does not hold.
          have hlen : old.length - 1 ≤ as.length := by
            have hpre : old <+: (a :: as) ++ [x] := List.isPrefixOf_iff_prefix.mp hb
            rcases List.prefix_concat_iff.mp hpre with rfl | hpre
            · exact absurd (List.mem_append_right _ (List.mem_singleton_self x)) hx
            · have := hpre.length_le
              rw [List.length_cons] at this
              omega
          obtain ⟨t', ht'⟩ := hdrop _ hlen
          obtain ⟨p, ps, hps⟩ := List.exists_cons_of_ne_nil
            (pieces_ne_nil (literal old) (.drop (old.length - 1)) (as ++ [x]))
          refine ⟨mark ++ t', ?_⟩
          rw [hps, List.intercalate_cons_cons, List.nil_append, ← hps, ht', List.append_assoc]
        · rw [if_neg hb]
          refine ⟨a :: t, ?_⟩
          dsimp only
          rw [intercalate_attach (pieces_ne_nil _ _ _), ht]
          rfl
      refine ⟨hhere, fun n hn => ?_⟩
      cases n with
      | zero => exact hhere
      | succ n => exact hdrop n (Nat.le_of_succ_le_succ hn)

/-- An element that is not in what is replaced stays the last. -/
theorem replace_last [DecidableEq α] {x : α} {old mark text : List α} (hold : old ≠ [])
    (hx : x ∉ old) : ∃ t, replace old mark (text ++ [x]) = t ++ [x] :=
  (pieces_last hold hx text).1

end Orchestrator.Replace
