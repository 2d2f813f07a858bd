import Mathlib.Data.List.AList
import Mathlib.Data.List.Infix

/-!
# Files — trees

A tree of files and directories, as the calls that change it see it.  A path is the list of its
segments; the root is `[]`.

* `makeDirectories`, `create`, `replace`, `write`, `unlink`, `prune`: the calls.
* `Sound`: every file and directory is in a directory, and none is both; each call keeps it.
* `Free`, `Incomparable`: a path that can be made, and paths that do not stand in each other's way.
* `replace_free`, `create_free`: a file at a free path is made, and incomparable paths stay free.
-/

namespace Orchestrator.Files

theorem prefix_of_ne {σ : Type} {p q : List σ} (h : q <+: p) (hne : q ≠ p) : q <+: p.dropLast := by
  obtain ⟨rest, rfl⟩ := h
  have hrest : rest ≠ [] := by
    intro he
    exact hne (by rw [he, List.append_nil])
  rw [List.dropLast_append_of_ne_nil hrest]
  exact List.prefix_append _ _

variable {σ β : Type} [DecidableEq σ]

/-- Why a call fails. -/
inductive FileError where
  | fileExists | notFound | notDirectory | isDirectory
  deriving DecidableEq, Repr

structure Tree (σ β : Type) where
  files : AList fun _ : List σ => β
  directories : List (List σ)

/-- The directories above a path, the nearest first; the last is the root. -/
def parents : List σ → List (List σ)
  | [] => []
  | x :: p => (x :: p).dropLast.inits.reverse

namespace Tree

def empty : Tree σ β := ⟨∅, []⟩

def isFile (t : Tree σ β) (p : List σ) : Bool := (t.files.lookup p).isSome

def isDirectory (t : Tree σ β) (p : List σ) : Bool := p.isEmpty || t.directories.contains p

/-- `mkdir`, with the parents, of a directory that may be there. -/
def makeDirectories (t : Tree σ β) (p : List σ) : Except FileError (Tree σ β) :=
  if p.inits.any t.isFile then .error .notDirectory
  else .ok { t with directories := t.directories ∪ p.inits }

/-- The contents of a file that is there. -/
def write (t : Tree σ β) (p : List σ) (c : β) : Tree σ β :=
  { t with files := t.files.insert p c }

/-- `open` of a new file. -/
def create (t : Tree σ β) (p : List σ) (c : β) : Except FileError (Tree σ β) :=
  if t.isFile p || t.isDirectory p then .error .fileExists
  else if t.isDirectory p.dropLast = false then .error .notFound
  else .ok (t.write p c)

/-- `replace`: a file is put in the place of another, or of none. -/
def replace (t : Tree σ β) (p : List σ) (c : β) : Except FileError (Tree σ β) :=
  if t.isDirectory p then .error .isDirectory
  else if t.isDirectory p.dropLast = false then .error .notFound
  else .ok (t.write p c)

def unlink (t : Tree σ β) (p : List σ) : Tree σ β := { t with files := t.files.erase p }

/-- The path is in a directory. -/
def isChild (p q : List σ) : Bool := !q.isEmpty && q.dropLast == p

def isEmptyDirectory (t : Tree σ β) (p : List σ) : Bool :=
  !(t.files.keys.any (isChild p)) && !(t.directories.any (isChild p))

def removeDirectory (t : Tree σ β) (p : List σ) : Tree σ β :=
  { t with directories := t.directories.filter (· != p) }

/-- `rmdir` of one directory after another, until one is not empty. -/
def prune : List (List σ) → Tree σ β → Tree σ β
  | [], t => t
  | p :: ps, t => if t.isEmptyDirectory p then prune ps (t.removeDirectory p) else t

/-! ### What a tree says of a path -/

theorem isFile_iff {t : Tree σ β} {p : List σ} : t.isFile p = true ↔ p ∈ t.files :=
  AList.lookup_isSome

theorem isDirectory_iff {t : Tree σ β} {p : List σ} :
    t.isDirectory p = true ↔ p = [] ∨ p ∈ t.directories := by
  simp [isDirectory]

theorem isFile_write {t : Tree σ β} {p q : List σ} {c : β} :
    (t.write p c).isFile q = true ↔ q = p ∨ t.isFile q = true := by
  rw [isFile_iff, isFile_iff, write, AList.mem_insert]

theorem isFile_unlink {t : Tree σ β} {p q : List σ} :
    (t.unlink p).isFile q = true ↔ q ≠ p ∧ t.isFile q = true := by
  rw [isFile_iff, isFile_iff, unlink, AList.mem_erase]

theorem makeDirectories_ok {t t' : Tree σ β} {p : List σ} (h : t.makeDirectories p = .ok t') :
    t'.files = t.files ∧ (∀ q, q <+: p → t.isFile q = false) ∧
      ∀ q, t'.isDirectory q = true ↔ t.isDirectory q = true ∨ q <+: p := by
  unfold makeDirectories at h
  split at h
  · cases h
  · next hany =>
      cases h
      refine ⟨rfl, fun q hq => ?_, fun q => ?_⟩
      · by_contra hf
        exact hany (List.any_eq_true.mpr
          ⟨q, (List.mem_inits q p).mpr hq, (Bool.not_eq_false _).mp hf⟩)
      · rw [isDirectory_iff, isDirectory_iff, List.mem_union_iff, List.mem_inits, or_assoc]

/-! ### Sound trees -/

/-- Files and directories are in directories, and a file is not a directory. -/
structure Sound (t : Tree σ β) : Prop where
  file : ∀ p, t.isFile p = true → t.isDirectory p.dropLast = true
  directory : ∀ p, t.isDirectory p = true → t.isDirectory p.dropLast = true
  apart : ∀ p, t.isFile p = true → t.isDirectory p = false

theorem sound_empty : (empty : Tree σ β).Sound := by
  refine ⟨?_, ?_, ?_⟩
  · intro p h
    cases h
  · intro p h
    rw [isDirectory_iff] at h
    obtain rfl | h := h
    · rfl
    · cases h
  · intro p h
    cases h

theorem Sound.prefix_directory {t : Tree σ β} (h : t.Sound) {p q : List σ}
    (hp : t.isDirectory p = true) (hq : q <+: p) : t.isDirectory q = true := by
  induction p using List.reverseRecOn with
  | nil =>
      rw [List.prefix_nil.mp hq]
      exact hp
  | append_singleton p x ih =>
      by_cases he : q = p ++ [x]
      · exact he ▸ hp
      · have hparent := h.directory _ hp
        rw [List.dropLast_concat] at hparent
        have hq' := prefix_of_ne hq he
        rw [List.dropLast_concat] at hq'
        exact ih hparent hq'

/-- Above a file there are directories only. -/
theorem Sound.above {t : Tree σ β} (h : t.Sound) {p q : List σ} (hp : t.isFile p = true)
    (hq : q <+: p) (hne : q ≠ p) : t.isDirectory q = true :=
  h.prefix_directory (h.file p hp) (prefix_of_ne hq hne)

/-- No file is above another. -/
theorem Sound.prefix_eq {t : Tree σ β} (h : t.Sound) {p q : List σ} (hp : t.isFile p = true)
    (hq : t.isFile q = true) (hpre : q <+: p) : q = p := by
  by_contra hne
  have hdir := h.above hp hpre hne
  rw [h.apart q hq] at hdir
  cases hdir

theorem Sound.makeDirectories {t t' : Tree σ β} (h : t.Sound) {p : List σ}
    (ht : t.makeDirectories p = .ok t') : t'.Sound := by
  obtain ⟨hfiles, hno, hdirs⟩ := makeDirectories_ok ht
  have hfile : ∀ q, t'.isFile q = t.isFile q := by
    intro q
    rw [isFile, hfiles]
    rfl
  refine ⟨?_, ?_, ?_⟩
  · intro q hq
    rw [hfile] at hq
    exact (hdirs _).mpr (.inl (h.file q hq))
  · intro q hq
    obtain hq | hq := (hdirs q).mp hq
    · exact (hdirs _).mpr (.inl (h.directory q hq))
    · exact (hdirs _).mpr (.inr (( List.dropLast_prefix q).trans hq))
  · intro q hq
    rw [hfile] at hq
    by_contra hd
    obtain hd | hd := (hdirs q).mp ((Bool.not_eq_false _).mp hd)
    · rw [h.apart q hq] at hd
      cases hd
    · rw [hno q hd] at hq
      cases hq

theorem Sound.write {t : Tree σ β} (h : t.Sound) {p : List σ} {c : β}
    (hp : t.isDirectory p = false) (hparent : t.isDirectory p.dropLast = true) :
    (t.write p c).Sound := by
  refine ⟨?_, h.directory, ?_⟩
  · intro q hq
    obtain rfl | hq := isFile_write.mp hq
    · exact hparent
    · exact h.file q hq
  · intro q hq
    obtain rfl | hq := isFile_write.mp hq
    · exact hp
    · exact h.apart q hq

theorem Sound.unlink {t : Tree σ β} (h : t.Sound) (p : List σ) : (t.unlink p).Sound :=
  ⟨fun q hq => h.file q (isFile_unlink.mp hq).2, h.directory,
    fun q hq => h.apart q (isFile_unlink.mp hq).2⟩

theorem isDirectory_removeDirectory {t : Tree σ β} {p q : List σ} :
    (t.removeDirectory p).isDirectory q = true ↔ q = [] ∨ q ≠ p ∧ t.isDirectory q = true := by
  rw [isDirectory_iff, isDirectory_iff, removeDirectory, List.mem_filter, bne_iff_ne]
  tauto

/-- Nothing is in an empty directory. -/
theorem isEmptyDirectory_iff {t : Tree σ β} {p : List σ} : t.isEmptyDirectory p = true ↔
    ∀ q, q ≠ [] → q.dropLast = p → t.isFile q = false ∧ q ∉ t.directories := by
  rw [isEmptyDirectory, Bool.and_eq_true, Bool.not_eq_true', Bool.not_eq_true',
    List.any_eq_false, List.any_eq_false]
  constructor
  · intro ⟨hf, hd⟩ q hne hq
    constructor
    · by_contra hfile
      rw [Bool.not_eq_false, isFile_iff] at hfile
      exact hf q (AList.mem_keys.mp hfile) (by simp [isChild, hne, hq])
    · intro hm
      exact hd q hm (by simp [isChild, hne, hq])
  · intro h
    constructor
    · intro q hm hc
      simp only [isChild, Bool.and_eq_true, Bool.not_eq_true', List.isEmpty_eq_false_iff,
        beq_iff_eq] at hc
      have := (h q hc.1 hc.2).1
      rw [← Bool.not_eq_true, isFile_iff] at this
      exact this (AList.mem_keys.mpr hm)
    · intro q hm hc
      simp only [isChild, Bool.and_eq_true, Bool.not_eq_true', List.isEmpty_eq_false_iff,
        beq_iff_eq] at hc
      exact (h q hc.1 hc.2).2 hm

theorem Sound.removeDirectory {t : Tree σ β} (h : t.Sound) {p : List σ}
    (hp : t.isEmptyDirectory p = true) : (t.removeDirectory p).Sound := by
  rw [isEmptyDirectory_iff] at hp
  refine ⟨?_, ?_, ?_⟩
  · intro q hq
    rw [isDirectory_removeDirectory]
    by_cases he : q.dropLast = p
    · have hne : q ≠ [] := by
        rintro rfl
        exact absurd (h.apart [] hq) (by simp [isDirectory])
      have hno : t.isFile q = false := (hp q hne he).1
      exact absurd (hno.symm.trans hq) Bool.false_ne_true
    · exact .inr ⟨he, h.file q hq⟩
  · intro q hq
    rw [isDirectory_removeDirectory] at hq ⊢
    obtain rfl | ⟨-, hq⟩ := hq
    · exact .inl rfl
    · by_cases hne : q = []
      · exact .inl (by rw [hne]; rfl)
      · have hmem := (isDirectory_iff.mp hq).resolve_left hne
        by_cases he : q.dropLast = p
        · exact absurd hmem (hp q hne he).2
        · exact .inr ⟨he, h.directory q hq⟩
  · intro q hq
    by_contra hd
    obtain rfl | ⟨-, hd⟩ := isDirectory_removeDirectory.mp ((Bool.not_eq_false _).mp hd)
    · exact absurd (h.apart [] hq) (by simp [isDirectory])
    · rw [h.apart q hq] at hd
      cases hd

theorem prune_files (ps : List (List σ)) (t : Tree σ β) : (t.prune ps).files = t.files := by
  induction ps generalizing t with
  | nil => rfl
  | cons p ps ih =>
      rw [prune]
      split
      · exact ih _
      · rfl

theorem Sound.prune {t : Tree σ β} (h : t.Sound) (ps : List (List σ)) : (t.prune ps).Sound := by
  induction ps generalizing t with
  | nil => exact h
  | cons p ps ih =>
      rw [Tree.prune]
      split
      · next he => exact ih (h.removeDirectory he)
      · exact h

/-! ### Free paths -/

/-- A file can be made here: there is no directory, and no file above. -/
structure Free (t : Tree σ β) (p : List σ) : Prop where
  notDirectory : t.isDirectory p = false
  noFileAbove : ∀ q, q <+: p → q ≠ p → t.isFile q = false

theorem Free.ne_nil {t : Tree σ β} {p : List σ} (h : t.Free p) : p ≠ [] := by
  rintro rfl
  exact absurd h.notDirectory (by simp [isDirectory])

/-- The directories of a free path can be made, and other free paths stay free. -/
theorem Free.makeDirectories {t : Tree σ β} {p : List σ} (h : t.Free p) :
    ∃ t', t.makeDirectories p.dropLast = .ok t' ∧ t'.files = t.files ∧
      t'.isDirectory p.dropLast = true ∧ t'.isDirectory p = false ∧
      ∀ q, ¬ q <+: p → t.Free q → t'.Free q := by
  have hno : ¬ p.dropLast.inits.any t.isFile = true := by
    intro hany
    obtain ⟨q, hq, hf⟩ := List.any_eq_true.mp hany
    have hq := (List.mem_inits q _).mp hq
    have hne : q ≠ p := by
      rintro rfl
      have hlength := hq.length_le
      rw [List.length_dropLast] at hlength
      have := List.length_pos_of_ne_nil h.ne_nil
      omega
    rw [h.noFileAbove q (hq.trans ( List.dropLast_prefix p)) hne] at hf
    cases hf
  have hok : t.makeDirectories p.dropLast =
      .ok { t with directories := t.directories ∪ p.dropLast.inits } := if_neg hno
  obtain ⟨hfiles, -, hdirs⟩ := makeDirectories_ok hok
  refine ⟨_, hok, rfl, (hdirs _).mpr (.inr (List.prefix_refl _)), ?_, ?_⟩
  · by_contra hd
    obtain hd | hd := (hdirs p).mp ((Bool.not_eq_false _).mp hd)
    · rw [h.notDirectory] at hd
      cases hd
    · have hlength := hd.length_le
      rw [List.length_dropLast] at hlength
      have := List.length_pos_of_ne_nil h.ne_nil
      omega
  · intro q hq hfree
    refine ⟨?_, hfree.noFileAbove⟩
    by_contra hd
    obtain hd | hd := (hdirs q).mp ((Bool.not_eq_false _).mp hd)
    · rw [hfree.notDirectory] at hd
      cases hd
    · exact hq (hd.trans ( List.dropLast_prefix p))

theorem Free.write {t : Tree σ β} {p q : List σ} {c : β} (h : t.Free q) (hpq : ¬ p <+: q) :
    (t.write p c).Free q := by
  refine ⟨h.notDirectory, fun r hr hne => ?_⟩
  by_contra hf
  obtain rfl | hf := isFile_write.mp ((Bool.not_eq_false _).mp hf)
  · exact hpq hr
  · rw [h.noFileAbove r hr hne] at hf
    cases hf

/-- Neither path is on the way to the other. -/
def Incomparable (p q : List σ) : Prop := ¬ p <+: q ∧ ¬ q <+: p

/-- A file is put at a free path, and what is free beside it stays so. -/
theorem replace_free {t : Tree σ β} (ht : t.Sound) {p : List σ} (h : t.Free p) (c : β) :
    ∃ made t', t.makeDirectories p.dropLast = .ok made ∧ made.replace p c = .ok t' ∧
      t'.files = t.files.insert p c ∧ t'.Sound ∧
      ∀ q, Incomparable p q → t.Free q → t'.Free q := by
  obtain ⟨made, hmade, hfiles, hparent, hnot, hfree⟩ := h.makeDirectories
  refine ⟨made, made.write p c, hmade, ?_, ?_, ?_, ?_⟩
  · rw [replace, if_neg (by simp [hnot]), if_neg (by simp [hparent])]
  · rw [write, hfiles]
  · exact (ht.makeDirectories hmade).write hnot hparent
  · intro q hq hf
    exact (hfree q hq.2 hf).write hq.1

/-- A new file is made at a free path. -/
theorem create_free {t : Tree σ β} (ht : t.Sound) {p : List σ} (h : t.Free p)
    (hnew : t.isFile p = false) (c : β) :
    ∃ made t', t.makeDirectories p.dropLast = .ok made ∧ made.create p c = .ok t' ∧
      t'.files = t.files.insert p c ∧ t'.Sound ∧ t'.isDirectory p = false ∧
      t'.isDirectory p.dropLast = true ∧ ∀ q, Incomparable p q → t.Free q → t'.Free q := by
  obtain ⟨made, hmade, hfiles, hparent, hnot, hfree⟩ := h.makeDirectories
  have hnofile : made.isFile p = false := by
    rw [isFile, hfiles]
    exact hnew
  refine ⟨made, made.write p c, hmade, ?_, ?_, ?_, hnot, hparent, ?_⟩
  · rw [create, if_neg (by simp [hnot, hnofile]), if_neg (by simp [hparent])]
  · rw [write, hfiles]
  · exact (ht.makeDirectories hmade).write hnot hparent
  · intro q hq hf
    exact (hfree q hq.2 hf).write hq.1

end Tree

end Orchestrator.Files
