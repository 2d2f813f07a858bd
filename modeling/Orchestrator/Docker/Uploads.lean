import Mathlib.Algebra.GroupWithZero.Nat
import Mathlib.Algebra.Order.BigOperators.Group.List
import Mathlib.Algebra.Order.Group.Nat
import Orchestrator.Files.Trees
import Orchestrator.Text.Sha256
import Orchestrator.Docker.Workspaces

/-!
# Docker — uploads

The files of the workspace of an application: `upload` and `delete_file`, on the tree they change.
The tree has no symbolic links and no special files; `_safe_path` and `_files` refuse those.

* `Raised`: what an operation raises.
* `stage`, `prepare`, `commit`, `upload`, `deleteFile`: the operations.
* `Tidy`: what is true of the files after any operations.
* `uploads_atomic`: an upload raises and changes nothing, or its files are laid over those before.
-/

namespace Orchestrator.WorkspaceStore
open Files

/-! ### The operations -/

abbrev Contents := List UInt8

/-- The limits of a store. -/
structure Limits where
  maxUploadBytes : Nat
  maxBytes : Nat
  maxFiles : Nat

/-- What an operation raises: `limit` is a `WorkspaceLimitError`. -/
inductive Raised where
  | error (e : Exc)
  | limit (message : String)
  | fileNotFound (message : String)
  | os (e : FileError)
  deriving DecidableEq, Repr

/-- `isinstance(exc, WorkspaceError)`. -/
def Raised.isWorkspaceError : Raised → Bool
  | .error e => e.kind == .workspaceError
  | .limit _ => true
  | .fileNotFound _ | .os _ => false

def raised {α : Type} : Except Exc α → Except Raised α
  | .ok a => .ok a
  | .error e => .error (.error e)

def osError {α : Type} : Except FileError α → Except Raised α
  | .ok a => .ok a
  | .error e => .error (.os e)

/-- A file, described. -/
structure FileInfo where
  path : String
  size : Nat
  sha256 : String
  deriving DecidableEq, Repr

/-- What an upload returns. -/
structure Listing where
  files : List FileInfo
  totalBytes : Nat
  deriving DecidableEq, Repr

/-- `_describe`. -/
def describe (relative : List String) (contents : Contents) : FileInfo where
  path := join '/' relative
  size := contents.length
  sha256 := String.ofList (Hashing.hex (Hashing.digest (contents.map UInt8.toNat)))

/-- The sizes of the files. -/
def sizes (files : AList fun _ : List String => Contents) : AList fun _ : List String => Nat where
  entries := files.entries.map fun e => ⟨e.1, e.2.length⟩
  nodupKeys := by
    have h := files.nodupKeys
    rw [List.NodupKeys, List.keys] at h ⊢
    rwa [List.map_map]

def totalBytes (sizes : AList fun _ : List String => Nat) : Nat :=
  (sizes.entries.map Sigma.snd).sum

def chunkSize : Nat := 1024 * 1024

/-- A stream is copied, by chunks; this many chunks are enough. -/
def copyStream (limit : Nat) : Nat → Contents → Nat → Except Raised (Contents × Nat)
  | 0, _, total => .ok ([], total)
  | n + 1, stream, total =>
      let chunk := stream.take chunkSize
      if chunk = [] then .ok ([], total)
      else if limit < total + chunk.length then
        .error (.limit "Workspace upload byte limit exceeded")
      else do
        let (written, total) ← copyStream limit n (stream.drop chunkSize) (total + chunk.length)
        .ok (chunk ++ written, total)

/-- What has been staged, and the sizes of the files that there are to be. -/
structure Staged where
  tree : Tree String Contents
  total : Nat
  existing : AList fun _ : List String => Nat

/-- The names of an upload. -/
def checkPaths (L : Limits) (uploads : List (String × Contents)) :
    Except Raised (List (List String)) :=
  if uploads = [] then raised (workspaceError "At least one file is required")
  else do
    let paths ← uploads.mapM fun u => raised (relativePath u.1)
    if ¬ paths.Nodup ∨ ∃ p ∈ paths, ∃ parent ∈ parents p, parent ∈ paths then
      raised (workspaceError "Workspace upload paths overlap")
    else if L.maxFiles < paths.length then
      .error (.limit "Workspace file count limit exceeded")
    else .ok paths

/-- A file is there, or one of its directories is a file. -/
def conflicts (t : Tree String Contents) (relative : List String) : Bool :=
  t.isDirectory relative || (parents relative).any fun p => p != [] && t.isFile p

/-- One file of an upload is staged. -/
def stage (L : Limits) (t : Tree String Contents) (s : Staged) (u : List String × Contents) :
    Except Raised Staged :=
  if conflicts t u.1 then
    raised (workspaceError "Workspace upload conflicts with an existing file or directory")
  else do
    let made ← osError (s.tree.makeDirectories u.1.dropLast)
    let opened ← osError (made.create u.1 [])
    let (written, total) ← copyStream L.maxUploadBytes u.2.length u.2 s.total
    .ok ⟨opened.write u.1 written, total, s.existing.insert u.1 written.length⟩

def checkQuota (L : Limits) (existing : AList fun _ : List String => Nat) : Except Raised Unit :=
  if L.maxBytes < totalBytes existing ∨ L.maxFiles < existing.entries.length then
    .error (.limit "Workspace storage quota exceeded")
  else .ok ()

/-- What `upload` does before it changes the tree. -/
def prepare (L : Limits) (uploads : List (String × Contents)) (t : Tree String Contents) :
    Except Raised (List (List String) × Staged) := do
  let paths ← checkPaths L uploads
  let staged ← (paths.zip (uploads.map Prod.snd)).foldlM (stage L t) ⟨.empty, 0, sizes t.files⟩
  checkQuota L staged.existing
  .ok (paths, staged)

/-- The staged files are moved into the tree, one after another. -/
def commit : Tree String Contents → List (List String) → Tree String Contents →
    Except Raised (List FileInfo) × Tree String Contents
  | _, [], t => (.ok [], t)
  | staging, relative :: rest, t => match t.makeDirectories relative.dropLast with
      | .error e => (.error (.os e), t)
      | .ok made => match staging.files.lookup relative with
          | none => (.error (.os .notFound), made)
          | some contents => match made.replace relative contents with
              | .error e => (.error (.os e), made)
              | .ok t =>
                  let r := commit (staging.unlink relative) rest t
                  (r.1.map (describe relative contents :: ·), r.2)

/-- `upload`. -/
def upload (L : Limits) (uploads : List (String × Contents)) (t : Tree String Contents) :
    Except Raised Listing × Tree String Contents :=
  match prepare L uploads t with
  | .error e => (.error e, t)
  | .ok (paths, staged) =>
      let r := commit staged.tree paths t
      (r.1.map fun files => ⟨files, totalBytes staged.existing⟩, r.2)

/-- `delete_file`. -/
def deleteFile (filename : String) (t : Tree String Contents) :
    Except Raised Unit × Tree String Contents :=
  match raised (relativePath filename) with
  | .error e => (.error e, t)
  | .ok relative =>
      if (t.isFile relative || t.isDirectory relative) = false then
        (.error (.fileNotFound "Workspace file not found"), t)
      else if t.isFile relative = false then
        (raised (workspaceError "Workspace deletion only supports individual files"), t)
      else (.ok (), (t.unlink relative).prune ((parents relative).filter (· != [])))

inductive Operation where
  | upload (uploads : List (String × Contents))
  | delete (filename : String)

/-- The tree after an operation. -/
def perform (L : Limits) (t : Tree String Contents) : Operation → Tree String Contents
  | .upload uploads => (upload L uploads t).2
  | .delete filename => (deleteFile filename t).2

/-! ### Names -/

/-- A normalised relative path that names a file. -/
structure Normal (p : List String) : Prop where
  ne_nil : p ≠ []
  segments : ∀ x ∈ p, x ≠ "" ∧ '/' ∉ x.toList ∧ x ∉ [".", "..", ".git"]

theorem relativePath_error {value : String} {root : Bool} {e : Exc}
    (h : relativePath value root = .error e) : e.kind = .workspaceError := by
  unfold relativePath at h
  split at h
  · cases h
    rfl
  · split at h
    · cases h
      rfl
    · dsimp only at h
      split at h
      · cases h
        rfl
      · split at h
        · cases h
          rfl
        · cases h

theorem relativePath_normal {value : String} {p : List String}
    (h : relativePath value = .ok p) : Normal p := by
  unfold relativePath at h
  split at h
  · cases h
  · split at h
    · cases h
    · next hstart =>
        dsimp only at h
        split at h
        · cases h
        · next hparts =>
            split at h
            · cases h
            · next htext =>
                cases h
                have hroot : (PurePath.parse value).root = "" := by
                  have hslash : startsWith value "/" = false := by
                    simp only [not_or, Bool.not_eq_true] at hstart
                    exact hstart.2.1
                  exact PurePath.root_eq_empty.mpr hslash
                refine ⟨fun hnil => htext ⟨?_, rfl⟩, fun x hx => ?_⟩
                · rw [PurePath.toText, hroot, hnil]
                  rfl
                · have hm : x ∈ (split '/' value).filter fun x => x != "" && x != "." := hx
                  simp only [List.mem_filter, Bool.and_eq_true, bne_iff_ne] at hm
                  obtain ⟨hsplit, hempty, hdot⟩ := hm
                  obtain ⟨part, hpart, rfl⟩ := List.mem_map.mp hsplit
                  refine ⟨hempty, ?_, ?_⟩
                  · rw [String.toList_ofList]
                    exact not_mem_splitOn hpart
                  · simp only [not_or] at hparts
                    simp only [List.mem_cons, List.not_mem_nil, or_false, not_or]
                    exact ⟨hdot, fun e => hparts.1 (e ▸ hx), fun e => hparts.2.1 (e ▸ hx)⟩

/-! ### Sizes -/

theorem sizes_insert (files : AList fun _ : List String => Contents) (p : List String)
    (c : Contents) : sizes (files.insert p c) = (sizes files).insert p c.length := by
  refine AList.ext ?_
  rw [AList.entries_insert]
  show (files.insert p c).entries.map (fun e => (⟨e.1, e.2.length⟩ : Sigma fun _ => Nat)) = _
  rw [AList.entries_insert, List.map_cons]
  congr 1
  rw [sizes, List.kerase, List.kerase, List.eraseP_map]
  rfl

theorem totalBytes_erase (files : AList fun _ : List String => Contents) (p : List String) :
    totalBytes (sizes (files.erase p)) ≤ totalBytes (sizes files) :=
  List.Sublist.sum_le_sum ((((List.kerase_sublist p files.entries)).map _).map _)
    fun _ _ => Nat.zero_le _

/-! ### Staging -/

/-- The files after others are put there. -/
def overlay {α : Type} (files : AList fun _ : List String => α)
    (items : List (List String × α)) : AList fun _ : List String => α :=
  items.foldl (fun d u => d.insert u.1 u.2) files

theorem sizes_overlay (files : AList fun _ : List String => Contents)
    (items : List (List String × Contents)) : sizes (overlay files items) =
      overlay (sizes files) (items.map fun u => (u.1, u.2.length)) := by
  induction items generalizing files with
  | nil => rfl
  | cons u items ih =>
      show sizes (overlay (files.insert u.1 u.2) items) = _
      rw [ih, sizes_insert]
      rfl

/-- Items of which no two have a path on the way to the other's. -/
abbrev Separate {α : Type} (items : List (List String × α)) : Prop :=
  items.Pairwise fun u v => Tree.Incomparable u.1 v.1

theorem lookup_overlay {α : Type} {items : List (List String × α)} (h : Separate items)
    (files : AList fun _ : List String => α) (p : List String) :
    (overlay files items).lookup p = (items.lookup p).or (files.lookup p) := by
  induction items generalizing files with
  | nil => rfl
  | cons u items ih =>
      obtain ⟨hu, hitems⟩ := List.pairwise_cons.mp h
      show (overlay (files.insert u.1 u.2) items).lookup p = _
      rw [ih hitems, List.lookup_cons]
      by_cases hp : p = u.1
      · have hnone : items.lookup p = none := by
          rw [List.lookup_eq_none_iff]
          intro v hv
          rw [bne_iff_ne]
          intro he
          exact (hu v hv).1 (by rw [← hp, he])
        rw [hnone, hp, AList.lookup_insert, beq_self_eq_true]
        rfl
      · rw [AList.lookup_insert_ne hp, beq_false_of_ne hp]

theorem lookup_separate {α : Type} {items : List (List String × α)} (h : Separate items)
    {u : List String × α} (hu : u ∈ items) : items.lookup u.1 = some u.2 := by
  induction items with
  | nil => cases hu
  | cons v items ih =>
      obtain ⟨hv, hitems⟩ := List.pairwise_cons.mp h
      rw [List.lookup_cons]
      rcases List.mem_cons.mp hu with rfl | hu
      · rw [beq_self_eq_true]
      · have hne : u.1 ≠ v.1 := by
          intro he
          exact (hv u hu).1 (he ▸ List.prefix_refl _)
        rw [beq_false_of_ne hne]
        exact ih hitems hu

theorem mem_overlay {α : Type} {items : List (List String × α)}
    {files : AList fun _ : List String => α} {p : List String} (h : p ∈ overlay files items) :
    p ∈ files ∨ p ∈ items.map Prod.fst := by
  induction items generalizing files with
  | nil => exact .inl h
  | cons u items ih =>
      have h : p ∈ overlay (files.insert u.1 u.2) items := h
      obtain h | h := ih h
      · obtain rfl | h := (AList.mem_insert files).mp h
        · exact .inr List.mem_cons_self
        · exact .inl h
      · exact .inr (List.mem_cons_of_mem _ h)

/-- What is written is the stream. -/
theorem copyStream_ok {limit n : Nat} {stream written : Contents} {total total' : Nat}
    (hn : stream.length ≤ n) (h : copyStream limit n stream total = .ok (written, total')) :
    written = stream := by
  induction n generalizing stream written total with
  | zero =>
      cases h
      exact (List.length_eq_zero_iff.mp (Nat.le_zero.mp hn)).symm
  | succ n ih =>
      unfold copyStream at h
      dsimp only at h
      split at h
      · next hchunk =>
          cases h
          cases stream with
          | nil => rfl
          | cons b stream => simp [chunkSize] at hchunk
      · next hchunk =>
          split at h
          · cases h
          · obtain ⟨⟨rest, total''⟩, hrest, h⟩ := bind_ok h
            cases h
            have hpos : 0 < stream.length := List.length_pos_of_ne_nil fun he => by
              rw [he] at hchunk
              exact hchunk rfl
            have hdrop : (stream.drop chunkSize).length ≤ n := by
              rw [List.length_drop, chunkSize]
              omega
            rw [ih hdrop hrest, List.take_append_drop]

theorem copyStream_error {limit n : Nat} {stream : Contents} {total : Nat} {e : Raised}
    (h : copyStream limit n stream total = .error e) : e.isWorkspaceError = true := by
  induction n generalizing stream total with
  | zero => cases h
  | succ n ih =>
      unfold copyStream at h
      dsimp only at h
      split at h
      · cases h
      · split at h
        · cases h
          rfl
        · cases hrest : copyStream limit n (stream.drop chunkSize)
            (total + (stream.take chunkSize).length) with
          | error e' =>
              rw [hrest] at h
              cases h
              exact ih hrest
          | ok x =>
              rw [hrest] at h
              cases h

theorem mem_parents {p q : List String} : q ∈ parents p ↔ q <+: p ∧ q ≠ p := by
  cases p with
  | nil =>
      constructor
      · intro h
        cases h
      · intro ⟨h, hne⟩
        exact absurd (List.prefix_nil.mp h) hne
  | cons x p =>
      rw [parents, List.mem_reverse, List.mem_inits]
      constructor
      · intro h
        refine ⟨h.trans ( List.dropLast_prefix _), ?_⟩
        rintro rfl
        have hlength := h.length_le
        rw [List.length_dropLast, List.length_cons] at hlength
        omega
      · intro ⟨h, hne⟩
        exact prefix_of_ne h hne

theorem free_of_conflicts {t : Tree String Contents} (ht : t.Sound) {p : List String}
    (h : conflicts t p = false) : t.Free p := by
  rw [conflicts, Bool.or_eq_false_iff, List.any_eq_false] at h
  refine ⟨h.1, fun q hq hne => ?_⟩
  by_contra hf
  rw [Bool.not_eq_false] at hf
  by_cases hroot : q = []
  · rw [hroot] at hf
    exact absurd (ht.apart [] hf) (by simp [Tree.isDirectory])
  · exact h.2 q (mem_parents.mpr ⟨hq, hne⟩) (by simp [hroot, hf])

/-- A path that can be staged. -/
def Stageable (s : Staged) (p : List String) : Prop := s.tree.Free p ∧ s.tree.isFile p = false

/-- One file: it raises for the limits and the conflicts only. -/
theorem stage_spec {L : Limits} {t : Tree String Contents} (ht : t.Sound) {s : Staged}
    (hs : s.tree.Sound) {p : List String} {c : Contents} (hp : Stageable s p) :
    match stage L t s (p, c) with
    | .error e => e.isWorkspaceError = true
    | .ok s' => t.Free p ∧ s'.tree.Sound ∧ s'.tree.files = s.tree.files.insert p c ∧
        s'.existing = s.existing.insert p c.length ∧
        ∀ q, Tree.Incomparable p q → Stageable s q → Stageable s' q := by
  unfold stage
  cases hc : conflicts t p with
  | true => rfl
  | false =>
      rw [if_neg (by simp)]
      obtain ⟨made, opened, hmade, hopened, hfiles, hsound, hnot, hparent, hfree⟩ :=
        Tree.create_free hs hp.1 hp.2 []
      rw [hmade]
      dsimp only [osError, bind, Except.bind]
      rw [hopened]
      dsimp only
      cases hcopy : copyStream L.maxUploadBytes c.length c s.total with
      | error e => exact copyStream_error hcopy
      | ok x =>
          obtain ⟨written, total⟩ := x
          have hwritten := copyStream_ok (Nat.le_refl _) hcopy
          subst hwritten
          refine ⟨free_of_conflicts ht hc, hsound.write hnot hparent, ?_, rfl, ?_⟩
          · rw [Tree.write, hfiles, AList.insert_insert]
          · intro q hpq hq
            refine ⟨(hfree q hpq hq.1).write hpq.1, ?_⟩
            by_contra hf
            obtain rfl | hf := Tree.isFile_write.mp ((Bool.not_eq_false _).mp hf)
            · exact hpq.1 (List.prefix_refl _)
            · rw [Tree.isFile_iff, hfiles, AList.mem_insert, ← Tree.isFile_iff] at hf
              obtain rfl | hf := hf
              · exact hpq.1 (List.prefix_refl _)
              · rw [hq.2] at hf
                cases hf

/-- The whole upload. -/
theorem foldlM_stage {L : Limits} {t : Tree String Contents} (ht : t.Sound)
    {items : List (List String × Contents)} (hsep : Separate items) {s : Staged}
    (hs : s.tree.Sound) (hall : ∀ u ∈ items, Stageable s u.1) :
    match items.foldlM (stage L t) s with
    | .error e => e.isWorkspaceError = true
    | .ok s' => (∀ u ∈ items, t.Free u.1) ∧ s'.tree.files = overlay s.tree.files items ∧
        s'.existing = overlay s.existing (items.map fun u => (u.1, u.2.length)) := by
  induction items generalizing s with
  | nil => exact ⟨nofun, rfl, rfl⟩
  | cons u items ih =>
      obtain ⟨p, c⟩ := u
      obtain ⟨hu, hitems⟩ := List.pairwise_cons.mp hsep
      have hstep := stage_spec (L := L) (c := c) ht hs (hall _ List.mem_cons_self)
      rw [List.foldlM_cons]
      cases hstage : stage L t s (p, c) with
      | error e =>
          rw [hstage] at hstep
          exact hstep
      | ok s₁ =>
          rw [hstage] at hstep
          obtain ⟨hfree, hs₁, hfiles, hexisting, hkeep⟩ := hstep
          -- The other paths are apart from this one and can still be staged.
          have hrest := ih hitems hs₁ fun v hv =>
            hkeep v.1 (hu v hv) (hall v (List.mem_cons_of_mem _ hv))
          dsimp only [bind, Except.bind]
          cases hfold : items.foldlM (stage L t) s₁ with
          | error e =>
              rw [hfold] at hrest
              exact hrest
          | ok s' =>
              rw [hfold] at hrest
              obtain ⟨hfrees, hfiles', hexisting'⟩ := hrest
              refine ⟨fun v hv => ?_, ?_, ?_⟩
              · rcases List.mem_cons.mp hv with rfl | hv
                · exact hfree
                · exact hfrees v hv
              · rw [hfiles', hfiles]
                rfl
              · rw [hexisting', hexisting]
                rfl

/-! ### The commit -/

/-- What is staged and free is moved, to the last file. -/
theorem commit_spec {items : List (List String × Contents)} (hsep : Separate items)
    {staging t : Tree String Contents} (ht : t.Sound) (hfree : ∀ u ∈ items, t.Free u.1)
    (hstaged : ∀ u ∈ items, staging.files.lookup u.1 = some u.2) :
    ∃ t', commit staging (items.map Prod.fst) t =
        (.ok (items.map fun u => describe u.1 u.2), t') ∧
      t'.files = overlay t.files items ∧ t'.Sound := by
  induction items generalizing staging t with
  | nil => exact ⟨t, rfl, rfl, ht⟩
  | cons u items ih =>
      obtain ⟨hu, hitems⟩ := List.pairwise_cons.mp hsep
      obtain ⟨made, t₁, hmade, hreplace, hfiles, ht₁, hkeep⟩ :=
        Tree.replace_free ht (hfree u List.mem_cons_self) u.2
      have hrest : ∀ v ∈ items, (staging.unlink u.1).files.lookup v.1 = some v.2 := by
        intro v hv
        have hne : v.1 ≠ u.1 := by
          intro he
          exact (hu v hv).1 (he ▸ List.prefix_refl _)
        rw [Tree.unlink, AList.lookup_erase_ne hne]
        exact hstaged v (List.mem_cons_of_mem _ hv)
      obtain ⟨t', hcommit, hfiles', ht'⟩ := ih hitems ht₁
        (fun v hv => hkeep v.1 (hu v hv) (hfree v (List.mem_cons_of_mem _ hv))) hrest
      refine ⟨t', ?_, ?_, ht'⟩
      · rw [List.map_cons, commit, hmade]
        dsimp only
        rw [hstaged u List.mem_cons_self]
        dsimp only
        rw [hreplace]
        dsimp only
        rw [hcommit]
        rfl
      · rw [hfiles', hfiles]
        rfl

/-! ### An upload -/

theorem mapM_error {ε α β : Type} {f : α → Except ε β} {l : List α} {e : ε}
    (h : l.mapM f = .error e) : ∃ a ∈ l, f a = .error e := by
  induction l with
  | nil => cases h
  | cons a l ih =>
      rw [List.mapM_cons] at h
      cases ha : f a with
      | error e' =>
          rw [ha] at h
          cases h
          exact ⟨a, List.mem_cons_self, ha⟩
      | ok b =>
          rw [ha] at h
          cases hl : l.mapM f with
          | error e' =>
              rw [hl] at h
              cases h
              obtain ⟨a', ha', he⟩ := ih hl
              exact ⟨a', List.mem_cons_of_mem _ ha', he⟩
          | ok bs =>
              rw [hl] at h
              cases h

theorem forall₂_zip {α β γ : Type} {R : α → β → Prop} {f : α → γ} {l : List α} {l' : List β}
    (h : List.Forall₂ R l l') :
    List.Forall₂ (fun a b => R a b.1 ∧ b.2 = f a) l (l'.zip (l.map f)) := by
  induction h with
  | nil => exact .nil
  | cons h _ ih => exact .cons ⟨h, rfl⟩ ih

theorem raised_ok {α : Type} {x : Except Exc α} {a : α} : raised x = .ok a ↔ x = .ok a := by
  cases x <;> simp [raised]

/-- The names of an upload are refused, or they name separate files. -/
theorem checkPaths_spec (L : Limits) (uploads : List (String × Contents)) :
    match checkPaths L uploads with
    | .error e => e.isWorkspaceError = true
    | .ok paths => List.Forall₂ (fun u p => relativePath u.1 = .ok p) uploads paths ∧
        Separate (paths.zip (uploads.map Prod.snd)) := by
  unfold checkPaths
  by_cases hempty : uploads = []
  · rw [if_pos hempty]
    rfl
  · rw [if_neg hempty]
    cases hpaths : uploads.mapM fun u => raised (relativePath u.1) with
    | error e =>
        obtain ⟨u, -, hu⟩ := mapM_error hpaths
        cases hr : relativePath u.1 with
        | ok p =>
            rw [hr] at hu
            cases hu
        | error e' =>
            rw [hr] at hu
            cases hu
            show (e'.kind == .workspaceError) = true
            rw [relativePath_error hr]
            rfl
    | ok paths =>
        dsimp only [bind, Except.bind]
        by_cases hoverlap : ¬ paths.Nodup ∨ ∃ p ∈ paths, ∃ parent ∈ parents p, parent ∈ paths
        · rw [if_pos hoverlap]
          rfl
        · rw [if_neg hoverlap]
          by_cases hcount : L.maxFiles < paths.length
          · rw [if_pos hcount]
            rfl
          · rw [if_neg hcount]
            have hnames := (mapM_ok hpaths).imp fun u p h => raised_ok.mp h
            rw [not_or, not_not] at hoverlap
            obtain ⟨hnodup, hnone⟩ := hoverlap
            refine ⟨hnames, ?_⟩
            -- No path is above another one.
            have hbeside : ∀ p ∈ paths, ∀ q ∈ paths, p ≠ q → ¬ q <+: p := by
              intro p hp q hq hne hpre
              exact hnone ⟨p, hp, q, mem_parents.mpr ⟨hpre, fun he => hne he.symm⟩, hq⟩
            have hpairs : paths.Pairwise Tree.Incomparable :=
              hnodup.pairwise_of_forall_ne fun p hp q hq hne =>
                ⟨hbeside q hq p hp (Ne.symm hne), hbeside p hp q hq hne⟩
            have hlength : paths.length = (uploads.map Prod.snd).length := by
              rw [List.length_map, hnames.length_eq]
            rw [← List.map_fst_zip (Nat.le_of_eq hlength)] at hpairs
            exact List.pairwise_map.mp hpairs

/-- The files of an upload, and where they go. -/
structure Lays (uploads : List (String × Contents)) (items : List (List String × Contents)) :
    Prop where
  names : List.Forall₂ (fun u v => relativePath u.1 = .ok v.1 ∧ v.2 = u.2) uploads items
  separate : Separate items

/-- Nothing has changed, or everything. -/
theorem upload_spec (L : Limits) (uploads : List (String × Contents)) {t : Tree String Contents}
    (ht : t.Sound) :
    match upload L uploads t with
    | (.error e, t') => e.isWorkspaceError = true ∧ t' = t
    | (.ok listing, t') => ∃ items, Lays uploads items ∧
        t'.files = overlay t.files items ∧ t'.Sound ∧
        totalBytes (sizes t'.files) ≤ L.maxBytes ∧ t'.files.entries.length ≤ L.maxFiles ∧
        listing = ⟨items.map fun u => describe u.1 u.2, totalBytes (sizes t'.files)⟩ := by
  unfold upload prepare
  have hnames := checkPaths_spec L uploads
  cases hpaths : checkPaths L uploads with
  | error e =>
      rw [hpaths] at hnames
      exact ⟨hnames, rfl⟩
  | ok paths =>
      rw [hpaths] at hnames
      obtain ⟨hnames, hsep⟩ := hnames
      dsimp only [bind, Except.bind]
      have hlength : paths.length = (uploads.map Prod.snd).length := by
        rw [List.length_map, hnames.length_eq]
      -- The stage is empty: nothing stands in the way of a path.
      have hstageable : ∀ u ∈ paths.zip (uploads.map Prod.snd),
          Stageable ⟨.empty, 0, sizes t.files⟩ u.1 := by
        intro u hu
        obtain ⟨name, -, hname⟩ := forall₂_mem_right hnames (List.of_mem_zip hu).1
        exact ⟨⟨by simp [Tree.isDirectory, (relativePath_normal hname).ne_nil, Tree.empty],
          fun q _ _ => rfl⟩, rfl⟩
      have hfold := foldlM_stage (L := L) ht hsep Tree.sound_empty hstageable
      cases hstaged : (paths.zip (uploads.map Prod.snd)).foldlM (stage L t)
          ⟨.empty, 0, sizes t.files⟩ with
      | error e =>
          rw [hstaged] at hfold
          exact ⟨hfold, rfl⟩
      | ok staged =>
          rw [hstaged] at hfold
          obtain ⟨hfree, hfiles, hexisting⟩ := hfold
          dsimp only
          rw [checkQuota]
          by_cases hquota : L.maxBytes < totalBytes staged.existing ∨
              L.maxFiles < staged.existing.entries.length
          · rw [if_pos hquota]
            exact ⟨rfl, rfl⟩
          · rw [if_neg hquota]
            dsimp only
            -- The paths are apart, so that each has what was uploaded under it.
            have hlookup : ∀ u ∈ paths.zip (uploads.map Prod.snd),
                staged.tree.files.lookup u.1 = some u.2 := by
              intro u hu
              rw [hfiles, lookup_overlay hsep, lookup_separate hsep hu]
              rfl
            obtain ⟨t', hcommit, hfiles', ht'⟩ := commit_spec hsep ht hfree hlookup
            rw [List.map_fst_zip (Nat.le_of_eq hlength)] at hcommit
            rw [hcommit]
            -- The quota is that of the directory after the commit.
            have hsizes : staged.existing = sizes t'.files := by
              rw [hexisting, hfiles', sizes_overlay]
            refine ⟨_, ⟨?_, hsep⟩, hfiles', ht', ?_, ?_, ?_⟩
            · exact forall₂_zip hnames
            · rw [not_or, Nat.not_lt, Nat.not_lt] at hquota
              exact hsizes ▸ hquota.1
            · rw [not_or, Nat.not_lt, Nat.not_lt] at hquota
              have := hsizes ▸ hquota.2
              rwa [sizes, List.length_map] at this
            · rw [hsizes]

/-! ### Any operations -/

/-- The stored paths are normalised and no file is above another, within the limits. -/
structure Tidy (L : Limits) (files : AList fun _ : List String => Contents) : Prop where
  normal : ∀ p ∈ files, Normal p
  apart : ∀ p ∈ files, ∀ q ∈ files, q <+: p → q = p
  bytes : totalBytes (sizes files) ≤ L.maxBytes
  count : files.entries.length ≤ L.maxFiles

/-- What the operations keep of the tree. -/
structure Kept (L : Limits) (t : Tree String Contents) : Prop where
  sound : t.Sound
  normal : ∀ p ∈ t.files, Normal p
  bytes : totalBytes (sizes t.files) ≤ L.maxBytes
  count : t.files.entries.length ≤ L.maxFiles

theorem Kept.tidy {L : Limits} {t : Tree String Contents} (h : Kept L t) : Tidy L t.files :=
  ⟨h.normal, fun _ hp _ hq hpre =>
    h.sound.prefix_eq (Tree.isFile_iff.mpr hp) (Tree.isFile_iff.mpr hq) hpre, h.bytes, h.count⟩

theorem Kept.upload {L : Limits} {t : Tree String Contents} (h : Kept L t)
    (uploads : List (String × Contents)) : Kept L (WorkspaceStore.upload L uploads t).2 := by
  have hspec := upload_spec L uploads h.sound
  rcases hu : WorkspaceStore.upload L uploads t with ⟨e | listing, t'⟩
  · rw [hu] at hspec
    exact hspec.2 ▸ h
  · rw [hu] at hspec
    obtain ⟨items, hlays, hfiles, hsound, hbytes, hcount, -⟩ := hspec
    refine ⟨hsound, fun p hp => ?_, hbytes, hcount⟩
    rw [hfiles] at hp
    obtain hp | hp := mem_overlay hp
    · exact h.normal p hp
    · obtain ⟨v, hv, rfl⟩ := List.mem_map.mp hp
      obtain ⟨u, -, hu, -⟩ := forall₂_mem_right hlays.names hv
      exact relativePath_normal hu

theorem Kept.deleteFile {L : Limits} {t : Tree String Contents} (h : Kept L t)
    (filename : String) : Kept L (WorkspaceStore.deleteFile filename t).2 := by
  unfold WorkspaceStore.deleteFile
  split
  · exact h
  · next relative _ =>
      split
      · exact h
      · split
        · exact h
        · refine ⟨(h.sound.unlink relative).prune _, ?_, ?_, ?_⟩
          · intro p hp
            rw [Tree.prune_files] at hp
            exact h.normal p (AList.mem_erase.mp hp).2
          · rw [Tree.prune_files]
            exact (totalBytes_erase _ _).trans h.bytes
          · rw [Tree.prune_files]
            exact ((List.kerase_sublist _ _).length_le).trans h.count

theorem kept_perform (L : Limits) (ops : List Operation) {t : Tree String Contents}
    (h : Kept L t) : Kept L (ops.foldl (perform L) t) := by
  induction ops generalizing t with
  | nil => exact h
  | cons op ops ih =>
      cases op with
      | upload uploads => exact ih (h.upload uploads)
      | delete filename => exact ih (h.deleteFile filename)

theorem kept_empty (L : Limits) : Kept L .empty :=
  ⟨Tree.sound_empty, fun p hp => absurd hp (AList.notMem_empty p), Nat.zero_le _, Nat.zero_le _⟩

/-- After any operations the files are tidy, and an upload raises a `WorkspaceError` and changes
nothing or lays its files over those before. -/
theorem uploads_atomic (L : Limits) (ops : List Operation) :
    Tidy L (ops.foldl (perform L) .empty).files ∧
    ∀ uploads : List (String × Contents),
      match upload L uploads (ops.foldl (perform L) .empty) with
      | (.error e, t') => e.isWorkspaceError = true ∧ t' = ops.foldl (perform L) .empty
      | (.ok listing, t') => ∃ items, Lays uploads items ∧
          (∀ p, t'.files.lookup p =
            (items.lookup p).or ((ops.foldl (perform L) .empty).files.lookup p)) ∧
          listing = ⟨items.map fun u => describe u.1 u.2, totalBytes (sizes t'.files)⟩ := by
  have hkept := kept_perform L ops (kept_empty L)
  refine ⟨hkept.tidy, fun uploads => ?_⟩
  have hspec := upload_spec L uploads hkept.sound
  rcases hu : upload L uploads (ops.foldl (perform L) .empty) with ⟨e | listing, t'⟩
  · rw [hu] at hspec
    exact hspec
  · rw [hu] at hspec
    obtain ⟨items, hlays, hfiles, -, -, -, hlisting⟩ := hspec
    refine ⟨items, hlays, fun p => ?_, hlisting⟩
    rw [hfiles, lookup_overlay hlays.separate]

example : ((upload ⟨4, 5, 2⟩ [("a//b", [1]), ("./c", [2])] .empty).2.files.keys,
    (upload ⟨4, 5, 2⟩ [("b", [1]), ("b/c", [2])] .empty).1.toOption.isSome) =
      ([["c"], ["a", "b"]], false) := by
  decide

end Orchestrator.WorkspaceStore
