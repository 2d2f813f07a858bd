import Mathlib.Order.Lattice

/-!
# Interleaving — a lock with an expiry

A lease is held by one owner until an instant, and is free, or free for the taking, otherwise.
What a store has to do to serve one is stated as a relation on leases; what follows for an owner
that lost it is proved from that relation alone.

* `Lease.Live l o now`: `o` holds `l` at `now`.
* `Grant now l q ok l'`: the call that asks `q` of the lease may answer `ok` and leave `l'`.
* `LeaseStore`: a store whose calls are all grants, and whose refusals change nothing.
* `LeaseStore.out_of_out`: an owner that is out stays out while no claim of its own is granted.
-/

namespace Interleaving

/-- Who holds the lock, and until when. -/
abbrev Lease (O T : Type) := Option (O × T)

namespace Lease
variable {O T : Type} [LinearOrder T]

/-- `o` holds the lease and it has not expired. -/
def Live (l : Lease O T) (o : O) (now : T) : Prop := ∃ e, l = some (o, e) ∧ now < e

/-- Time only takes leases away. -/
theorem Live.earlier {l : Lease O T} {o : O} {now now' : T} (h : l.Live o now')
    (hn : now ≤ now') : l.Live o now := by
  obtain ⟨e, rfl, he⟩ := h
  exact ⟨e, rfl, lt_of_le_of_lt hn he⟩

/-- The lease after `o` gave it back: free, if it was recorded as the owner. -/
def dropBy [DecidableEq O] (l : Lease O T) (o : O) : Lease O T :=
  match l with
  | some (o', e) => if o' = o then none else some (o', e)
  | none => none

theorem Live.of_dropBy [DecidableEq O] {l : Lease O T} {o o' : O} {now : T}
    (h : (l.dropBy o).Live o' now) : l.Live o' now := by
  obtain ⟨e, he, hn⟩ := h
  unfold dropBy at he
  split at he
  · split at he
    · cases he
    · exact ⟨e, he, hn⟩
  · cases he

end Lease

/-- What a call asks of the lease. -/
inductive LeaseRequest (O T : Type) where
  | claim (o : O) (e : T)
  | renew (o : O) (e : T)
  | release (o : O)
  | use (o : O)
  | unrelated

/-- What a call may do to the lease, by what it asks and whether it succeeds. -/
inductive Grant {O T : Type} [DecidableEq O] [LinearOrder T] (now : T) (l : Lease O T) :
    LeaseRequest O T → Bool → Lease O T → Prop where
  | claimed {o : O} {e : T} (h : ∀ o', ¬ l.Live o' now) : Grant now l (.claim o e) true (some (o, e))
  | renewed {o : O} {e : T} (h : l.Live o now) : Grant now l (.renew o e) true (some (o, e))
  | released {o : O} {ok : Bool} : Grant now l (.release o) ok (l.dropBy o)
  | used {o : O} (h : l.Live o now) : Grant now l (.use o) true l
  | unrelated {ok : Bool} : Grant now l .unrelated ok l
  | refused {q : LeaseRequest O T} : Grant now l q false l

namespace Grant
variable {O T : Type} [DecidableEq O] [LinearOrder T] {now : T} {l l' : Lease O T}
  {q : LeaseRequest O T} {ok : Bool} {o : O}

/-- An owner that is out is still out after a call, unless the call is its own granted claim. -/
theorem out (h : Grant now l q ok l') (ho : ¬ l.Live o now)
    (hq : ∀ e, q = .claim o e → ok = false) : ¬ l'.Live o now := by
  cases h with
  | @claimed o' e _ =>
      rintro ⟨e', he, -⟩
      cases he
      exact absurd (hq e rfl) (by decide)
  | renewed hl =>
      rintro ⟨e', he, -⟩
      cases he
      exact ho hl
  | released => exact fun hl => ho hl.of_dropBy
  | used _ => exact ho
  | unrelated => exact ho
  | refused => exact ho

/-- Only the holder renews. -/
theorem live_of_renew {e : T} (h : Grant now l (.renew o e) true l') : l.Live o now := by
  cases h with
  | renewed hl => exact hl

/-- Only the holder uses what the lease protects. -/
theorem live_of_use (h : Grant now l (.use o) true l') : l.Live o now := by
  cases h with
  | used hl => exact hl

/-- A claim is granted only when nobody holds the lease. -/
theorem free_of_claim {e : T} (h : Grant now l (.claim o e) true l') (o' : O) :
    ¬ l.Live o' now := by
  cases h with
  | claimed hl => exact hl o'

end Grant

/-! ### Stores that serve a lease -/

/-- A store with a lease in it. -/
structure LeaseStore (O T : Type) [DecidableEq O] [LinearOrder T] where
  State : Type
  Call : Type
  /-- A call at an instant: did it succeed, and the state it leaves. -/
  perform : T → Call → State → Bool × State
  lease : State → Lease O T
  request : Call → LeaseRequest O T
  grant : ∀ now c s,
    Grant now (lease s) (request c) (perform now c s).1 (lease (perform now c s).2)
  unchanged : ∀ now c s, (perform now c s).1 = false → (perform now c s).2 = s

/-- A step of a timed run: the clock moves on, or a call is performed. -/
inductive TimedStep (C T : Type) where
  | wait (until_ : T)
  | call (c : C)

namespace LeaseStore
variable {O T : Type} [DecidableEq O] [LinearOrder T] (S : LeaseStore O T)

def step (x : T × S.State) : TimedStep S.Call T → T × S.State
  | .wait t => (max x.1 t, x.2)
  | .call c => (x.1, (S.perform x.1 c x.2).2)

def play (x : T × S.State) (l : List (TimedStep S.Call T)) : T × S.State :=
  l.foldl S.step x

/-- A step in which a claim of `o` is granted. -/
def GrantsClaim (o : O) (x : T × S.State) : TimedStep S.Call T → Prop
  | .wait _ => False
  | .call c => (∃ e, S.request c = .claim o e) ∧ (S.perform x.1 c x.2).1 = true

/-- Along the steps, no claim of `o` is granted. -/
def NoClaim (o : O) : T × S.State → List (TimedStep S.Call T) → Prop
  | _, [] => True
  | x, a :: l => ¬ S.GrantsClaim o x a ∧ NoClaim o (S.step x a) l

variable {S} {o : O}

theorem step_out {x : T × S.State} {a : TimedStep S.Call T} (h : ¬ (S.lease x.2).Live o x.1)
    (ha : ¬ S.GrantsClaim o x a) : ¬ (S.lease (S.step x a).2).Live o (S.step x a).1 := by
  cases a with
  | wait t => exact fun hl => h (hl.earlier (le_max_left _ _))
  | call c =>
      refine (S.grant x.1 c x.2).out h fun e he => ?_
      by_contra hok
      exact ha ⟨⟨e, he⟩, by simpa using hok⟩

/-- **Out is out.**  An owner that does not hold the lease does not hold it later, however much
time passes and whoever calls what, while no claim of its own is granted. -/
theorem out_of_out {x : T × S.State} {l : List (TimedStep S.Call T)}
    (h : ¬ (S.lease x.2).Live o x.1) (hl : S.NoClaim o x l) :
    ¬ (S.lease (S.play x l).2).Live o (S.play x l).1 := by
  induction l generalizing x with
  | nil => exact h
  | cons a l ih => exact ih (step_out h hl.1) hl.2

/-- A call that needs the lease fails without it, and changes nothing. -/
theorem fails_of_out {now : T} {c : S.Call} {s : S.State}
    (hc : S.request c = .use o ∨ ∃ e, S.request c = .renew o e)
    (h : ¬ (S.lease s).Live o now) :
    (S.perform now c s).1 = false ∧ (S.perform now c s).2 = s := by
  have hf : (S.perform now c s).1 = false := by
    by_contra hok
    have hg := S.grant now c s
    rw [eq_true_of_ne_false hok] at hg
    rcases hc with hc | ⟨e, hc⟩
    · rw [hc] at hg; exact h hg.live_of_use
    · rw [hc] at hg; exact h hg.live_of_renew
  exact ⟨hf, S.unchanged now c s hf⟩

end LeaseStore

end Interleaving
