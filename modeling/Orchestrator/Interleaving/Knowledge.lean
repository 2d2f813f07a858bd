import Orchestrator.Interleaving.Machine

/-!
# Interleaving — what a thread has been shown

Some responses show records.  A monitor that keeps them allows a call by what the thread has been
shown before it, whatever is in the world by then.

* `showing allows shown`: the monitor.
* `Learns K W p`: from any view with the records `K`, every call of `p` is allowed, and `p` ends
  with the records `W a` where it returns `a`.
* `Learns.bind`: what was learned is there for what follows.
* `mem_viewOf_showing`: what a thread was shown, a response to it has shown.
-/

namespace Interleaving
variable {I : Interface} {κ : Type}

/-- The records that were shown, the newest first, and the calls they allow. -/
abbrev showing (allows : List κ → I.Op → Prop) (shown : (op : I.Op) → I.Ret op → List κ) :
    Monitor I := ⟨List κ, [], allows, fun v op r => shown op r ++ v⟩

namespace Prog
variable {α β : Type} (allows : List κ → I.Op → Prop) (shown : (op : I.Op) → I.Ret op → List κ)

/-- With the records `K`, `p` makes allowed calls, and ends with the records `W a`. -/
def Learns (K : List κ) (W : α → List κ) (p : Prog I α) : Prop :=
  ∀ v : List κ, K ⊆ v → p.Obeys (showing allows shown)
    (fun r v' => v ⊆ v' ∧ ∀ a, r = .ok a → W a ⊆ v') v

namespace Learns
variable {allows shown} {K L : List κ} {W : α → List κ} {X : β → List κ} {p : Prog I α}
  {f : α → Prog I β}

theorem ret {a : α} (h : W a ⊆ K) : Learns allows shown K W (.ret a) := by
  intro v hv
  refine ⟨List.Subset.refl v, ?_⟩
  rintro _ ⟨⟩
  exact List.Subset.trans h hv

theorem raise (e : I.Exc) : Learns allows shown K W (.raise e : Prog I α) := by
  intro v _
  exact ⟨List.Subset.refl v, fun _ h => (by cases h)⟩

theorem mono {Y : α → List κ} (h : Learns allows shown K W p) (hK : K ⊆ L)
    (hY : ∀ a, Y a ⊆ W a) : Learns allows shown L Y p := by
  intro v hv
  exact (h v (List.Subset.trans hK hv)).mono fun r v' hr =>
    ⟨hr.1, fun a e => List.Subset.trans (hY a) (hr.2 a e)⟩

/-- Nothing needs to be known of what is learned. -/
theorem forget (h : Learns allows shown K W p) (hK : K ⊆ L) :
    Learns allows shown L (fun _ => []) p := h.mono hK fun _ => List.nil_subset _

theorem bind_of {Q : α → Prop} (hp : Learns allows shown K W p) (hq : p.Yields Q)
    (hf : ∀ a, Q a → Learns allows shown (W a ++ K) X (f a)) :
    Learns allows shown K X (p.bind f) := by
  intro v hv
  rw [obeys_bind]
  refine ((hp v hv).and_yields hq).mono fun r v' ⟨⟨hle, hw⟩, hr⟩ => ?_
  cases r with
  | error e => exact ⟨hle, fun _ h => (by cases h)⟩
  | ok a =>
      have hknown : W a ++ K ⊆ v' := List.append_subset.mpr ⟨hw a rfl, List.Subset.trans hv hle⟩
      exact (hf a (hr a rfl) v' hknown).mono fun _ _ h => ⟨List.Subset.trans hle h.1, h.2⟩

theorem bind (hp : Learns allows shown K W p)
    (hf : ∀ a, Learns allows shown (W a ++ K) X (f a)) : Learns allows shown K X (p.bind f) :=
  hp.bind_of (yields_true p) fun a _ => hf a

theorem attempt (hp : Learns allows shown K W p) :
    Learns allows shown K (fun r => match r with
      | .ok a => W a
      | .error _ => []) p.attempt := by
  intro v hv
  rw [obeys_attempt]
  refine (hp v hv).mono fun r v' ⟨hle, hw⟩ => ⟨hle, ?_⟩
  rintro _ ⟨⟩
  cases r with
  | ok a => exact hw a rfl
  | error e => exact List.nil_subset v'

theorem ofExcept (r : Except I.Exc α) (h : ∀ a, W a ⊆ K) :
    Learns allows shown K W (Prog.ofExcept r) := by
  cases r with
  | ok a => exact ret (h a)
  | error e => exact raise e

/-- One call, and what it shows. -/
theorem send {op : I.Op} (h : ∀ v, K ⊆ v → allows v op) :
    Learns allows shown K (shown op) (Prog.send op) := by
  intro v hv
  refine ⟨h v hv, fun r _ => ⟨List.subset_append_right _ _, ?_⟩⟩
  rintro _ ⟨⟩
  exact List.subset_append_left _ _

/-- One call, and what follows with what it shows. -/
theorem call {op : I.Op} {k : I.Ret op → Prog I β} (h : ∀ v, K ⊆ v → allows v op)
    (hk : ∀ r, I.Sane op r → Learns allows shown (shown op r ++ K) X (k r)) :
    Learns allows shown K X ((Prog.send op).bind k) :=
  bind_of (Q := I.Sane op) (send h) (fun _ hr => hr) hk

/-- To learn nothing is compositional. -/
theorem compositional (K : List κ) :
    Compositional (I := I) (fun {_} p => Learns allows shown K (fun _ => []) p) where
  ret _ := ret (List.nil_subset K)
  raise e := raise e
  bind_of hp hq hf := hp.bind_of hq hf
  attempt hp := hp.attempt.mono (List.Subset.refl K) fun _ => List.nil_subset _

theorem of_uses {F : I.Op → Prop} (hp : p.Uses F) (h : ∀ v op, F op → allows v op) :
    Learns allows shown K (fun _ => []) p :=
  (compositional K).of_uses (F := F) (fun op hop =>
    (send fun v _ => h v op hop).mono (List.Subset.refl K) fun _ => List.nil_subset _) hp

end Learns

end Prog

section
variable {K : Machine I} {allows : List κ → I.Op → Prop}
  {shown : (op : I.Op) → I.Ret op → List κ} {t : Nat} {l : List (Event K)}

/-- What a thread was shown is in one of its responses. -/
theorem mem_viewOf_showing {x : κ} (h : x ∈ viewOf (showing allows shown) t l) :
    ∃ op r, .call t op r ∈ l ∧ x ∈ shown op r := by
  induction l with
  | nil => cases h
  | cons e l ih =>
      have older (h : x ∈ viewOf (showing allows shown) t l) :
          ∃ op r, .call t op r ∈ e :: l ∧ x ∈ shown op r :=
        let ⟨op, r, hm, hx⟩ := ih h
        ⟨op, r, List.mem_cons_of_mem _ hm, hx⟩
      cases e with
      | start t' task => exact older h
      | env y => exact older h
      | call t' op r =>
          by_cases ht : t' = t
          · subst ht
            rw [viewOf_call_self] at h
            rcases List.mem_append.mp h with h | h
            · exact ⟨op, r, List.mem_cons_self, h⟩
            · exact older h
          · rw [viewOf_call_other ht] at h
            exact older h

/-- What a thread was shown, it was shown. -/
theorem viewOf_showing_append (l' : List (Event K)) :
    viewOf (showing allows shown) t l ⊆ viewOf (showing allows shown) t (l' ++ l) := by
  induction l' with
  | nil => exact List.Subset.refl _
  | cons e l' ih =>
      cases e with
      | start t' task => exact ih
      | env y => exact ih
      | call t' op r =>
          rw [List.cons_append, viewOf_call]
          split
          · exact List.Subset.trans ih (List.subset_append_right _ _)
          · exact ih

end

end Interleaving
