import Orchestrator.Discipline.Conduct

/-!
# Discipline — sessions and the manifest

* `Sessioned b w l`: what relates the sessions of the log `l` to the manifest of `b` in `w`: its
  owner is the thread in whose session it is, and no owner is ever used again.
* `Held b o w`: `o` holds the lease of `b`, and in time.  A lease once lost stays lost.
* `run_sessioned`: in every configuration of every run, owners are in their sessions.
-/

namespace Orchestrator
open Interleaving

variable {S : Settings} {b : BuildId}

/-- The owner of the manifest is in its session, and an identifier that was drawn for the next
session is not in use. -/
structure Sessioned (b : BuildId) (w : World) (l : List (Event (orchestrator S))) : Prop where
  owner : ∀ m o, w.repo.buildResources.lookup b = some m → m.leaseOwner = some o →
    ∃ ls, (session b o.drawer l).lease = some (o, ls)
  lease : ∀ t o ls, (session b t l).lease = some (o, ls) → o.drawer = t ∧ o.serial < w.draws t
  drawn : ∀ t o, (session b t l).drawn = some o →
    o.drawer = t ∧ o.serial < w.draws t ∧ ∀ ls, (session b t l).lease ≠ some (o, ls)

/-- What a call makes of the session: it draws, claims, releases, or leaves it alone. -/
theorem Session.observe_cases (s : Session) (op : Op) (r : op.Ret) :
    (∃ u, op = .uuid4 ∧ HEq r u ∧ s.observe b op r = { s with drawn := some u }) ∨
    (∃ o e ls m, op = .claimBuildLease b o e ls ∧ HEq r (some m : Option BuildResources) ∧
      s.observe b op r = ⟨none, some (o, ls)⟩) ∨
    (∃ o, op = .releaseBuildLease b o ∧ s.observe b op r = { s with lease := none }) ∨
    s.observe b op r = { s with drawn := none } ∨ s.observe b op r = s := by
  cases op with
  | uuid4 => exact .inl ⟨r, rfl, HEq.rfl, rfl⟩
  | claimBuildLease b' o e ls =>
      by_cases h : b' = b ∧ r.isSome = true
      · obtain ⟨rfl, hr⟩ := h
        obtain ⟨m, rfl⟩ := Option.isSome_iff_exists.mp hr
        exact .inr (.inl ⟨o, e, ls, m, rfl, HEq.rfl, by simp [observe]⟩)
      · exact .inr (.inr (.inr (.inl (by simp only [observe, if_neg h]))))
  | releaseBuildLease b' o =>
      by_cases h : b' = b
      · subst h; exact .inr (.inr (.inl ⟨o, rfl, by simp [observe]⟩))
      · exact .inr (.inr (.inr (.inr (by simp [observe, h]))))
  | _ => exact .inr (.inr (.inr (.inr rfl)))

theorem Sessioned.boot {w : World} (h : w.repo.Pristine) :
    Sessioned (S := S) b w [] where
  owner m o hm := by simp [h.buildResources] at hm
  lease _ _ _ h := by cases h
  drawn _ _ h := by cases h

variable {t : Nat} {op : Op} {a : Answers} {w w' : World} {r : op.Ret}
  {l : List (Event (orchestrator S))}

theorem session_call_self : session b t (.call t op r :: l) =
    Session.observe b (session b t l) op r := viewOf_call_self t op r l

theorem session_call_other {t' : Nat} (h : t ≠ t') :
    session b t' (.call t op r :: l) = session b t' l := viewOf_call_other h op r l

/-- Where no session on `b` is claimed or released, the leases of the log are as they were. -/
theorem session_lease_call (t' : Nat)
    (hc : ∀ o e ls m, op = .claimBuildLease b o e ls → ¬ HEq r (some m : Option BuildResources))
    (hr : ∀ o, op ≠ .releaseBuildLease b o) :
    (session b t' (.call t op r :: l)).lease = (session b t' l).lease := by
  by_cases ht : t = t'
  · subst ht
    rw [session_call_self]
    rcases Session.observe_cases (b := b) (session b t l) op r with ⟨u, -, -, h⟩ |
        ⟨o, e, ls, m, ho, hm, -⟩ | ⟨o, ho, -⟩ | h | h
    · rw [h]
    · exact absurd hm (hc o e ls m ho)
    · exact absurd ho (hr o)
    · rw [h]
    · rw [h]
  · rw [session_call_other ht]

theorem Sessioned.call (h : Sessioned b w l) (ha : (session b t l).allows b op)
    (he : exec t op a w = some (r, w')) : Sessioned b w' (.call t op r :: l) where
  owner m o hm ho := by
    have hstep := exec_manifest he b
    rw [hm] at hstep
    generalize hold : w.repo.buildResources.lookup b = old at hstep
    -- Only the holder releases its lease, and only a claim gives one.
    cases hstep with
    | same hr =>
        obtain ⟨ls, hls⟩ := h.owner m o hold ho
        refine ⟨ls, ?_⟩
        by_cases hrel : ∃ o', op = .releaseBuildLease b o'
        · obtain ⟨o', rfl⟩ := hrel
          have hne : m.leaseOwner ≠ some o' := hr rfl m rfl
          by_cases ht : t = o.drawer
          · obtain ⟨u, ls', hu, hou⟩ := ha rfl
            cases hou
            rw [ht, hls] at hu
            cases hu
            exact absurd ho hne
          · rw [session_call_other ht]; exact hls
        · rw [session_lease_call _ ?_ fun o' e => hrel ⟨o', e⟩]
          · exact hls
          · rintro o' e ls' m' rfl hm'
            cases hr rfl
            cases hm'
    | ensured hb =>
        have hblank : m.Blank := ha hb
        rw [hblank.leaseOwner] at ho
        cases ho
    | stored _ =>
        rw [session_lease_call _ (by simp) (by simp)]
        exact h.owner _ o hold ho
    | updated _ _ =>
        rw [session_lease_call _ (by simp) (by simp)]
        exact h.owner _ o hold ho
    | @claimed m' u e ls _ _ =>
        cases ho
        obtain ⟨hd, -⟩ := ha rfl
        obtain ⟨hdr, -, -⟩ := h.drawn t _ hd
        subst hdr
        exact ⟨ls, by rw [session_call_self]; simp [Session.observe]⟩
    | released _ => cases ho
  lease t' o ls hls := by
    have hmono := exec_draws_le he t'
    by_cases ht : t = t'
    · subst ht
      rw [session_call_self] at hls
      -- An old lease is of an identifier that was drawn before.
      have old {o : Uuid} {ls : List CleanupStatus} (hls : (session b t l).lease = some (o, ls)) :
          o.drawer = t ∧ o.serial < w'.draws t :=
        ⟨(h.lease t o ls hls).1, Nat.lt_of_lt_of_le (h.lease t o ls hls).2 hmono⟩
      rcases Session.observe_cases (b := b) (session b t l) op r with ⟨u, -, -, hs⟩ |
          ⟨o', e, ls', m, rfl, -, hs⟩ | ⟨o', -, hs⟩ | hs | hs <;>
        rw [hs] at hls
      · exact old hls
      · cases hls
        obtain ⟨hd, hlt, -⟩ := h.drawn t _ (ha rfl).1
        exact ⟨hd, Nat.lt_of_lt_of_le hlt hmono⟩
      · cases hls
      · exact old hls
      · exact old hls
    · rw [session_call_other ht] at hls
      exact ⟨(h.lease t' o ls hls).1, Nat.lt_of_lt_of_le (h.lease t' o ls hls).2 hmono⟩
  drawn t' o ho := by
    have hmono := exec_draws_le he t'
    by_cases ht : t = t'
    · subst ht
      rw [session_call_self] at ho ⊢
      rcases Session.observe_cases (b := b) (session b t l) op r with ⟨u, rfl, hu, hs⟩ |
          ⟨o', e, ls', m, rfl, -, hs⟩ | ⟨o', -, hs⟩ | hs | hs <;>
        rw [hs] at ho ⊢
      · cases ho
        cases he
        cases hu
        refine ⟨rfl, by simp, fun ls hls => ?_⟩
        exact absurd (h.lease t _ ls hls).2 (by simp)
      · cases ho
      · obtain ⟨hd, hlt, -⟩ := h.drawn t o ho
        exact ⟨hd, Nat.lt_of_lt_of_le hlt hmono, by simp⟩
      · cases ho
      · obtain ⟨hd, hlt, hne⟩ := h.drawn t o ho
        exact ⟨hd, Nat.lt_of_lt_of_le hlt hmono, hne⟩
    · rw [session_call_other ht] at ho ⊢
      obtain ⟨hd, hlt, hne⟩ := h.drawn t' o ho
      exact ⟨hd, Nat.lt_of_lt_of_le hlt hmono, hne⟩

theorem Sessioned.start (h : Sessioned b w l) (T : Task) : Sessioned b w (.start t T :: l) :=
  ⟨h.owner, h.lease, h.drawn⟩

theorem Sessioned.env (h : Sessioned b w l) {x : Stimulus} (hx : disturb x w = some w') :
    Sessioned b w' (.env x :: l) where
  owner m o hm ho := by
    have hr := disturb_manifest hx b
    rw [hm] at hr
    generalize hold : w.repo.buildResources.lookup b = old at hr
    cases hr with
    | same => exact h.owner m o hold ho
    | renewed _ => exact h.owner _ o hold ho
  lease t' o ls hls := by rw [disturb_draws hx]; exact h.lease t' o ls hls
  drawn t' o ho := by rw [disturb_draws hx]; exact h.drawn t' o ho

theorem boot_supervised {M : Monitor api} {c : Config (orchestrator S)} (hc : Boot c) :
    Supervised M c := fun t => by simp [hc.threads, hc.log]

/-! ### Holding the lease -/

/-- `o` holds the lease of `b`, and in time. -/
def Held (b : BuildId) (o : Uuid) (w : World) : Prop :=
  ∃ m, w.repo.buildResources.lookup b = some m ∧ m.heldBy o w.now

theorem Held.of_env {x : Stimulus} {o : Uuid} (hx : disturb x w = some w') (hh : Held b o w') :
    Held b o w := by
  obtain ⟨m, hm, ho, hexp⟩ := hh
  have hr := disturb_manifest hx b
  rw [hm] at hr
  generalize hold : w.repo.buildResources.lookup b = old at hr
  cases hr with
  | same =>
      refine ⟨m, hold, ho, ?_⟩
      have hclock := disturb_clock hx
      revert hexp
      cases m.leaseExpiresAt with
      | none => simp [leaseExpired]
      | some e =>
          simp only [leaseExpired, World.now, DateTime.utc_now, decide_eq_false_iff_not]
          omega
  | renewed h =>
      refine ⟨_, hold, ?_⟩
      cases h.1.symm.trans ho
      exact h

/-- **Sessions.**  They hold in every configuration of every run. -/
theorem run_sessioned {ok : Config (orchestrator S) → Move (orchestrator S) → Prop}
    {c c' : Config (orchestrator S)} (hc : Boot c) (hr : Run ok c c') (b : BuildId) :
    Sessioned b c'.world c'.log := by
  refine (hr.mono fun _ _ _ => trivial).calling.invariant (M := sessions b)
    (fun _ _ => True) (disciplined_sessions S b)
    (fun w l t op a r w' h _ _ ha _ he => h.call ha he) (fun w l t T h => h.start T)
    (fun w l x w' h _ hx => h.env hx) hc.good (boot_supervised hc) (fun _ _ => trivial) ?_
  rw [hc.log]
  exact .boot hc.repo

/-! ### Invariants of a conduct -/

/-- What every step of a conducted run preserves, holds from there on. -/
structure Conducted (C : Conduct) (b : BuildId) (S : Settings)
    (cond : World → List (Event (orchestrator S)) → Nat → Op → Prop)
    (Known Inv : World → List (Event (orchestrator S)) → Prop) : Prop where
  call : ∀ {w l t op a r w'}, Inv w l → Known w l → Sessioned b w l → cond w l t op →
    (session b t l).allows b op → C.allows (session b t l) (C.stage b t l) op → Op.Sane op r →
    exec t op a w = some (r, w') → Inv w' (.call t op r :: l)
  start : ∀ {w l t T}, Inv w l → Inv w (.start t T :: l)
  env : ∀ {w l x w'}, Inv w l → Known w l → Sessioned b w l → disturb x w = some w' →
    Inv w' (.env x :: l)

theorem Conducted.run {C : Conduct}
    {cond : World → List (Event (orchestrator S)) → Nat → Op → Prop}
    {Known Inv : World → List (Event (orchestrator S)) → Prop}
    (h : Conducted C b S cond Known Inv) (hK : C.Kept b S) {c₀ c c' : Config (orchestrator S)}
    (hc : Boot c₀) (h₀ : Run Anything c₀ c) (hr : Run (Calling cond) c c')
    (hknown : ∀ c', Run (Calling cond) c c' → Known c'.world c'.log)
    (hinv : Inv c.world c.log) : Inv c'.world c'.log := by
  refine hr.invariant (M := C.monitor b) (fun w l => Known w l ∧ Sessioned b w l)
    hK.disciplined (fun w l t op a r w' hi hk hcond ha hs he => ?_)
    (fun w l t T hi => h.start hi) (fun w l x w' hi hk hx => h.env hi hk.1 hk.2 hx)
    (h₀.good hc.good) (h₀.supervised hK.disciplined hc.good (boot_supervised hc))
    (fun c' hr' => ⟨hknown c' hr',
      run_sessioned hc (h₀.trans (hr'.mono fun _ _ _ => trivial)) b⟩) hinv
  obtain ⟨ha₁, ha₂⟩ := ha
  rw [Conduct.viewOf_fst] at ha₁ ha₂
  exact h.call hi hk.1 hk.2 hcond ha₁ ha₂ hs he

/-- A conducted run from the start. -/
theorem Conducted.boot {C : Conduct}
    {cond : World → List (Event (orchestrator S)) → Nat → Op → Prop}
    {Known Inv : World → List (Event (orchestrator S)) → Prop}
    (h : Conducted C b S cond Known Inv) (hK : C.Kept b S) {c₀ c : Config (orchestrator S)}
    (hc : Boot c₀) (hr : Run (Calling cond) c₀ c)
    (hknown : ∀ c', Run (Calling cond) c₀ c' → Known c'.world c'.log)
    (hinv : Inv c₀.world []) : Inv c.world c.log := by
  rw [← hc.log] at hinv
  exact h.run hK hc (.refl _) hr hknown hinv

/-- What a step from a configuration that is reached does: an allowed call, or no call. -/
theorem Conduct.Kept.step_cases {C : Conduct} (hK : C.Kept b S)
    {ok : Config (orchestrator S) → Move (orchestrator S) → Prop}
    {c₀ c c' : Config (orchestrator S)} {mv : Move (orchestrator S)} (hc : Boot c₀)
    (hr : Run ok c₀ c) (hs : Machine.step c mv = some c') :
    (∃ t op a r w, (session b t c.log).allows b op ∧
      C.allows (session b t c.log) (C.stage b t c.log) op ∧ Op.Sane op r ∧
      exec t op a c.world = some (r, w) ∧ c'.world = w ∧ c'.log = .call t op r :: c.log) ∨
    (∃ t T, c'.world = c.world ∧ c'.log = .start t T :: c.log) ∨
    (∃ x, disturb x c.world = some c'.world ∧ c'.log = .env x :: c.log) := by
  have hsup := hr.supervised hK.disciplined hc.good (boot_supervised hc)
  rcases Machine.step_cases hs with ⟨t, a, op, k, r, w, -, hk, he, rfl⟩ |
      ⟨t, T, -, -, rfl⟩ | ⟨x, w, -, he, rfl⟩
  · obtain ⟨ha₁, ha₂⟩ := hsup.allows hk
    rw [Conduct.viewOf_fst] at ha₁ ha₂
    exact .inl ⟨t, op, a, r, w, ha₁, ha₂, (exec_sane (hr.good hc.good) he).1, he, rfl, rfl⟩
  · exact .inr (.inl ⟨t, T, rfl, rfl⟩)
  · exact .inr (.inr ⟨x, he, rfl⟩)

/-! ### What sessions let happen to a manifest -/

/-- What a thread in session `s` does to the manifest of `b`. -/
inductive ManifestDeed (now : DateTime) (b : BuildId) (s : Session) :
    Option BuildResources → Option BuildResources → (op : Op) → op.Ret → Prop where
  | same {m : Option BuildResources} {op : Op} {r : op.Ret} (h : ManifestReads now b m op r) :
      ManifestDeed now b s m m op r
  | ensured {m : BuildResources} (hb : m.buildId = b) (h : m.Blank) :
      ManifestDeed now b s none (some m) (.ensureBuildResources m) (.ok m)
  | stored {m : BuildResources} {x : BuildResource} {o : Uuid} {ls : List CleanupStatus}
      (hs : s.lease = some (o, ls)) (h : m.heldBy o now) :
      ManifestDeed now b s (some m) (some { m with resources := m.resources.put x })
        (.putBuildResource b x (some o)) (.ok { m with resources := m.resources.put x })
  | owned {m : BuildResources} {f : ResourceFields} {e : ResourceExpectation} {o : Uuid}
      {ls : List CleanupStatus} (hs : s.lease = some (o, ls)) (ho : e.leaseOwner = .eq (some o))
      (h : m.heldBy o now) (he : e.holds m = true) (hf : f.leaseExpiresAt.Untouched) :
      ManifestDeed now b s (some m) (some (m.modelCopy f)) (.updateBuildResources b f e)
        (some (m.modelCopy f))
  | undispatched {m : BuildResources} {e : ResourceExpectation} (hq : m.cleanupStatus = .queued)
      (he : e.holds m = true) :
      ManifestDeed now b s (some m) (some (m.modelCopy undispatchedFields))
        (.updateBuildResources b undispatchedFields e) (some (m.modelCopy undispatchedFields))
  | claimed {m : BuildResources} {o : Uuid} {e : DateTime} {l : List CleanupStatus}
      (hd : s.drawn = some o) (hs : s.lease = none) (h : m.cleanupStatus ∈ l)
      (hfree : m.leaseOwner = none ∨ leaseExpired m.leaseExpiresAt now = true) :
      ManifestDeed now b s (some m)
        (some { m with leaseOwner := some o, leaseExpiresAt := some e })
        (.claimBuildLease b o e l)
        (some { m with leaseOwner := some o, leaseExpiresAt := some e })
  | released {m : BuildResources} {o : Uuid} (hs : s.Owner (some o)) (h : m.leaseOwner = some o) :
      ManifestDeed now b s (some m) (some { m with leaseOwner := none, leaseExpiresAt := none })
        (.releaseBuildLease b o) ()

theorem manifest_deed {s : Session} (ha : s.allows b op) (he : exec t op a w = some (r, w')) :
    ManifestDeed w.now b s (w.repo.buildResources.lookup b) (w'.repo.buildResources.lookup b)
      op r := by
  have hstep := exec_manifest he b
  generalize w.repo.buildResources.lookup b = old at hstep ⊢
  generalize w'.repo.buildResources.lookup b = new at hstep ⊢
  cases hstep with
  | same h => exact .same h
  | ensured hb => exact .ensured hb (ha hb)
  | stored h =>
      obtain ⟨u, ls, hs, rfl⟩ := ha rfl
      exact .stored hs (h u rfl)
  | @updated m f e h ho =>
      obtain ⟨hf, ⟨_, hown, u, ls, hs, rfl⟩ | ⟨rfl, hq⟩⟩ := ha rfl
      · have howner : e.owner = some u := by
          simp only [ResourceExpectation.owner, hown]
        exact .owned hs hown ⟨ResourceExpectation.holds_owner h howner, ho (by simp [howner])⟩ h hf
      · exact .undispatched (ResourceExpectation.holds_status h hq) h
  | claimed h hfree => exact .claimed (ha rfl).1 (ha rfl).2 h hfree
  | released h => exact .released (ha rfl) h

/-- Where a thread is in a session of the recorded owner, it is the thread that drew it. -/
theorem Sessioned.drawer (h : Sessioned b w l) {o : Uuid} {ls : List CleanupStatus}
    (hs : (session b t l).lease = some (o, ls)) : o.drawer = t := (h.lease t o ls hs).1

end Orchestrator
