import Orchestrator.Docker.Footprints

/-!
# Cleanup — what a cleanup touches

A run of `BuildCleanupRunner` removes what belongs to its build, and nothing else, whatever the
engines, Harbor, the ports and the directories hold, and whatever its calls answer.  Others may
do anything to the host in between, but not between a check and the call that rests on it: they
come in at the calls to the repository, the guard apart.

* `OnRecord`: a managed resource of a manifest the run has read.
* `Spares`: all that a call removes or changes is the build's own, and is recorded.
* `cleanup_custody`: every call of every run spares the rest.
-/

namespace Orchestrator
open Interleaving

/-- A host, and the manifests a run has read so far. -/
structure Scene where
  host : Host
  read : List BuildResources

/-- The manifests a call hands to the run. -/
def HostOp.reads : (op : HostOp) → op.Ret → List BuildResources
  | .repo (.getBuildResources _), r => r.toList
  | .repo (.ensureBuildResources _), r => r.toOption.toList
  | _, _ => []

/-- What others may have done to the host when a call is made. -/
def Meddled (op : HostOp) (s h : Host) : Prop :=
  match op with
  | .repo (.guard ..) => h = s
  | .repo _ => h.state = s.state
  | _ => h = s

/-- A resource the run may remove: it was read in a manifest, and it is managed. -/
def OnRecord (read : List BuildResources) (r : BuildResource) : Prop :=
  r.managed = true ∧ ∃ x ∈ read, r ∈ x.resources

/-- The manifest the run is about: the first it read. -/
def Subject (b : BuildId) (read : List BuildResources) (m : BuildResources) : Prop :=
  read.head? = some m ∧ m.buildId = b

/-- The collection of the objects of a kind. -/
def Collection.holds : Collection → ResourceKind → Prop
  | .services, .service | .networks, .network | .volumes, .volume | .containers, .container
  | .images, .localImage => True
  | _, _ => False

/-- The object is the build's by its labels, and it is the one that was recorded. -/
def Own (S : HostSettings) (b : BuildId) (read : List BuildResources) (k : Collection)
    (o : DockerObject) : Prop :=
  ∃ m, Subject b read m ∧ DockerBuildCleaner.OwnedLabels S m o.labels ∧
    ∃ r, OnRecord read r ∧ k.holds r.kind ∧
      (r.nativeId = some o.id ∨ r.nativeId = none ∧ o.answersTo r.name)

/-- All that is removed or changed from `h` to `h'` is the build's own, and recorded. -/
structure Spares (S : HostSettings) (b : BuildId) (read : List BuildResources) (h h' : Host) :
    Prop where
  objects : ∀ c k o, k ≠ .images → o ∈ (h.engines c).objects k → o ∉ (h'.engines c).objects k →
    Own S b read k o
  references : ∀ c o ref, o ∈ (h.engines c).objects .images → ref ∈ o.tags →
    (∀ o' ∈ (h'.engines c).objects .images, o'.id = o.id → ref ∉ o'.tags) →
    startsWith (lastPart ':' ref) (b.hex ++ "-") = true ∧
      ∃ r, OnRecord read r ∧ r.kind = .localImage ∧ r.name = ref
  registry : ∀ y ∈ h.registry, y ∉ h'.registry → ∃ m, Subject b read m ∧
    y.repository = HostSettings.appNamespace m.appid ∧
    startsWith y.tag (b.hex ++ "-") = true ∧
    ∃ r, OnRecord read r ∧ r.kind = .registryImage ∧
      r.name = S.expectedRepository m.appid ++ ":" ++ y.tag
  ports : ∀ a ∈ h.ports, a ∉ h'.ports → a.buildId = b ∧
    ∃ r, OnRecord read r ∧ r.kind = .port ∧ r.target = a.target
  directories : ∀ d ∈ h.directories, d ∉ h'.directories → ∃ m, Subject b read m ∧
    d.isRelativeTo (S.snapshotPath m.appid b) = true ∧
    ∃ r, OnRecord read r ∧ r.kind = .workspace

/-- The calls of a run of a cleanup of `b`, as they are made. -/
def custody (S : HostSettings) (b : BuildId) : Contract hostApi Scene where
  does s op r s' := ∃ h, Meddled op s.host h ∧ h.Acts op r s'.host ∧
    s'.read = s.read ++ op.reads r
  allows s op := ∀ r h', s.host.Acts op r h' → Spares S b s.read s.host h'
  holds _ := True

variable {S : HostSettings} {b : BuildId} {s : Scene}

/-! ### Calls -/

theorem spares_of_same {read : List BuildResources} {h h' : Host} (he : h'.engines = h.engines)
    (hr : h'.registry = h.registry) (hp : ∀ a ∈ h.ports, a ∈ h'.ports)
    (hd : h'.directories = h.directories) : Spares S b read h h' where
  objects _ _ _ _ ho hn := absurd (he ▸ ho) hn
  references _ o _ ho ht hn := absurd ht (hn o (he ▸ ho) rfl)
  registry _ hy hn := absurd (hr ▸ hy) hn
  ports a ha hn := absurd (hp a ha) hn
  directories _ hd' hn := absurd (hd ▸ hd') hn

/-- A call that removes nothing outside the repository. -/
def HostOp.gentle : HostOp → Bool
  | .docker _ (.create ..) | .docker _ (.update ..) | .reservePort _ => false
  | op => !op.removes

theorem Looks.gentle {op : HostOp} (h : Looks op) : op.gentle = true := by
  revert h
  cases op with
  | repo op => intro _; rfl
  | docker c op => cases op <;> first | (intro _; rfl) | (intro h; cases h)
  | _ => first | (intro _; rfl) | (intro h; cases h)

theorem still_world {op : HostOp} (ho : op.stills = true) {r : op.Ret} {h h' : Host}
    (ha : h.Acts op r h') : h' = h := by
  cases op with
  | repo op =>
      cases op with
      | guard b' o =>
          obtain ⟨w, hw, rfl⟩ := ha
          have he : ∀ {t a r'} {w' : World}, exec t (.guard b' o) a h.world = some (r', w') →
              w' = h.world := by
            rintro t a r' w' h'
            exact (Prod.mk.inj (Option.some.inj h')).2.symm
          rcases hw with ⟨t, a, hw⟩ | ⟨-, rfl | ⟨t, a, r', hw⟩⟩
          · rw [he hw]
          · rfl
          · rw [he hw]
      | _ => cases ho
  | docker c op =>
      obtain ⟨g, hg, rfl⟩ := ha
      have : g = h.engines c := by
        cases op with
        | info => exact hg.1
        | get k i => exact hg.1
        | list k f => exact hg.1
        | tasks id => exact hg
        | _ => cases ho
      rw [this, Function.update_eq_self]
  | connect _ => exact ha
  | listBuildPorts _ => exact ha.1
  | getArtifact _ _ => exact ha.1
  | inspectDirectory _ => exact ha.1
  | attributes => exact ha.1
  | deadlinePassed => exact ha
  | _ => cases ho

theorem gentle_spares {op : HostOp} (ho : op.gentle = true) : (custody S b).allows s op := by
  intro r h' ha
  by_cases hs : op.stills = true
  · rw [still_world hs ha]
    exact spares_of_same rfl rfl (fun _ h => h) rfl
  cases op with
  | repo op =>
      obtain ⟨w, -, rfl⟩ := ha
      exact spares_of_same rfl rfl (fun _ h => h) rfl
  | assign state =>
      obtain rfl := ha
      exact spares_of_same rfl rfl (fun _ h => h) rfl
  | outcome step failed =>
      obtain rfl := ha
      exact spares_of_same rfl rfl (fun _ h => h) rfl
  | docker c op => cases op <;> simp_all [HostOp.gentle, HostOp.stills, HostOp.removes]
  | _ => simp_all [HostOp.gentle, HostOp.stills, HostOp.removes]

/-- A call that changes nothing changes nothing. -/
theorem still_does {o : HostOp} (ho : o.stills = true) {r : o.Ret} {s' : Scene}
    (h : (custody S b).does s o r s') : s' = s ∧ s.host.Acts o r s.host := by
  obtain ⟨h, hm, ha, hr⟩ := h
  have hh : h = s.host := by
    cases o with
    | repo op => cases op <;> first | exact hm | cases ho
    | _ => exact hm
  subst hh
  have hw := still_world ho ha
  have hread : o.reads r = [] := by
    cases o with
    | repo op => cases op <;> first | rfl | cases ho
    | _ => rfl
  rw [hread, List.append_nil] at hr
  rw [hw] at ha
  refine ⟨?_, ha⟩
  cases s; cases s'; simp_all

/-! ### Programs -/

section Programs
variable {α β : Type} {Q : Except Exc α → Scene → Prop}

/-- A program that changes nothing. -/
theorem stills_safe {p : D α} (h : p.Uses Stills) :
    p.Safe (custody S b) (fun _ s' => s' = s) s := by
  refine Prog.Uses.safe (P := (· = s)) h (fun t op ht hop => ⟨gentle_spares hop.looks.gentle, ?_⟩)
    (fun _ _ => trivial) rfl
  intro r s' _ hd
  exact (still_does hop hd).1.trans ht

theorem still_then {p : D α} {f : α → D β} (h : p.Uses Stills)
    (hf : ∀ a, (f a).Safe (custody S b) (fun _ _ => True) s) :
    (p.bind f).Safe (custody S b) (fun _ _ => True) s := by
  rw [Prog.safe_bind]
  refine (stills_safe h).mono ?_
  rintro r s' rfl
  cases r with
  | error e => trivial
  | ok a => exact hf a

/-- A program that removes nothing, and what it has read since. -/
theorem gentle_safe {p : D α} (h : p.Uses fun op : HostOp => op.gentle = true) :
    p.Safe (custody S b) (fun _ s' => s.read <+: s'.read) s := by
  refine Prog.Uses.safe (P := fun s' => s.read <+: s'.read) h
    (fun t op ht hop => ⟨gentle_spares hop, ?_⟩) (fun _ _ => trivial) (List.prefix_refl _)
  rintro r s' - ⟨_, -, -, hr⟩
  exact ht.trans (hr ▸ List.prefix_append _ _)

/-- The last request of an operation. -/
theorem request_last {γ : Type} {p : D (Except DockerError γ)}
    (h : p.Safe (custody S b) (fun _ _ => True) s) :
    (request p).Safe (custody S b) (fun _ _ => True) s := by
  refine Prog.safe_bind.mpr (h.mono ?_)
  rintro (e | (e | a)) s' - <;> trivial

theorem ask_last {op : HostOp} (h : (custody S b).allows s op) :
    (ask op).Safe (custody S b) (fun _ _ => True) s :=
  ⟨h, fun _ _ _ _ => ⟨trivial, trivial⟩⟩

end Programs

theorem Subject.mono {read read' : List BuildResources} {m : BuildResources}
    (h : Subject b read m) (hp : read <+: read') : Subject b read' m := by
  obtain ⟨l, rfl⟩ := hp
  refine ⟨?_, h.2⟩
  rw [List.head?_append, h.1]
  rfl

theorem OnRecord.mono {read read' : List BuildResources} {r : BuildResource}
    (h : OnRecord read r) (hp : read <+: read') : OnRecord read' r :=
  let ⟨hm, x, hx, hr⟩ := h
  ⟨hm, x, hp.subset hx, hr⟩

/-! ### The checks of the cleaner -/

namespace DockerBuildCleaner

/-- The object is the one of the resource, as it was looked up. -/
def Found (r : BuildResource) (o : DockerObject) : Prop :=
  falsy r.nativeId = true ∧ o.answersTo r.name ∨ r.nativeId = some o.id

variable {client : Client} {k : Collection} {r : BuildResource}

theorem find?_safe (identifier : String) :
    (find? client k identifier).Safe (custody S b) (fun found s' => s' = s ∧
      ∀ o, found = .ok (some o) → o ∈ (s.host.engines client).objects k ∧ o.answersTo identifier)
      s := by
  refine Prog.safe_bind.mpr ⟨gentle_spares rfl, fun x s' _ hd => ⟨trivial, ?_⟩⟩
  obtain ⟨rfl, g, hg, -⟩ := still_does (o := .docker client (.get k identifier)) rfl hd
  cases x with
  | ok o =>
      refine ⟨rfl, ?_⟩
      rintro _ ⟨⟩
      exact hg.2 o rfl
  | error e => cases e <;> exact ⟨rfl, by rintro _ ⟨⟩⟩

/-- What passes the identity check has the recorded identifier. -/
theorem checkFound_safe {id : String} (hid : r.nativeId = some id) {obj : Option DockerObject}
    (ho : ∀ o, obj = some o → o ∈ (s.host.engines client).objects k) :
    (checkFound (some id) obj).Safe (custody S b) (fun found s' => s' = s ∧
      ∀ o, found = .ok (some o) → o ∈ (s.host.engines client).objects k ∧ Found r o) s := by
  cases obj with
  | none => exact ⟨rfl, by rintro _ ⟨⟩⟩
  | some o =>
      rw [checkFound]
      split
      · exact ⟨rfl, by rintro _ ⟨⟩⟩
      · next h =>
          refine ⟨rfl, ?_⟩
          rintro _ ⟨⟩
          exact ⟨ho o rfl, .inr (hid.trans (congrArg some (not_not.mp h).symm))⟩

theorem find_safe : (find client k r).Safe (custody S b) (fun found s' => s' = s ∧
    ∀ o, found = .ok (some o) → o ∈ (s.host.engines client).objects k ∧ Found r o) s := by
  rw [find]
  cases hf : falsy r.nativeId with
  | true =>
      refine Prog.safe_bind.mpr ((find?_safe _).mono ?_)
      rintro (e | obj) s' ⟨rfl, ho⟩
      · exact ⟨rfl, by rintro _ ⟨⟩⟩
      cases obj with
      | none => exact ⟨rfl, by rintro _ ⟨⟩⟩
      | some o =>
          refine ⟨rfl, ?_⟩
          rintro _ ⟨⟩
          exact ⟨(ho o rfl).1, .inl ⟨hf, (ho o rfl).2⟩⟩
  | false =>
      obtain ⟨id, hid⟩ : ∃ id, r.nativeId = some id := by
        cases h : r.nativeId with
        | none => rw [h] at hf; cases hf
        | some id => exact ⟨id, rfl⟩
      simp only [hid, Bool.false_eq_true, ↓reduceIte]
      refine Prog.safe_bind.mpr ((find?_safe _).mono ?_)
      rintro (e | obj) s' ⟨rfl, ho⟩
      · exact ⟨rfl, by rintro _ ⟨⟩⟩
      refine Prog.safe_bind.mpr ?_
      cases obj with
      | some o => exact checkFound_safe hid fun _ h => (ho _ (h ▸ rfl)).1
      | none =>
          dsimp only
          split
          · exact checkFound_safe hid fun _ h => absurd h (Option.some_ne_none _).symm
          · refine (find?_safe _).mono ?_
            rintro (e | obj) s' ⟨rfl, ho⟩
            · exact ⟨rfl, by rintro _ ⟨⟩⟩
            · exact checkFound_safe hid fun _ h => (ho _ (h ▸ rfl)).1

theorem assertOwner_ok {o : DockerObject} {m : BuildResources}
    (h : assertOwner S o m (some r) = .ok ()) :
    OwnedLabels S m o.labels ∧ (r.nativeId = none ∨ r.nativeId = some o.id) := by
  unfold assertOwner at h
  split at h
  · cases h
  · next hl =>
      refine ⟨not_not.mp hl, ?_⟩
      dsimp only at h
      split at h
      · cases h
      · next hn => tauto

/-- What was found and has passed `assert_owner` is the build's own. -/
theorem own_of_found {o : DockerObject} {m : BuildResources} (hm : Subject b s.read m)
    (hr : OnRecord s.read r) (hk : k.holds r.kind) (hf : Found r o)
    (ha : assertOwner S o m (some r) = .ok ()) : Own S b s.read k o := by
  obtain ⟨hl, hn⟩ := assertOwner_ok ha
  refine ⟨m, hm, hl, r, hr, hk, ?_⟩
  rcases hf with ⟨-, hf⟩ | hf
  · exact hn.elim (fun h => .inr ⟨h, hf⟩) .inl
  · exact .inl hf

end DockerBuildCleaner

/-! ### Removals -/

section Removals
variable {client : Client} {k : Collection}

theorem remove_allows {o : DockerObject} (hk : k ≠ .images)
    (ho : o ∈ (s.host.engines client).objects k) (hown : Own S b s.read k o) :
    (custody S b).allows s (.docker client (.remove k o.id)) := by
  rintro r h' ⟨g, rfl | ⟨-, rfl⟩, rfl⟩
  · refine ⟨fun c k' x hk' hx hn => ?_, fun c x ref hx ht hn => absurd ht (hn x ?_ rfl),
      fun _ hy hn => absurd hy hn, fun _ ha hn => absurd ha hn, fun _ hd hn => absurd hd hn⟩
    · by_cases hc : c = client
      · subst hc
        simp only [Function.update_self, Engine.effect, Engine.set_objects] at hn
        split at hn
        · next he =>
            subst he
            have : x.id = o.id := by
              by_contra hne
              exact hn (Objects.mem_erase.mpr ⟨hx, hne⟩)
            rw [Objects.eq_of_id hx ho this]
            exact hown
        · exact absurd hx hn
      · simp only [Function.update_of_ne hc] at hn
        exact absurd hx hn
    · by_cases hc : c = client
      · subst hc
        simpa only [Function.update_self, Engine.effect, Engine.set_objects, hk.symm, if_false]
          using hx
      · simpa only [Function.update_of_ne hc] using hx
  · rw [Function.update_eq_self]
    exact spares_of_same rfl rfl (fun _ h => h) rfl

theorem untag_allows {reference : String}
    (ht : startsWith (lastPart ':' reference) (b.hex ++ "-") = true)
    (hr : ∃ r, OnRecord s.read r ∧ r.kind = .localImage ∧ r.name = reference) :
    (custody S b).allows s (.docker client (.untag reference)) := by
  rintro r h' ⟨g, rfl | ⟨-, rfl⟩, rfl⟩
  · refine ⟨fun c k' x hk' hx hn => absurd hx ?_, fun c x ref hx hm hn => ?_,
      fun _ hy hn => absurd hy hn, fun _ ha hn => absurd ha hn, fun _ hd hn => absurd hd hn⟩
    · by_cases hc : c = client
      · subst hc
        simpa only [Function.update_self, Engine.effect, Engine.set_objects, hk', if_false] using hn
      · simpa only [Function.update_of_ne hc] using hn
    · by_cases hc : c = client
      · subst hc
        simp only [Function.update_self, Engine.effect, Engine.set_objects, if_true] at hn
        -- Of an image that keeps another reference, only `reference` goes.
        obtain rfl : ref = reference := by
          by_contra hne
          refine hn _ (List.mem_map.mpr ⟨x, List.mem_filter.mpr ⟨hx, ?_⟩, rfl⟩) rfl
            (List.mem_filter.mpr ⟨hm, by simpa using hne⟩)
          simp only [Bool.not_eq_true', Bool.and_eq_false_iff]
          exact .inr (List.all_eq_false.mpr ⟨ref, hm, by simpa using hne⟩)
        exact ⟨ht, hr⟩
      · simp only [Function.update_of_ne hc] at hn
        exact absurd hm (hn x hx rfl)
  · rw [Function.update_eq_self]
    exact spares_of_same rfl rfl (fun _ h => h) rfl

theorem releasePort_allows {target protocol : String} {port : Nat}
    (hr : ∃ r, OnRecord s.read r ∧ r.kind = .port ∧ r.target = target) :
    (custody S b).allows s (.releasePort target protocol port b) := by
  rintro r h' (⟨rfl, -⟩ | ⟨-, rfl⟩)
  · refine ⟨fun _ _ _ _ hx hn => absurd hx hn, fun _ x _ hx ht hn => absurd ht (hn x hx rfl),
      fun _ hy hn => absurd hy hn, fun a ha hn => ?_, fun _ hd hn => absurd hd hn⟩
    simp only [PortAllocations.releasePort] at hn
    split at hn
    · exact absurd ha hn
    · split at hn
      · exact absurd ha hn
      · have h : PortAllocation.samePort ⟨target, protocol, port, b, ""⟩ a = true ∧
            a.buildId = b := by
          by_contra hne
          rw [not_and_or, Bool.not_eq_true] at hne
          refine hn (List.mem_filter.mpr ⟨ha, ?_⟩)
          simpa using hne
        refine ⟨h.2, ?_⟩
        have ht := h.1
        simp only [PortAllocation.samePort, Bool.and_eq_true, beq_iff_eq] at ht
        obtain ⟨r, h₁, h₂, h₃⟩ := hr
        exact ⟨r, h₁, h₂, h₃.trans ht.1.1.symm⟩
  · exact spares_of_same rfl rfl (fun _ h => h) rfl

theorem deleteTag_allows {repository digest tag : String} {m : BuildResources}
    (hm : Subject b s.read m) (hrep : repository = HostSettings.appNamespace m.appid)
    (ht : startsWith tag (b.hex ++ "-") = true)
    (hr : ∃ r, OnRecord s.read r ∧ r.kind = .registryImage ∧
      r.name = S.expectedRepository m.appid ++ ":" ++ tag) :
    (custody S b).allows s (.deleteTag repository digest tag) := by
  rintro r h' (rfl | ⟨-, rfl⟩)
  · refine ⟨fun _ _ _ _ hx hn => absurd hx hn, fun _ x _ hx ht hn => absurd ht (hn x hx rfl),
      fun y hy hn => ?_, fun _ ha hn => absurd ha hn, fun _ hd hn => absurd hd hn⟩
    have h : y.repository = repository ∧ y.tag = tag := by
      by_contra hne
      refine hn (List.mem_filter.mpr ⟨hy, ?_⟩)
      simp only [Bool.not_eq_true', Bool.and_eq_false_iff, beq_eq_false_iff_ne]
      tauto
    exact ⟨m, hm, h.1.trans hrep, h.2 ▸ ht, h.2 ▸ hr⟩
  · exact spares_of_same rfl rfl (fun _ h => h) rfl

theorem removeTree_allows {m : BuildResources} (hm : Subject b s.read m)
    (hr : ∃ r, OnRecord s.read r ∧ r.kind = .workspace) :
    (custody S b).allows s (.removeTree (S.snapshotPath m.appid b)) := by
  rintro r h' (rfl | ⟨-, rfl⟩)
  · refine ⟨fun _ _ _ _ hx hn => absurd hx hn, fun _ x _ hx ht hn => absurd ht (hn x hx rfl),
      fun _ hy hn => absurd hy hn, fun _ ha hn => absurd ha hn, fun d hd hn => ⟨m, hm, ?_, hr⟩⟩
    by_contra hne
    exact hn (List.mem_filter.mpr ⟨hd, by simpa using hne⟩)
  · exact spares_of_same rfl rfl (fun _ h => h) rfl

end Removals

/-! ### The operations of the cleaner -/

section Operations
variable {α β : Type} {m : BuildResources} {r : BuildResource} {tr : ResourceTracker}
  {client : Client}

/-- A check, and what follows where it passes. -/
theorem check_then {x : Except Exc α} {f : α → D β}
    (hf : ∀ a, x = .ok a → (f a).Safe (custody S b) (fun _ _ => True) s) :
    ((Prog.ofExcept (I := hostApi) x).bind f).Safe (custody S b) (fun _ _ => True) s := by
  cases x with
  | error e => trivial
  | ok a => exact hf a rfl

theorem guard_then {p : D β} (h : p.Safe (custody S b) (fun _ _ => True) s) :
    ((onHost tr.guard).bind fun _ => p).Safe (custody S b) (fun _ _ => True) s :=
  still_then (guard_stills tr) fun _ => h

namespace DockerBuildCleaner

/-- What `_find` finds is the build's own once `assert_owner` has passed. -/
theorem found_then {k : Collection} {f : Option DockerObject → D Unit}
    (hm : Subject b s.read m) (hr : OnRecord s.read r) (hk : k.holds r.kind)
    (hnone : (f none).Safe (custody S b) (fun _ _ => True) s)
    (hf : ∀ o, o ∈ (s.host.engines client).objects k →
      (assertOwner S o m (some r) = .ok () → Own S b s.read k o) →
      (f (some o)).Safe (custody S b) (fun _ _ => True) s) :
    ((find client k r).bind f).Safe (custody S b) (fun _ _ => True) s := by
  refine Prog.safe_bind.mpr (find_safe.mono ?_)
  rintro (e | found) s' ⟨rfl, ho⟩
  · trivial
  cases found with
  | none => exact hnone
  | some o =>
      obtain ⟨hmem, hfound⟩ := ho o rfl
      exact hf o hmem fun ha => own_of_found hm hr hk hfound ha

theorem removeService_safe (hm : Subject b s.read m) (hr : OnRecord s.read r)
    (hk : r.kind = .service) :
    (removeService S m r tr client).Safe (custody S b) (fun _ _ => True) s := by
  refine found_then (k := .services) hm hr (hk ▸ trivial) trivial fun o ho hown => ?_
  refine check_then fun _ ha => guard_then (request_last (ask_last ?_))
  exact remove_allows (by simp) ho (hown ha)

theorem removeContainer_safe (hm : Subject b s.read m) (hr : OnRecord s.read r)
    (hk : r.kind = .container) :
    (removeContainer S m r tr client).Safe (custody S b) (fun _ _ => True) s := by
  refine found_then (k := .containers) hm hr (hk ▸ trivial) trivial fun o ho hown => ?_
  refine check_then fun _ ha => ?_
  dsimp only
  split
  · trivial
  refine still_then (uses_ask rfl) fun self => ?_
  refine still_then (find?_stills _ _ _) fun service => ?_
  split
  · trivial
  split
  · trivial
  exact guard_then (request_last (ask_last (remove_allows (by simp) ho (hown ha))))

theorem removeVolume_safe (hm : Subject b s.read m) (hr : OnRecord s.read r)
    (hk : r.kind = .volume) :
    (removeVolume S m r tr client).Safe (custody S b) (fun _ _ => True) s := by
  refine found_then (k := .volumes) hm hr (hk ▸ trivial) trivial fun o ho hown => ?_
  refine check_then fun _ ha => still_then (uses_request (uses_ask rfl)) fun users => ?_
  split
  · trivial
  refine still_then (uses_ask rfl) fun self => ?_
  refine still_then (uses_request (uses_ask rfl)) fun services => ?_
  split
  · trivial
  exact guard_then (request_last (ask_last (remove_allows (by simp) ho (hown ha))))

theorem removeNetwork_safe (hm : Subject b s.read m) (hr : OnRecord s.read r)
    (hk : r.kind = .network) :
    (removeNetwork S m r tr client).Safe (custody S b) (fun _ _ => True) s := by
  refine found_then (k := .networks) hm hr (hk ▸ trivial) trivial fun o ho hown => ?_
  refine check_then fun _ ha => still_then (uses_request (uses_ask rfl)) fun services => ?_
  split
  · trivial
  refine still_then (assertDetached_stills _ _) fun _ => ?_
  exact guard_then (request_last (ask_last (remove_allows (by simp) ho (hown ha))))

theorem removeLocalImage_safe (hm : m.buildId = b) (hr : OnRecord s.read r)
    (hk : r.kind = .localImage) :
    (removeLocalImage m r tr client).Safe (custody S b) (fun _ _ => True) s := by
  refine still_then (find?_stills _ _ _) fun image => ?_
  split
  · trivial
  split
  · trivial
  split
  · trivial
  next htag =>
  refine still_then (uses_request (uses_ask rfl)) fun containers => ?_
  split
  · trivial
  refine still_then (uses_ask rfl) fun self => ?_
  refine still_then (uses_request (uses_ask rfl)) fun services => ?_
  split
  · trivial
  refine still_then ?_ fun users => ?_
  · split
    · exact .bind (assertLayersUnused_stills _) fun _ => uses_request (uses_ask rfl)
    · trivial
  split
  · trivial
  refine guard_then (request_last (ask_last (untag_allows ?_ ⟨r, hr, hk, rfl⟩)))
  rw [← hm]
  simpa using htag

theorem removePort_safe (hm : m.buildId = b) (hr : OnRecord s.read r) (hk : r.kind = .port) :
    (removePort m r tr client).Safe (custody S b) (fun _ _ => True) s := by
  refine check_then fun number _ => ?_
  split
  · trivial
  refine still_then (uses_request (uses_ask rfl)) fun services => ?_
  split
  · trivial
  refine still_then (uses_request (uses_ask rfl)) fun containers => ?_
  split
  · trivial
  refine guard_then (Prog.safe_bind.mpr (Prog.safe_bind.mpr ?_))
  rw [hm]
  refine ⟨releasePort_allows ⟨r, hr, hk, rfl⟩, fun x s' _ _ => ⟨trivial, ?_⟩⟩
  cases x with
  | error e => trivial
  | ok released => cases released <;> trivial

theorem remove_safe (hm : Subject b s.read m) (hr : OnRecord s.read r) :
    (remove S m r tr).Safe (custody S b) (fun _ _ => True) s := by
  refine guard_then (Prog.safe_bind.mpr ?_)
  refine (gentle_safe ((targetClient_looks S _).mono fun _ h => h.gentle)).mono ?_
  rintro (e | client) s' hp
  · trivial
  have hm := hm.mono hp
  have hr := hr.mono hp
  dsimp only
  split
  · next hk => exact removeService_safe hm hr hk
  · next hk => exact removeContainer_safe hm hr hk
  · next hk => exact removeVolume_safe hm hr hk
  · next hk => exact removeNetwork_safe hm hr hk
  · next hk => exact removeLocalImage_safe hm.2 hr hk
  · next hk => exact removePort_safe hm.2 hr hk
  · trivial

end DockerBuildCleaner

/-- A reference of the build, cut at its last colon: where the repository has no colon, it is
the build's, and the tag starts with the build. -/
theorem reference_parts {base ns buildId reference repository tag : String}
    (hs : startsWith reference (base ++ ns ++ ":" ++ buildId ++ "-") = true)
    (hr : rsplit ':' reference = some (repository, tag)) (hb : startsWith repository base = true)
    (hc : ':' ∉ (dropText base.toList.length repository).toList) :
    dropText base.toList.length repository = ns ∧ startsWith tag (buildId ++ "-") = true ∧
      reference = base ++ ns ++ ":" ++ tag := by
  obtain ⟨rest, hs⟩ := startsWith_iff.mp hs
  obtain ⟨hr, hlast⟩ := rsplit_eq_some hr
  obtain ⟨name, hb⟩ := startsWith_iff.mp hb
  have hname : (dropText base.toList.length repository).toList = name := by
    rw [dropText, String.toList_ofList, hb, List.drop_left]
  have hcut : ns.toList ++ ':' :: ((buildId ++ "-").toList ++ rest) = name ++ ':' :: tag.toList := by
    have := hs.symm.trans hr
    rw [hb] at this
    simpa [List.append_assoc] using this
  obtain ⟨hns, htag⟩ := cut_unique hcut (hname ▸ hc) hlast
  refine ⟨String.toList_inj.mp (hname.trans hns.symm), startsWith_iff.mpr ⟨rest, htag.symm⟩, ?_⟩
  refine String.toList_inj.mp ?_
  rw [hr, hb, ← hns]
  simp

namespace HarborImageCleaner

theorem artifact_safe (repository tag : String) :
    (harborRequest (ask (.getArtifact repository tag))).Safe (custody S b) (fun x s' => s' = s ∧
      ∀ response, x = .ok response → response.statusCode = 200 → ':' ∉ repository.toList) s := by
  refine Prog.safe_bind.mpr ⟨gentle_spares rfl, fun x s' _ hd => ⟨trivial, ?_⟩⟩
  obtain ⟨rfl, -, ha⟩ := still_does (o := .getArtifact repository tag) rfl hd
  cases x with
  | error e => exact ⟨rfl, by rintro _ ⟨⟩⟩
  | ok response =>
      refine ⟨rfl, ?_⟩
      rintro _ ⟨⟩ h200
      obtain ⟨y, -, rfl, -⟩ := ha response rfl h200
      exact y.colon

/-- A request, and after it a program that removes nothing. -/
theorem request_then {γ : Type} {p : D (Except Exc γ)} {f : γ → D β}
    (hp : p.Safe (custody S b) (fun _ _ => True) s)
    (hf : ∀ a, (f a).Uses fun op : HostOp => op.gentle = true) :
    ((harborRequest p).bind f).Safe (custody S b) (fun _ _ => True) s := by
  refine Prog.safe_bind.mpr (Prog.safe_bind.mpr (hp.mono ?_))
  rintro (e | (e | a)) s' -
  · trivial
  · trivial
  · exact (gentle_safe (hf a)).mono fun _ _ _ => trivial

theorem removeBuildTag_safe {reference : String} {digest : Option String}
    (hm : Subject b s.read m)
    (hr : ∃ r, OnRecord s.read r ∧ r.kind = .registryImage ∧ r.name = reference) :
    (removeBuildTag S tr reference (S.expectedRepository m.appid) b digest).Safe (custody S b)
      (fun _ _ => True) s := by
  refine check_then fun _ _ => ?_
  split
  · trivial
  next hstart =>
  split
  · trivial
  next repository tag hparts =>
  dsimp only
  split
  · trivial
  next hbase =>
  refine Prog.safe_bind.mpr ((artifact_safe _ _).mono ?_)
  rintro (e | response) s' ⟨rfl, hcolon⟩
  · trivial
  dsimp only
  split
  · trivial
  split
  · trivial
  next h200 =>
  split
  · trivial
  split
  · trivial
  obtain ⟨hns, htag, href⟩ := reference_parts (Bool.of_not_eq_false hstart) hparts
    (Bool.of_not_eq_false hbase) (hcolon response rfl (not_not.mp h200))
  obtain ⟨r, h₁, h₂, h₃⟩ := hr
  refine guard_then (request_then
    (ask_last (deleteTag_allows hm hns htag ⟨r, h₁, h₂, h₃.trans href⟩)) fun removed => ?_)
  split
  · trivial
  refine .bind (uses_harborRequest (uses_ask rfl)) fun verified => ?_
  split
  · trivial
  split <;> trivial

end HarborImageCleaner

theorem WorkspaceStore.deleteBuildSnapshot_safe {name : String} (hm : Subject b s.read m)
    (hr : ∃ r, OnRecord s.read r ∧ r.kind = .workspace) :
    (deleteBuildSnapshot S m.appid b name).Safe (custody S b) (fun _ _ => True) s := by
  unfold deleteBuildSnapshot
  dsimp only
  split
  · trivial
  refine still_then (uses_insist (uses_ask rfl)) fun found => ?_
  cases found with
  | false => trivial
  | true =>
      refine Prog.safe_bind.mpr ⟨removeTree_allows hm hr, fun x s' _ _ => ⟨trivial, ?_⟩⟩
      exact (Prog.safe_ofExcept (I := hostApi) x).mpr trivial

end Operations

/-! ### The calls of the runner -/

/-- What the runner may ask for: it names its own build, and what it has read. -/
def Fair (S : HostSettings) (b : BuildId) (read : List BuildResources) : Op → Prop
  | .docker (.remove m r) => Subject b read m ∧ OnRecord read r
  | .docker (.removeBuildTag name repository b' _) => b' = b ∧ ∃ m, Subject b read m ∧
      repository = S.expectedRepository m.appid ∧
      ∃ r, OnRecord read r ∧ r.kind = .registryImage ∧ r.name = name
  | .deleteBuildSnapshot appid b' _ => b' = b ∧ ∃ m, Subject b read m ∧ appid = m.appid ∧
      ∃ r, OnRecord read r ∧ r.kind = .workspace
  | _ => True

/-- The calls that are carried out by a program of their own. -/
def Op.carried : Op → Bool
  | .openDocker | .deleteBuildSnapshot .. | .claimBuildLease .. | .docker _ => true
  | _ => false

/-- The calls of the runner, as it makes them. -/
def asking (S : HostSettings) (b : BuildId) : Contract api Scene where
  does s op r s' := ∃ l, s'.read = s.read ++ HostOp.reads (.repo op) r ++ l ∧
    (op.carried = false → l = [])
  allows s op := Fair S b s.read op
  holds _ := True

theorem carryOut_repo {op : Op} (h : op.carried = false) :
    carryOut S b op = ask (.repo op) := by
  cases op <;> first | rfl | cases h

section Carries
variable {α : Type}

/-- Whatever a run does, it has read no less. -/
theorem grows {Q : Except Exc α → Scene → Prop} {p : D α} (h : p.Safe (custody S b) Q s) :
    p.Safe (custody S b) (fun r s' => Q r s' ∧ s.read <+: s'.read) s := by
  suffices hs : ∀ t : Scene, s.read <+: t.read → p.Safe (custody S b) Q t →
      p.Safe (custody S b) (fun r s' => Q r s' ∧ s.read <+: s'.read) t from
    hs s (List.prefix_refl _) h
  clear h
  induction p with
  | ret a => exact fun t ht h => ⟨h, ht⟩
  | raise e => exact fun t ht h => ⟨h, ht⟩
  | call op k ih =>
      intro t ht h
      refine ⟨h.1, fun r s' hr hd => ⟨trivial, ih r s' ?_ (h.2 r s' hr hd).2⟩⟩
      obtain ⟨-, -, -, hread⟩ := hd
      exact ht.trans (hread ▸ List.prefix_append _ _)

theorem perform_safe {c : DockerCall} {tr : ResourceTracker}
    (h : Fair S b s.read (.docker c)) :
    (perform S tr c).Safe (custody S b) (fun _ _ => True) s := by
  have records {p : D Unit} (hp : p.Uses (Records tr)) :
      p.Safe (custody S b) (fun _ _ => True) s := by
    refine (gentle_safe (hp.mono ?_)).mono fun _ _ _ => trivial
    rintro op (h | ⟨r, -, rfl⟩)
    · exact Looks.gentle h
    · rfl
  have looks {p : D Unit} (hp : p.Uses Looks) : p.Safe (custody S b) (fun _ _ => True) s :=
    records (looks_mono hp fun _ h => h.records)
  cases c with
  | deployBuild appid b' compose => trivial
  | discover m => exact records (DockerBuildCleaner.discover_records S m tr)
  | waitContainersStopped m =>
      exact looks (DockerBuildCleaner.waitContainersStopped_looks S m tr _)
  | assertDirectoryUnused appid b' =>
      exact looks (DockerBuildCleaner.assertDirectoryUnused_looks S tr _)
  | remove m r => exact DockerBuildCleaner.remove_safe h.1 h.2
  | verifyEmpty m => exact records (DockerBuildCleaner.verifyEmpty_records S m tr)
  | removeBuildTag name repository b' digest =>
      obtain ⟨rfl, m, hm, rfl, hr⟩ := h
      exact HarborImageCleaner.removeBuildTag_safe hm hr

/-- Each call of the runner is carried out with care. -/
theorem carries (op : Op) : Prog.Carries (asking S b) (custody S b) op (carryOut S b op) := by
  intro s _ ha
  -- A program that is safe answers the call, once its outcome is a value.
  have answered {γ : Type} {p : D γ} (hp : p.Safe (custody S b) (fun _ _ => True) s) :
      p.Safe (custody S b) (fun _ s' => ∃ l, s'.read = s.read ++ [] ++ l) s := by
    refine (grows hp).mono ?_
    rintro r s' ⟨-, l, hl⟩
    exact ⟨l, by rw [List.append_nil]; exact hl.symm⟩
  by_cases hc : op.carried = false
  · rw [carryOut_repo hc]
    refine ⟨gentle_spares rfl, fun r s' hr hd => ⟨trivial, ?_⟩⟩
    rintro _ ⟨⟩
    obtain ⟨-, -, -, hread⟩ := hd
    exact ⟨hr, [], by rw [List.append_nil]; exact hread, fun _ => rfl⟩
  cases op with
  | openDocker =>
      refine Prog.safe_bind.mpr (Prog.safe_attempt.mpr ((answered ?_).mono ?_))
      · exact (gentle_safe ((DockerBuildCleaner.init_looks S).mono fun _ h => h.gentle)).mono
          fun _ _ _ => trivial
      · rintro r u ⟨l, hl⟩
        refine ⟨gentle_spares rfl, fun _ v _ ⟨_, _, _, hv⟩ => ⟨trivial, ?_⟩⟩
        rintro _ ⟨⟩
        refine ⟨trivial, l, ?_, fun h => absurd h hc⟩
        rw [hv, hl]
        exact List.append_nil _
  | deleteBuildSnapshot appid b' name =>
      obtain ⟨rfl, m, hm, rfl, hr⟩ := ha
      refine Prog.safe_attempt.mpr ((answered ?_).mono ?_)
      · exact WorkspaceStore.deleteBuildSnapshot_safe hm hr
      · rintro r s' ⟨l, hl⟩ _ ⟨⟩
        exact ⟨trivial, l, hl, fun h => absurd h hc⟩
  | claimBuildLease b' owner expiresAt statuses =>
      refine ⟨gentle_spares rfl, fun r t hr ⟨_, _, _, ht⟩ => ⟨trivial, ?_⟩⟩
      refine ⟨gentle_spares rfl, fun self u _ hu => ⟨trivial, ?_⟩⟩
      obtain ⟨rfl, -⟩ := still_does (o := .attributes) rfl hu
      refine ⟨gentle_spares rfl, fun _ v _ ⟨_, _, _, hv⟩ => ⟨trivial, ?_⟩⟩
      rintro _ ⟨⟩
      refine ⟨hr, [], ?_, fun _ => rfl⟩
      rw [hv, ht, List.append_nil]
      exact List.append_nil _
  | docker c =>
      refine Prog.safe_bind.mpr ⟨gentle_spares rfl, fun self t _ ht => ⟨trivial, ?_⟩⟩
      obtain ⟨rfl, -⟩ := still_does (o := .attributes) rfl ht
      rw [Prog.safe_ret]
      refine Prog.safe_bind.mpr (Prog.safe_attempt.mpr ((answered (perform_safe ha)).mono ?_))
      rintro result u ⟨l, hl⟩
      refine ⟨gentle_spares rfl, fun _ v _ ⟨_, _, _, hv⟩ => ⟨trivial, ?_⟩⟩
      rintro _ ⟨⟩
      refine ⟨trivial, l, ?_, fun h => absurd h hc⟩
      rw [hv, hl]
      exact List.append_nil _
  | _ => exact absurd rfl hc

end Carries

/-! ### The runner -/

/-- A call of the runner of `m`, on resources among `K`. -/
def Plain (S : HostSettings) (m : BuildResources) (K : List BuildResource) : Op → Prop
  | .docker (.remove m' r) => m' = m ∧ r ∈ K
  | .docker (.removeBuildTag name repository b' _) => b' = m.buildId ∧
      repository = S.expectedRepository m.appid ∧ ∃ r ∈ K, r.kind = .registryImage ∧ r.name = name
  | .deleteBuildSnapshot appid b' _ => b' = m.buildId ∧ appid = m.appid ∧
      ∃ r ∈ K, r.kind = .workspace
  | _ => True

section Runner
variable {m : BuildResources} {K : List BuildResource} {tr : ResourceTracker} {α β : Type}

theorem plain_safe {p : P α} (h : p.Uses (Plain S m K)) (hm : Subject b s.read m)
    (hK : ∀ r ∈ K, OnRecord s.read r) :
    p.Safe (asking S b) (fun _ s' => s.read <+: s'.read) s := by
  refine Prog.Uses.safe (P := fun s' : Scene => s.read <+: s'.read) h
    (fun t op ht hop => ⟨?_, ?_⟩)
    (fun _ _ => trivial) (List.prefix_refl _)
  · have hm := hm.mono ht
    have hK r hr := (hK r hr).mono ht
    obtain ⟨-, rfl⟩ := id hm
    cases op with
    | docker c =>
        cases c with
        | remove m' r => exact ⟨hop.1 ▸ hm, hK r hop.2⟩
        | removeBuildTag name repository b' digest =>
            obtain ⟨rfl, rfl, r, hr, hk, hn⟩ := hop
            exact ⟨rfl, m, hm, rfl, r, hK r hr, hk, hn⟩
        | _ => trivial
    | deleteBuildSnapshot appid b' name =>
        obtain ⟨rfl, rfl, r, hr, hk⟩ := hop
        exact ⟨rfl, m, hm, rfl, r, hK r hr, hk⟩
    | _ => trivial
  · rintro r s' - ⟨l, hl, -⟩
    rw [hl, List.append_assoc]
    exact ht.trans (List.prefix_append _ _)

theorem Tracks.plain {op : Op} (h : Tracks tr op) : Plain S m K op := by
  cases h <;> trivial

theorem tracks_plain {p : P α} (h : p.Uses (Tracks tr)) : p.Uses (Plain S m K) :=
  h.mono fun _ h => h.plain

theorem docker_plain {c : DockerCall} (h : Plain S m K (.docker c)) :
    (tr.docker c).Uses (Plain S m K) :=
  .call h fun script _ => tracks_plain (follow_tracks tr script)

theorem currentManifest_plain (b : BuildId) : (currentManifest b).Uses (Plain S m K) := by
  refine .call trivial fun m _ => ?_
  cases m <;> trivial

theorem collectBuilderImage_plain (expected : String) (b : BuildId) (target : Option String)
    (item : BuilderImage) :
    (collectBuilderImage expected b target tr item).Uses (Plain S m K) := by
  unfold collectBuilderImage
  dsimp only
  have record (r : RecordArgs) := tracks_plain (S := S) (m := m) (K := K) (record_tracks tr r)
  split
  · trivial
  refine .bind (currentManifest_plain b) fun current => ?_
  split
  on_goal 1 => refine .bind (record _) fun _ => ?_
  all_goals
    split
    · trivial
    split
    · split
      · trivial
      split
      · trivial
      · exact .bind (record _) fun _ => trivial
    · trivial

theorem collectPhase_plain (T : Settings) (st : Cleanup) :
    (collectPhase T m tr st).Uses (Plain S m K) := by
  refine .bind (Prog.Uses.attempt ?_) fun r => ?_
  · refine .call trivial fun build _ => ?_
    split
    · trivial
    split
    · trivial
    refine .bind ?_ fun number => ?_
    · split
      · trivial
      · exact .bind (uses_orRaise (uses_one trivial)) fun _ => trivial
    split
    · trivial
    refine .bind (uses_orRaise (uses_one trivial)) fun report => ?_
    refine .bind (Prog.uses_ofExcept (I := api) _) fun images => ?_
    exact .forEach fun item => collectBuilderImage_plain _ _ _ item
  · cases r with
    | error e => exact .bind (tracks_plain (record_tracks tr _)) fun _ => trivial
    | ok _ =>
        refine .bind (currentManifest_plain _) fun prior => ?_
        refine .bind (.forEach fun r => ?_) fun _ => trivial
        exact tracks_plain (update_tracks tr r _ _)

theorem discover_plain (b : BuildId) : (discover b tr).Uses (Plain S m K) :=
  .bind (currentManifest_plain _) fun _ => docker_plain trivial

theorem discoverPhase_plain (m' : BuildResources) (st : Cleanup) :
    (discoverPhase m' tr st).Uses (Plain S m K) := by
  unfold discoverPhase
  split
  · trivial
  refine .bind (uses_orRaise (uses_one trivial)).attempt fun r => ?_
  split
  · trivial
  refine .bind (discover_plain _).attempt fun r => ?_
  split <;> trivial

theorem stopContainers_plain (m' : BuildResources) (st : Cleanup) :
    (stopContainers m' tr st).Uses (Plain S m K) := by
  refine .bind (Prog.Uses.attempt ?_) fun r => ?_
  · refine .bind (tracks_plain (guard_tracks tr)) fun _ => ?_
    exact .bind (discover_plain _) fun _ => docker_plain trivial
  · split <;> trivial

theorem verifyPhase_plain (m' : BuildResources) (st : Cleanup) :
    (verifyPhase m' tr st).Uses (Plain S m K) := by
  unfold verifyPhase
  split
  · trivial
  refine .bind (Prog.Uses.attempt ?_) fun r => ?_
  · refine .bind (discover_plain _) fun _ => ?_
    exact .bind (currentManifest_plain _) fun _ => docker_plain trivial
  · split <;> trivial

theorem concludePhase_plain (m' : BuildResources) (st : Cleanup) :
    (concludePhase m' tr st).Uses (Plain S m K) := by
  refine .bind (currentManifest_plain _) fun current => ?_
  refine .bind (tracks_plain (guard_tracks tr)) fun _ => ?_
  refine .call trivial fun r _ => ?_
  split
  · trivial
  refine .call trivial fun services _ => .forEach fun record => ?_
  unfold markCleaned
  dsimp only
  split
  · exact .bind (tracks_plain (guard_tracks tr)) fun _ => uses_one trivial
  · trivial

theorem assertQuiescent_plain (b : BuildId) : (assertQuiescent b).Uses (Plain S m K) := by
  refine .call trivial fun build _ => ?_
  split
  · trivial
  split
  · trivial
  refine .call trivial fun m' _ => ?_
  split
  · trivial
  unfold assertJenkinsFinished
  split
  · refine .bind (uses_orRaise (uses_one trivial)) fun execution => ?_
    split <;> trivial
  split
  · trivial
  refine .bind (uses_orRaise (uses_one trivial)) fun queued => ?_
  split
  · refine .bind (uses_orRaise (uses_one trivial)) fun execution => ?_
    split <;> trivial
  · split <;> trivial

/-! ### The removal of a resource -/

theorem removal_plain {r : BuildResource} (hr : r ∈ K) (st : Cleanup) :
    (removal S.services m tr st r).Uses (Plain S m K) := by
  have snapshot (hk : r.kind = .workspace) : Prog.Uses (I := api) (Plain S m K) (do
      tr.guard
      orRaise (call (.deleteBuildSnapshot m.appid m.buildId r.name))
      return (r, ([] : List String))) := by
    refine .bind (tracks_plain (guard_tracks tr)) fun _ => ?_
    exact .bind (uses_orRaise (uses_one ⟨rfl, rfl, r, hr, hk⟩)) fun _ => trivial
  refine .bind (currentManifest_plain _) fun latest => ?_
  dsimp only
  split
  · trivial
  split
  · next hk =>
      split
      · trivial
      split
      · exact .bind (docker_plain trivial) fun _ => snapshot hk
      · exact snapshot hk
  · next hk =>
      split
      · trivial
      next h => exact absurd (hk ▸ h) (by simp)
  · next hk => exact .bind (docker_plain ⟨rfl, rfl, r, hr, hk, rfl⟩) fun _ => trivial
  · split
    · exact .bind (docker_plain ⟨rfl, hr⟩) fun _ => trivial
    · trivial

theorem removeResource_plain {r : BuildResource} (hr : r.managed = true → r ∈ K)
    (st : Cleanup) : (removeResource S.services m tr st r).Uses (Plain S m K) := by
  have update (r : BuildResource) (state : ResourceState) (e : Option String) :=
    tracks_plain (S := S) (m := m) (K := K) (update_tracks tr r state e)
  refine .bind (tracks_plain (guard_tracks tr)) fun _ => ?_
  split
  · exact .bind (update _ _ _) fun _ => trivial
  next hmanaged =>
  refine .bind (removal_plain (hr (Bool.of_not_eq_false hmanaged)) st).attempt fun x => ?_
  split
  · exact .bind (update _ _ _) fun _ => trivial
  refine .bind (update _ _ _).attempt fun y => ?_
  split
  · exact .bind (update _ _ _) fun _ => trivial
  · trivial

/-! ### A run -/

theorem removeKind_safe {st : Cleanup} {kind : ResourceKind} (hm : Subject b s.read m) :
    (removeKind S.services m tr st kind).Safe (asking S b) (fun _ s' => Subject b s'.read m) s := by
  refine Prog.safe_bind.mpr ((plain_safe (K := []) ?_ hm (by simp)).mono ?_)
  · split
    · exact stopContainers_plain m st
    · trivial
  rintro (e | st) t ht
  · exact hm.mono ht
  have hm := hm.mono ht
  refine Prog.safe_bind.mpr (Prog.safe_bind.mpr ⟨trivial, fun x u _ ⟨l, hl, hnil⟩ => ⟨trivial, ?_⟩⟩)
  obtain rfl := hnil rfl
  rw [List.append_nil] at hl
  have hm := hm.mono (hl ▸ List.prefix_append _ _)
  rw [Prog.safe_ret]
  cases x with
  | none => exact hm
  | some current =>
      -- What is removed is read from `current`.
      have hread : current ∈ u.read := hl ▸ List.mem_append_right _ List.mem_cons_self
      dsimp only
      rw [Prog.pure_eq, Prog.safe_ret]
      refine (plain_safe (K := current.resources.filter (·.managed)) ?_ hm ?_).mono
        fun _ _ h => hm.mono h
      · refine .foldEach_mem (fun st r hr => removeResource_plain (fun h => ?_) st) _
        exact List.mem_filter.mpr ⟨(List.mem_filter.mp hr).1, h⟩
      · intro r hr
        exact ⟨(List.mem_filter.mp hr).2, current, hread, (List.mem_filter.mp hr).1⟩

theorem sweep_safe (hm : Subject b s.read m) :
    (sweep S.services m tr).Safe (asking S b) (fun _ s' => Subject b s'.read m) s := by
  have plain {γ : Type} {p : P γ} {t : Scene} (ht : Subject b t.read m)
      (hp : p.Uses (Plain S m [])) : p.Safe (asking S b) (fun _ s' => Subject b s'.read m) t :=
    (plain_safe hp ht (by simp)).mono fun _ _ h => ht.mono h
  refine Prog.safe_bind.mpr ((plain hm (collectPhase_plain _ _)).mono ?_)
  rintro (e | st) t ht
  · exact ht
  refine Prog.safe_bind.mpr ((plain ht (discoverPhase_plain _ _)).mono ?_)
  rintro (e | st) t ht
  · exact ht
  refine Prog.safe_bind.mpr (Prog.Safe.mono (?_ : Prog.Safe _ _ (fun _ s' =>
    Subject b s'.read m) _) ?_)
  · -- Kind after kind, the run stays about `m`.
    generalize removalOrder = kinds
    induction kinds generalizing st t with
    | nil => exact ht
    | cons kind kinds ih =>
        refine Prog.safe_bind.mpr ((removeKind_safe ht).mono ?_)
        rintro (e | st) u hu
        · exact hu
        · exact ih st u hu
  · rintro (e | st) u hu
    · exact hu
    · exact plain hu (verifyPhase_plain _ _)

theorem cleanupUnderLease_safe (hm : Subject b s.read m) :
    (cleanupUnderLease S.services b m (some tr)).Safe (asking S b)
      (fun _ s' => Subject b s'.read m) s := by
  have plain {γ : Type} {p : P γ} {t : Scene} (ht : Subject b t.read m)
      (hp : p.Uses (Plain S m [])) : p.Safe (asking S b) (fun _ s' => Subject b s'.read m) t :=
    (plain_safe hp ht (by simp)).mono fun _ _ h => ht.mono h
  refine Prog.safe_bind.mpr ((plain hm (uses_one (by trivial))).mono ?_)
  rintro (e | _) t ht
  · exact ht
  refine Prog.safe_bind.mpr ((plain ht (assertQuiescent_plain b).attempt).mono ?_)
  rintro (e | (e | _)) t ht
  · exact ht
  · exact plain ht (.call trivial fun _ _ => trivial)
  refine Prog.safe_bind.mpr ((sweep_safe ht).mono ?_)
  rintro (e | st) t ht
  · exact ht
  · exact plain ht (concludePhase_plain _ _)

theorem manifest_plain (T : Settings) (b : BuildId) : (manifest T b).Uses (Plain S m K) := by
  refine .call trivial fun build _ => ?_
  split
  · trivial
  refine .call trivial fun m' _ => ?_
  split
  · trivial
  refine .call trivial fun services _ => .call trivial fun images _ => ?_
  exact uses_orRaise (uses_one trivial)

/-- The first manifest a run reads is that of its build. -/
theorem manifest_safe (T : Settings) (hs : s.read = []) :
    (manifest T b).Safe (asking S b) (fun r s' => ∀ m, r = .ok m → Subject b s'.read m) s := by
  -- A call that reads nothing adds nothing to what is read.
  have nothing {op : Op} {r : op.Ret} {t u : Scene} (ht : t.read = []) (hc : op.carried = false)
      (hr : HostOp.reads (.repo op) r = []) (hd : (asking S b).does t op r u) : u.read = [] := by
    obtain ⟨l, hl, hnil⟩ := hd
    rw [hl, ht, hr, hnil hc]
    rfl
  refine Prog.safe_bind.mpr ⟨trivial, fun build t hbuild hd => ⟨trivial, ?_⟩⟩
  have ht := nothing hs rfl rfl hd
  rw [Prog.safe_ret]
  cases build with
  | none => rintro _ ⟨⟩
  | some build =>
      refine Prog.safe_bind.mpr ⟨trivial, fun m u hm ⟨l, hl, hnil⟩ => ⟨trivial, ?_⟩⟩
      obtain rfl := hnil rfl
      rw [Prog.safe_ret]
      cases m with
      | some m =>
          rintro _ ⟨⟩
          refine ⟨?_, hm m rfl⟩
          rw [hl, ht]
          rfl
      | none =>
          have hu : u.read = [] := by rw [hl, ht]; rfl
          refine Prog.safe_bind.mpr ⟨trivial, fun services v _ hd => ⟨trivial, ?_⟩⟩
          have hv := nothing hu rfl rfl hd
          rw [Prog.safe_ret]
          refine Prog.safe_bind.mpr ⟨trivial, fun images w _ hd => ⟨trivial, ?_⟩⟩
          have hw := nothing hv rfl rfl hd
          rw [Prog.safe_ret]
          refine Prog.safe_bind.mpr ⟨trivial, fun r x hr ⟨l, hl, hnil⟩ => ⟨trivial, ?_⟩⟩
          obtain rfl := hnil rfl
          rw [Prog.safe_ret]
          cases r with
          | error e => rintro _ ⟨⟩
          | ok m =>
              rintro _ ⟨⟩
              refine ⟨?_, (hr m rfl).trans (hbuild build rfl)⟩
              rw [hl, hw]
              rfl

theorem runCleanup_safe (hs : s.read = []) :
    (runCleanup S.services b).Safe (asking S b) (fun _ _ => True) s := by
  refine Prog.safe_bind.mpr ((manifest_safe _ hs).mono ?_)
  rintro (e | m) t hm
  · trivial
  have hm := hm m rfl
  have plain {γ : Type} {p : P γ} {t : Scene} (ht : Subject b t.read m)
      (hp : p.Uses (Plain S m [])) : p.Safe (asking S b) (fun _ s' => Subject b s'.read m) t :=
    (plain_safe hp ht (by simp)).mono fun _ _ h => ht.mono h
  dsimp only
  split
  · refine Prog.safe_bind.mpr ((plain hm (uses_one (by trivial))).mono ?_)
    rintro (e | owner) t hm
    · trivial
    refine Prog.safe_bind.mpr ((plain hm (uses_one (by trivial))).mono ?_)
    rintro (e | now) t hm
    · trivial
    refine Prog.safe_bind.mpr ((plain hm (uses_one (by trivial))).mono ?_)
    rintro (e | claimed) t hm
    · trivial
    cases claimed with
    | none =>
        refine (plain hm ?_).mono fun _ _ _ => trivial
        exact .bind (manifest_plain _ _) fun _ => trivial
    | some _ =>
        refine Prog.safe_bind.mpr (Prog.safe_attempt.mpr ((cleanupUnderLease_safe hm).mono ?_))
        intro r t hm
        refine (plain hm ?_).mono fun _ _ _ => trivial
        exact .call trivial fun _ _ => Prog.uses_ofExcept (I := api) r
  · trivial

end Runner

/-- **A cleanup touches only its own.**  From any host, whatever the calls answer and whatever
others do between them, every call of a run for `b` spares what is not the build's. -/
theorem cleanup_custody (S : HostSettings) (b : BuildId) (h : Host) :
    (BuildCleanupRunner.run S b).Safe (custody S b) (fun _ _ => True) ⟨h, []⟩ := by
  refine ((runCleanup_safe (s := ⟨h, []⟩) rfl).interpret trivial ?_).mono fun _ _ _ => trivial
  exact carries

end Orchestrator
