import Orchestrator.Docker.Playback
import Orchestrator.Docker.Ports

/-!
# Docker — the ports of a deployment

What holds of the ports once a build has been deployed, whatever was occupied before, whatever the
table held, and whatever other builds have reserved meanwhile.

* `Rolled`: where the loop of a rollout stands.
* `Unseen`: before the listings of occupied ports.
* `Deployed`: what the services of a deployment have to do with the ports that were granted.
-/

namespace Orchestrator
open Interleaving

/-! ### The services of a document -/

/-- The parts of a well-formed mapping are well-formed. -/
theorem entriesWellFormed_lookup {entries : Fields} {key : Key} {d : Document}
    (hw : entriesWellFormed entries) (h : entries.lookup key = some d) : d.WellFormed := by
  induction entries with
  | nil => cases h
  | cons e entries ih =>
      obtain ⟨k, x⟩ := e
      rw [List.lookup_cons] at h
      split at h
      · cases h; exact hw.1
      · exact ih hw.2 h

theorem field_wellFormed {entries : Fields} {key : String}
    (hw : (Document.map entries).WellFormed) : (field entries key).WellFormed := by
  unfold field
  cases h : entries.lookup (.str key) with
  | none => trivial
  | some d => exact entriesWellFormed_lookup hw.2 h

namespace DockerSwarmAdapter

/-- The services of a document have different names. -/
theorem composeServices_nodup {compose : Document} {services : Services} (hw : compose.WellFormed)
    (h : composeServices compose = .ok services) : (services.map Prod.fst).Nodup := by
  unfold composeServices at h
  split at h
  · next fields =>
    have hf : (field fields "services").WellFormed := field_wellFormed hw
    split at h
    · cases h
    · next entries _ heq =>
      rw [heq] at hf
      split at h
      · next l hl =>
        cases h
        have hkeys : services.map (fun s => Key.str s.1) = entries.map Prod.fst := by
          rw [← List.forall₂_eq_eq_eq, List.forall₂_map_left_iff, List.forall₂_map_right_iff]
          refine (mapM_some hl).flip.imp fun s e he => ?_
          split at he <;> cases he
          rfl
        have := hkeys ▸ hf.1
        rw [show (fun s : String × Fields => Key.str s.1) = Key.str ∘ Prod.fst from rfl,
          ← List.map_map] at this
        exact this.of_map
      · cases h
    · cases h
  · cases h

/-! ### The loop -/

theorem mem_reservations {target service : String} {b : BuildId} {i : Nat} {l : List PublishedPort}
    {x : PortAllocation} (h : x ∈ reservations target b service i l) :
    ∃ j, ∃ p ∈ l, x.serviceName = allocationOwner service j p := by
  induction l generalizing i with
  | nil => cases h
  | cons p l ih =>
      rcases List.mem_cons.mp h with rfl | h
      · exact ⟨i, p, List.mem_cons_self, rfl⟩
      · obtain ⟨j, q, hq, hx⟩ := ih h
        exact ⟨j, q, List.mem_cons_of_mem _ hq, hx⟩

/-- The name of a service outside, by its name in the document. -/
def outerName (S : SwarmSettings) (appid ns : String) (services : Services) (name : String) :
    String :=
  deploymentServiceName S appid ns name ((services.lookup name).getD [])

section Rolling
variable {S : SwarmSettings} {K : Commission} {R : Rollout} {W : Shared} {s : Allotment}
  {tr : ResourceTracker} {appid ns : String} {services : Services}

/-- The ports of a deployed service are reserved under its name outside. -/
theorem Fits.owner {name : String} {d : ServiceDeployment} (h : Fits S appid ns services name d)
    {target : String} {b : BuildId} {x : PortAllocation}
    (hx : x ∈ reservations target b d.serviceName 0 d.ports) :
    ∃ j p, (p.mode = "ingress" ∨ p.mode = "host") ∧
      x.serviceName = allocationOwner (outerName S appid ns services name) j p := by
  obtain ⟨hname, l, hl, hall⟩ := h
  obtain ⟨j, q, hq, hx⟩ := mem_reservations hx
  obtain ⟨p, hp, n, rfl⟩ := forall₂_mem_right hall hq
  rw [hname] at hx
  exact ⟨j, _, ports_mode (p := p) hl hp, hx⟩

theorem mem_entriesOfService {name : String} {definition : Fields} {e : PortEntry}
    (h : e ∈ entriesOfService S appid ns (name, definition)) :
    e.service = deploymentServiceName S appid ns name definition ∧
      (e.port.mode = "ingress" ∨ e.port.mode = "host") := by
  unfold entriesOfService at h
  split at h
  · next l hl =>
    obtain ⟨hs, -, hp⟩ := mem_entriesFrom h
    exact ⟨hs, ports_mode hl hp⟩
  · cases h

variable (S K R W) in
/-- Where the loop of a rollout stands, after these services. -/
structure Rolled (done : List String) (progress : Progress) (s : Allotment) : Prop where
  assigning : Assigning S K R progress.occupied s
  granted : s.granted = progress.deployed.flatMap fun d =>
    reservations R.target K.build d.serviceName 0 d.ports
  fits : List.Forall₂ (Fits S R.appid R.ns W.services) done progress.deployed

variable {done : List String} {progress : Progress} {name : String}

/-- No entry of a service of another name has been granted anything yet. -/
theorem Rolled.fresh (h : Rolled S K R W done progress s)
    (hname : ∀ m ∈ done, outerName S R.appid R.ns W.services m ≠
      outerName S R.appid R.ns W.services name) :
    ∀ e ∈ entriesOfService S R.appid R.ns (name, (W.services.lookup name).getD []),
      ∀ x ∈ s.granted, x.serviceName ≠ e.owner := by
  intro e he x hx howner
  rw [h.granted] at hx
  obtain ⟨d, hd, hx⟩ := List.mem_flatMap.mp hx
  obtain ⟨m, hm, hfits⟩ := forall₂_mem_right h.fits hd
  obtain ⟨j, p, hp, hx⟩ := hfits.owner hx
  obtain ⟨hs, hmode⟩ := mem_entriesOfService he
  refine hname m hm ?_
  rw [hx] at howner
  rw [(allocationOwner_injective (colon_free hp) (colon_free hmode) howner).1, hs]
  rfl

theorem request_portless {α : Type} {p : D (Except DockerError α)}
    (h : p.Uses fun op : HostOp => op.portless = true) :
    (request p).Uses fun op : HostOp => op.portless = true := uses_request h

/-- **One turn of the loop.** -/
theorem rolloutStep_safe (htr : R.tracker = some tr) (hb : tr.buildId = K.build)
    (he : ∀ e ∈ entriesOfService S R.appid R.ns (name, (W.services.lookup name).getD []),
      e ∈ K.entries)
    (hname : ∀ m ∈ done, outerName S R.appid R.ns W.services m ≠
      outerName S R.appid R.ns W.services name)
    (h : Rolled S K R W done progress s) :
    (rolloutStep S R W progress name).Safe (allotting S K) (fun r s' => ∀ created progress',
      r = .ok (created, .ok progress') → Rolled S K R W (done ++ [name]) progress' s') s := by
  refine Prog.safe_bind.mpr (Prog.safe_attempt.mpr ((deployOne_safe htr hb he h.assigning
    (h.fresh hname)).mono ?_))
  rintro (e | ⟨d, occupied⟩) t hr
  · rintro _ _ ⟨⟩
  obtain ⟨hg, hafter, hfits⟩ := hr _ rfl
  have hrest : (do
      waitForServiceReady S R d.serviceName
      if R.tracker.isSome then
        let image ← request (ask (.docker R.client (.get .images d.image)))
        record R .localImage d.image (some image.id) .present
      else return () : D Unit).Uses fun op : HostOp => op.portless = true := by
    refine .bind (looks_portless (waitForServiceReady_looks S R _)) fun _ => ?_
    split
    · exact .bind (request_portless (uses_ask rfl)) fun _ => record_portless R _ _ _ _ _
    · trivial
  refine Prog.safe_bind.mpr (Prog.safe_attempt.mpr ((assigning_safe hrest hg).mono ?_))
  rintro (e | ⟨⟩) u ⟨hgu, hafter'⟩
  · rintro _ _ ⟨⟩
  rintro _ _ ⟨⟩
  refine ⟨hgu, ?_, List.rel_append h.fits (.cons hfits .nil)⟩
  rw [(hafter.trans hafter').granted, h.granted]
  simp

/-- **The loop.** -/
theorem rolloutServices_safe (htr : R.tracker = some tr) (hb : tr.buildId = K.build)
    {order : List String}
    (he : ∀ name ∈ order, ∀ e ∈ entriesOfService S R.appid R.ns
      (name, (W.services.lookup name).getD []), e ∈ K.entries)
    (hnames : ((done ++ order).map (outerName S R.appid R.ns W.services)).Nodup)
    (h : Rolled S K R W done progress s) :
    (rolloutServices S R W progress order).Safe (allotting S K) (fun r s' => ∀ created progress',
      r = .ok (created, .ok progress') → Rolled S K R W (done ++ order) progress' s') s := by
  induction order generalizing done progress s with
  | nil =>
      rintro _ _ ⟨⟩
      rwa [List.append_nil]
  | cons name order ih =>
      have hname : ∀ m ∈ done, outerName S R.appid R.ns W.services m ≠
          outerName S R.appid R.ns W.services name := by
        rw [List.map_append, List.nodup_append] at hnames
        exact fun m hm => hnames.2.2 _ (List.mem_map_of_mem hm) _ (by simp)
      refine Prog.safe_bind.mpr ((rolloutStep_safe htr hb (he name List.mem_cons_self) hname h).mono
        ?_)
      rintro (e | ⟨created, outcome⟩) t hr
      · rintro _ _ ⟨⟩
      cases outcome with
      | error e => rintro _ _ ⟨⟩
      | ok progress' =>
          have hnames' : ((done ++ [name] ++ order).map
              (outerName S R.appid R.ns W.services)).Nodup := by
            rwa [List.append_assoc]
          have := ih (fun m hm => he m (List.mem_cons_of_mem _ hm)) hnames' (hr _ _ rfl)
          rwa [List.append_assoc] at this

/-! ### What is undone -/

theorem rollbackService_portless (d : ServiceDeployment) :
    (rollbackService S R d).Uses fun op : HostOp => op.portless = true := by
  refine .bind (uses_ask rfl) fun r => ?_
  split
  · trivial
  · trivial
  split
  · trivial
  split
  · trivial
  · exact .bind (uses_ask rfl) fun _ => trivial

theorem rollbackNetwork_portless (network : NetworkHandle) :
    (rollbackNetwork S R network).Uses fun op : HostOp => op.portless = true := by
  refine .tryCatch (.bind (request_portless (uses_ask rfl)) fun o => ?_) fun _ => trivial
  split
  · trivial
  · exact .bind (uses_check _) fun _ => request_portless (uses_ask rfl)

theorem undo_portless (network : NetworkHandle) (created : List ServiceDeployment) :
    (undo S R network created).Uses fun op : HostOp => op.portless = true := by
  unfold undo
  split
  · refine .bind (looks_portless (guard_uses_looks R)) fun _ => ?_
    refine .bind (.foldEach (fun all d => ?_) _ _) fun all => ?_
    · exact .bind (rollbackService_portless d) fun removed => Prog.uses_ret (I := hostApi) _
    split
    · trivial
    refine .bind (looks_portless (networkHasOtherServices_looks R _ _)) fun others => ?_
    split
    · trivial
    · exact rollbackNetwork_portless network
  · trivial

/-- **A rollout.**  Where it succeeds, each entry of each service has been granted a port. -/
theorem rollout_safe (htr : R.tracker = some tr) (hb : tr.buildId = K.build)
    (network : NetworkHandle) {occupied : List OccupiedPort} {order : List String}
    (he : ∀ name ∈ order, ∀ e ∈ entriesOfService S R.appid R.ns
      (name, (W.services.lookup name).getD []), e ∈ K.entries)
    (hnames : (order.map (outerName S R.appid R.ns W.services)).Nodup)
    (hg : Assigning S K R occupied s) (hnone : s.granted = []) :
    (rollout S R W network occupied order).Safe (allotting S K) (fun r s' => ∀ l, r = .ok l →
      Assigned S K s' ∧ List.Forall₂ (Fits S R.appid R.ns W.services) order l ∧
      s'.granted = l.flatMap fun d => reservations R.target K.build d.serviceName 0 d.ports) s := by
  have hstart : Rolled S K R W [] { occupied } s := ⟨hg, hnone, .nil⟩
  have hloop := rolloutServices_safe htr hb he (by rwa [List.nil_append]) hstart
  refine Prog.safe_bind.mpr ((hloop.held hg.assigned).mono ?_)
  rintro (e | ⟨created, outcome⟩) t ⟨hr, hheld⟩
  · rintro _ ⟨⟩
  cases outcome with
  | error e =>
      simp only [Prog.ofExcept, Prog.raise_bind, Prog.attempt, Prog.bind_eq, Prog.ret_bind]
      refine Prog.safe_bind.mpr ((portless_safe (undo_portless network created) hheld).mono ?_)
      rintro (x | ⟨⟩) u - <;> rintro _ ⟨⟩
  | ok progress =>
      obtain ⟨hassigning, hgranted, hfits⟩ := hr _ _ rfl
      simp only [Prog.ofExcept, Prog.ret_bind, reconcile, htr, Option.isSome_some, if_true,
        Prog.attempt, Prog.bind_eq]
      rintro _ ⟨⟩
      exact ⟨hheld, hfits, hgranted⟩

end Rolling

/-! ### Before the rollout -/

section Unseen
variable {S : SwarmSettings} {K : Commission} {R : Rollout} {s s' : Allotment}
  {services containers : Option (List DockerObject)} {tr : ResourceTracker}

variable (K services containers) in
/-- Nothing has been granted yet, and this is what the listings have shown. -/
structure Unseen (s : Allotment) : Prop where
  keyed : s.host.ports.Keyed
  granted : s.granted = []
  services : s.services = services
  containers : s.containers = containers
  own : ∀ a : PortAllocation, a.buildId = K.build → (a ∈ s.host.ports ↔ a ∈ K.table)

theorem Unseen.assigned (h : Unseen K services containers s) : Assigned S K s := by
  refine ⟨h.keyed, .inr h.granted, ?_, ?_, ?_, ?_, ?_⟩
  all_goals rw [h.granted]; simp

/-- The table, after a call that leaves it alone. -/
theorem Unseen.table (h : Unseen K services containers s) {op : HostOp} {r : op.Ret}
    (hop : op.portless = true) (hd : (allotting S K).does s op r s') :
    s'.host.ports.Keyed ∧ s'.granted = [] ∧
      ∀ a : PortAllocation, a.buildId = K.build → (a ∈ s'.host.ports ↔ a ∈ K.table) := by
  obtain ⟨g, g', ⟨hk, hown⟩, hacts, rfl⟩ := hd
  rw [Allotment.note_host, hacts.ports hop, Allotment.note_granted hop]
  exact ⟨hk, h.granted, fun a hb => (hown a hb).trans (h.own a hb)⟩

theorem Unseen.unlisted (h : Unseen K services containers s) {op : HostOp} {r : op.Ret}
    (hop : op.unlisted = true) (hd : (allotting S K).does s op r s') :
    Unseen K services containers s' := by
  obtain ⟨hk, hg, hown⟩ := h.table (HostOp.unlisted_portless hop) hd
  obtain ⟨g, g', -, -, rfl⟩ := hd
  obtain ⟨h₁, h₂⟩ := Allotment.note_unlisted (s := s) (r := r) (h := g') hop
  exact ⟨hk, hg, h₁.trans h.services, h₂.trans h.containers, hown⟩

theorem unseen_safe {α : Type} {p : D α} (hp : p.Uses fun op : HostOp => op.unlisted = true)
    (h : Unseen K services containers s) :
    p.Safe (allotting S K) (fun _ s' => Unseen K services containers s') s :=
  Prog.Uses.safe (I := hostApi) (P := Unseen K services containers) hp
    (fun _ _ ht hop => ⟨allows_portless (HostOp.unlisted_portless hop), fun _ _ _ hd =>
      ht.unlisted hop hd⟩)
    (fun _ ht => ht.assigned) h

/-- The services are listed. -/
theorem listServices_safe (c : Client) (message : Exc → String)
    (h : Unseen K none containers s) :
    (orRefuse (request (ask (.docker c (.list .services .all)))) message).Safe (allotting S K)
      (fun r s' => ∀ l, r = .ok l → Unseen K (some l) containers s') s := by
  refine ⟨allows_portless rfl, fun r t _ hd => ?_⟩
  obtain ⟨hk, hg, hown⟩ := h.table rfl hd
  obtain ⟨g, g', -, -, rfl⟩ := hd
  cases r with
  | error e =>
      have ht : Unseen K none containers (s.note (.docker c (.list .services .all)) (.error e) g') :=
        ⟨hk, hg, h.services, h.containers, hown⟩
      exact ⟨ht.assigned, by rintro _ ⟨⟩⟩
  | ok l =>
      have ht : Unseen K (some l) containers (s.note (.docker c (.list .services .all)) (.ok l) g') :=
        ⟨hk, hg, by simp [Allotment.note, h.services], h.containers, hown⟩
      refine ⟨ht.assigned, ?_⟩
      rintro _ ⟨⟩
      exact ht

/-- The containers are listed. -/
theorem listContainers_safe (c : Client) (message : Exc → String)
    (h : Unseen K services none s) :
    (orRefuse (request (ask (.docker c (.list .containers .all)))) message).Safe (allotting S K)
      (fun r s' => ∀ l, r = .ok l → Unseen K services (some l) s') s := by
  refine ⟨allows_portless rfl, fun r t _ hd => ?_⟩
  obtain ⟨hk, hg, hown⟩ := h.table rfl hd
  obtain ⟨g, g', -, -, rfl⟩ := hd
  cases r with
  | error e =>
      have ht : Unseen K services none (s.note (.docker c (.list .containers .all)) (.error e) g') :=
        ⟨hk, hg, h.services, h.containers, hown⟩
      exact ⟨ht.assigned, by rintro _ ⟨⟩⟩
  | ok l =>
      have ht : Unseen K services (some l) (s.note (.docker c (.list .containers .all)) (.ok l) g') :=
        ⟨hk, hg, h.services, by simp [Allotment.note, h.containers], hown⟩
      refine ⟨ht.assigned, ?_⟩
      rintro _ ⟨⟩
      exact ht

/-- A program of the services lists nothing, and has nothing to do with ports. -/
theorem onHost_unlisted {α : Type} (p : P α) :
    (onHost p).Uses fun op : HostOp => op.unlisted = true := by
  induction p with
  | ret a => trivial
  | raise e => trivial
  | call op k ih => exact ⟨rfl, fun r _ => ih r⟩

theorem guard_unlisted : (guard R).Uses fun op : HostOp => op.unlisted = true := by
  unfold guard
  split
  · exact onHost_unlisted _
  · trivial

theorem record_unlisted (kind : ResourceKind) (name : String) (nativeId : Option String)
    (state : ResourceState) (metadata : Metadata) :
    (record R kind name nativeId state metadata).Uses fun op : HostOp => op.unlisted = true := by
  unfold record
  split
  · trivial
  · exact .bind (onHost_unlisted _) fun _ => .bind (onHost_unlisted _) fun _ => trivial

theorem assertTrackedIdentity_unlisted (kind : ResourceKind) (name : String) (obj : DockerObject) :
    (assertTrackedIdentity S R kind name obj).Uses fun op : HostOp => op.unlisted = true := by
  unfold assertTrackedIdentity
  split
  · trivial
  · exact .bind (onHost_unlisted _) fun _ => .bind (onHost_unlisted _) fun _ => uses_check _

theorem getObject_unlisted (k : Collection) (identifier : String) (message : Exc → String) :
    (getObject R k identifier message).Uses fun op : HostOp => op.unlisted = true := by
  refine .bind (uses_ask rfl) fun r => ?_
  split <;> trivial

theorem prepareBuildVolume_unlisted (e : String × String) :
    (prepareBuildVolume S R e).Uses fun op : HostOp => op.unlisted = true := by
  refine .bind (record_unlisted _ _ _ _ _) fun _ => ?_
  refine .bind (.bind (getObject_unlisted _ _ _) fun found => ?_) fun volume => ?_
  · split
    · trivial
    · exact .bind guard_unlisted fun _ => uses_request (uses_ask rfl)
  refine .bind (uses_check _) fun _ => .bind (assertTrackedIdentity_unlisted _ _ _) fun _ => ?_
  exact .bind (uses_check _) fun token => record_unlisted _ _ _ _ _

theorem unlisted_portless {α : Type} {p : D α}
    (h : p.Uses fun op : HostOp => op.unlisted = true) :
    p.Uses fun op : HostOp => op.portless = true :=
  Prog.Uses.mono (I := hostApi) h fun _ hop => HostOp.unlisted_portless hop

theorem ensureNetwork_portless :
    (ensureNetwork S R).Uses fun op : HostOp => op.portless = true := by
  refine unlisted_portless (.bind (record_unlisted _ _ _ _ _) fun _ => ?_)
  refine .bind (.bind (getObject_unlisted _ _ _) fun found => ?_) fun made => ?_
  · split
    · trivial
    · exact .bind (uses_orRefuse (.bind guard_unlisted fun _ => uses_request (uses_ask rfl)))
        fun network => trivial
  dsimp only
  refine .bind ?_ fun _ => .bind (record_unlisted _ _ _ _ _) fun _ => trivial
  unfold checkReused
  split
  · trivial
  · exact .bind (uses_check _) fun _ => assertTrackedIdentity_unlisted _ _ _

/-- What a port of an object occupies in a build. -/
theorem mem_occupies (htr : R.tracker = some tr) {x : EnginePort} {y : OccupiedPort} :
    y ∈ occupies R x ↔ x.published = some y.1 ∧ x.protocol = y.2.1 ∧ 1 ≤ y.1 ∧ y.1 ≤ 65535 ∧
      (y.2.2 = "ingress" ∨ y.2.2 = "host") := by
  obtain ⟨n, protocol, mode⟩ := y
  unfold occupies
  rw [htr]
  cases x.published with
  | none => simp
  | some m =>
      dsimp only
      split
      · next hm =>
          simp only [Option.isSome_some, if_true, List.mem_cons, Prod.mk.injEq, List.not_mem_nil,
            or_false, Option.some.injEq]
          constructor
          · rintro (⟨rfl, rfl, rfl⟩ | ⟨rfl, rfl, rfl⟩) <;> simp [hm]
          · rintro ⟨rfl, rfl, -, -, h | h⟩ <;> simp [h]
      · next hm =>
          simp only [List.not_mem_nil, Option.some.injEq, false_iff]
          rintro ⟨rfl, -, h₁, h₂, -⟩
          exact hm ⟨h₁, h₂⟩

/-- What the ports of some objects occupy in a build. -/
theorem mem_occupied (htr : R.tracker = some tr) {l : List DockerObject} {y : OccupiedPort} :
    (y ∈ l.flatMap fun o => o.ports.flatMap (occupies R)) ↔
      (∃ o ∈ l, Publishes o y.1 y.2.1) ∧ (y.2.2 = "ingress" ∨ y.2.2 = "host") := by
  simp only [List.mem_flatMap, mem_occupies htr, Publishes]
  constructor
  · rintro ⟨o, ho, x, hx, h₁, h₂, h₃, h₄, h₅⟩
    exact ⟨⟨o, ho, h₃, h₄, x, hx, h₁, h₂⟩, h₅⟩
  · rintro ⟨⟨o, ho, h₃, h₄, x, hx, h₁, h₂⟩, h₅⟩
    exact ⟨o, ho, x, hx, h₁, h₂, h₃, h₄, h₅⟩

/-- The containers the adapter takes for others. -/
def foreignContainers (names : List String) (services containers : List DockerObject) :
    List DockerObject :=
  containers.filter fun o => match o.labels.get swarmServiceLabel with
    | some owner => owner == "" ||
        !((services.filter fun o => names.contains o.name).map (·.id)).contains owner
    | none => true

theorem mem_foreignContainers {names : List String} {services containers : List DockerObject}
    {o : DockerObject} : o ∈ foreignContainers names services containers ↔ o ∈ containers ∧
      ∀ owner, o.labels.get swarmServiceLabel = some owner → owner ≠ "" →
        ∀ x ∈ services, x.name ∈ names → x.id ≠ owner := by
  rw [foreignContainers, List.mem_filter]
  refine and_congr_right fun _ => ?_
  cases o.labels.get swarmServiceLabel with
  | none => simp
  | some owner =>
      by_cases h : owner = ""
      · simp [h]
      · simp [h]

/-- **What is occupied.**  It is what the two listings show. -/
theorem occupiedPublishedPorts_safe (htr : R.tracker = some tr) (h : Unseen K none none s) :
    (occupiedPublishedPorts S R K.names).Safe (allotting S K) (fun r s' => ∀ occupied,
      r = .ok occupied → Assigning S K R occupied s' ∧ s'.granted = []) s := by
  refine Prog.safe_bind.mpr ((listServices_safe _ _ h).mono ?_)
  rintro (e | services) t hr
  · rintro _ ⟨⟩
  have ht := hr services rfl
  simp only [htr, Option.isNone_some, Bool.false_eq_true, if_false]
  refine Prog.safe_bind.mpr ((listContainers_safe _ _ ht).mono ?_)
  rintro (e | containers) u hr
  · rintro _ ⟨⟩
  have hu := hr containers rfl
  rintro _ ⟨⟩
  have hmem (n : Nat) (protocol mode : String) :
      (n, protocol, mode) ∈ ((services.filter fun o => !K.names.contains o.name).flatMap fun o =>
        o.ports.flatMap (occupies R)) ++ (foreignContainers K.names services containers).flatMap
          (fun o => o.ports.flatMap (occupies R)) ↔
      u.Occupied K.names n protocol ∧ (mode = "ingress" ∨ mode = "host") := by
    have hforeign {o : DockerObject} : (o ∈ services.filter fun o => !K.names.contains o.name) ↔
        o ∈ services ∧ o.name ∉ K.names := by simp
    rw [List.mem_append, mem_occupied htr, mem_occupied htr, ← or_and_right, Allotment.Occupied,
      hu.services, hu.containers]
    simp only [hforeign, mem_foreignContainers, Option.getD_some]
    refine and_congr_left fun _ => or_congr ?_ ?_
    · exact exists_congr fun o => and_assoc
    · exact exists_congr fun o => by rw [and_assoc, and_comm (a := Publishes o n protocol)]
  refine ⟨⟨hu.assigned, ⟨by simp [hu.services], by simp [hu.containers]⟩, fun a hb => ?_, ?_, ?_, ?_⟩,
    hu.granted⟩
  · rw [hu.granted, hu.own a hb]
    simp
  · rw [hu.granted]
    simp
  · exact fun n protocol mode hm ho => (hmem n protocol mode).mpr ⟨ho, hm⟩
  · exact fun x hx => .inl ((hmem x.1 x.2.1 x.2.2).mp hx).1

/-! ### A deployment -/

/-- What a deployment of these services of a build is about. -/
def commission (S : SwarmSettings) (appid : String) (b : BuildId) (services : Services)
    (table : PortAllocations) : Commission :=
  let ns := S.host.base.buildNamespace appid b
  { build := b
    names := services.map fun s => deploymentServiceName S appid ns s.1 s.2
    entries := services.flatMap (entriesOfService S appid ns)
    table }

/-- The deployed services are those of the document, each of their entries has a port, and these
ports are the ones that were granted. -/
def Deployed (S : SwarmSettings) (appid : String) (b : BuildId) (services : Services)
    (d : SwarmDeployment) (s : Allotment) : Prop :=
  ∃ target order, order.Perm (services.map Prod.fst) ∧
    List.Forall₂ (Fits S appid (S.host.base.buildNamespace appid b) services) order d.services ∧
    s.granted = d.services.flatMap fun x => reservations target b x.serviceName 0 x.ports

end Unseen

section Deployment
variable {S : SwarmSettings} {appid : String} {tr : ResourceTracker} {services : Services}
  {table : PortAllocations} {s : Allotment}

theorem lookup_mem {services : Services} {name : String} (h : name ∈ services.map Prod.fst) :
    (name, (services.lookup name).getD []) ∈ services := by
  induction services with
  | nil => cases h
  | cons x services ih =>
      obtain ⟨k, definition⟩ := x
      rw [List.lookup_cons]
      by_cases hk : name = k
      · simp [hk]
      · rw [beq_false_of_ne hk]
        refine List.mem_cons_of_mem _ (ih ?_)
        simpa [hk] using h

/-- What has been planned: no two services have the same name outside. -/
theorem plan_ok {ns : String} {inBuild : Bool} {compose : Document} {p : Plan}
    (hw : compose.WellFormed) (hs : composeServices compose = .ok services)
    (h : plan S appid ns inBuild compose = .ok p) :
    p.services = services ∧ p.order.Perm (services.map Prod.fst) ∧
      (p.order.map (outerName S appid ns services)).Nodup := by
  obtain ⟨_, -, h⟩ := bind_ok h
  obtain ⟨l, hl, h⟩ := bind_ok h
  obtain rfl : services = l := Except.ok.inj (hs.symm.trans hl)
  obtain ⟨_, hu, h⟩ := bind_ok h
  obtain ⟨declared, -, h⟩ := bind_ok h
  have hn := composeServices_nodup hw hs
  have key {order : List String} (ho : deploymentOrder services = .ok order) :
      order.Perm (services.map Prod.fst) ∧ (order.map (outerName S appid ns services)).Nodup := by
    have hperm := deploymentOrder_perm hn ho
    refine ⟨hperm, (hperm.map _).nodup_iff.mpr ?_⟩
    have hnames := (refuseShared_ok hu).1
    rw [List.map_map] at hnames ⊢
    rwa [List.map_congr_left fun x hx => ?_]
    have := List.inj_on_of_nodup_map hn (lookup_mem (List.mem_map_of_mem hx)) hx rfl
    exact congrArg (fun y : String × Fields => deploymentServiceName S appid ns y.1 y.2) this
  split at h
  all_goals
    obtain ⟨sources, -, h⟩ := bind_ok h
    obtain ⟨order, ho, h⟩ := bind_ok h
    cases h
    exact ⟨rfl, key ho⟩

/-- **A planned deployment of a build.** -/
theorem deployPlan_safe {p : Plan} (hp : p.services = services)
    (hperm : p.order.Perm (services.map Prod.fst))
    (hnames : (p.order.map
      (outerName S appid (S.host.base.buildNamespace appid tr.buildId) services)).Nodup)
    (h : Unseen (commission S appid tr.buildId services table) none none s) :
    (deployPlan S appid (S.host.base.buildNamespace appid tr.buildId) (some tr) p).Safe
      (allotting S (commission S appid tr.buildId services table)) (fun r s' => ∀ d, r = .ok d →
        Assigned S (commission S appid tr.buildId services table) s' ∧
        Deployed S appid tr.buildId services d s') s := by
  set ns := S.host.base.buildNamespace appid tr.buildId with hns
  set K := commission S appid tr.buildId services table with hK
  have info {c : Client} : (request (ask (.docker c .info))).Uses fun op : HostOp =>
      op.unlisted = true := uses_request (uses_ask rfl)
  have connect {endpoint : Option String} : (request (ask (.connect endpoint))).Uses
      fun op : HostOp => op.unlisted = true := uses_request (uses_ask rfl)
  refine Prog.safe_bind.mpr ((unseen_safe connect h).mono ?_)
  rintro (e | client) s₁ h₁
  · rintro _ ⟨⟩
  simp only [Prog.bind_eq]
  rw [Prog.bind_assoc]
  refine Prog.safe_bind.mpr ((unseen_safe info h₁).mono ?_)
  rintro (e | info) s₂ h₂
  · rintro _ ⟨⟩
  dsimp only
  split
  · rintro _ ⟨⟩
  set R : Rollout := ⟨appid, ns, client, some tr, _, _⟩
  have htr : R.tracker = some tr := rfl
  rw [Prog.bind_assoc]
  refine Prog.safe_bind.mpr ((unseen_safe (.forEach fun e => prepareBuildVolume_unlisted e)
    h₂).mono ?_)
  rintro (e | ⟨⟩) s₃ h₃
  · rintro _ ⟨⟩
  rw [Prog.pure_eq, Prog.ret_bind, hp]
  have hoccupied := occupiedPublishedPorts_safe (S := S) htr h₃
  refine Prog.safe_bind.mpr (hoccupied.mono ?_)
  rintro (e | occupied) s₄ h₄
  · rintro _ ⟨⟩
  obtain ⟨hg, hnone⟩ := h₄ occupied rfl
  refine Prog.safe_bind.mpr ((assigning_safe ensureNetwork_portless hg).mono ?_)
  rintro (e | network) s₅ ⟨hg, hafter⟩
  · rintro _ ⟨⟩
  -- Up to here no port is granted.
  have hnone : s₅.granted = [] := by rw [hafter.granted, hnone, List.append_nil]
  have he : ∀ name ∈ p.order, ∀ e ∈ entriesOfService S appid ns
      (name, (services.lookup name).getD []), e ∈ K.entries := fun name hname e h =>
    List.mem_flatMap.mpr ⟨_, lookup_mem (hperm.mem_iff.mp hname), h⟩
  have hrollout := rollout_safe (W := ⟨services, network.target, p.sources, p.sharedAliases⟩)
    htr rfl network he hnames hg hnone
  refine Prog.safe_bind.mpr (hrollout.mono ?_)
  rintro (e | deployed) s₆ hr
  · rintro _ ⟨⟩
  obtain ⟨ha, hfits, hgranted⟩ := hr deployed rfl
  rintro _ ⟨⟩
  exact ⟨ha, R.target, p.order, hperm, hfits, hgranted⟩

/-- **A deployment of a build.**  The ports it ends with are assigned as they should be. -/
theorem deployBuild_safe {compose : Document} (hw : compose.WellFormed)
    (hs : composeServices compose = .ok services)
    (h : Unseen (commission S appid tr.buildId services table) none none s) :
    (deployBuild S appid tr compose).Safe
      (allotting S (commission S appid tr.buildId services table)) (fun r s' => ∀ d, r = .ok d →
        Assigned S (commission S appid tr.buildId services table) s' ∧
        Deployed S appid tr.buildId services d s') s := by
  unfold deployBuild
  rw [Prog.bind_eq]
  cases hp : planBuild S appid tr.buildId compose with
  | error e => rintro _ ⟨⟩
  | ok p =>
      obtain ⟨_, -, hp⟩ := bind_ok hp
      obtain ⟨_, -, hp⟩ := bind_ok hp
      obtain ⟨_, -, hp⟩ := bind_ok hp
      obtain ⟨_, -, hp⟩ := bind_ok hp
      obtain ⟨h₁, h₂, h₃⟩ := plan_ok hw hs hp
      exact deployPlan_safe h₁ h₂ h₃ h

end Deployment

end DockerSwarmAdapter

/-! ### Two builds -/

namespace PortAllocations
variable {l : PortAllocations} {a x : PortAllocation}

theorem Keyed.releasePort (h : l.Keyed) {target protocol : String} {port : Nat} {b : BuildId} :
    Keyed (l.releasePort target protocol port b).2 := by
  unfold PortAllocations.releasePort
  dsimp only
  split
  · exact h
  split
  · exact h
  · exact h.sublist (List.filter_sublist.map _)

/-- What is granted of reservations that are asked for in this order, and the table afterwards. -/
def reserveEach (l : PortAllocations) : List PortAllocation → PortAllocations × PortAllocations
  | [] => ([], l)
  | a :: rest =>
      let (granted, l) := l.reservePort a
      let (others, l) := reserveEach l rest
      (if granted then a :: others else others, l)

theorem reserveEach_keyed (h : l.Keyed) (asked : List PortAllocation) :
    (l.reserveEach asked).2.Keyed ∧ (∀ a ∈ l, a ∈ (l.reserveEach asked).2) ∧
      ∀ a ∈ (l.reserveEach asked).1, a ∈ (l.reserveEach asked).2 := by
  induction asked generalizing l with
  | nil => exact ⟨h, fun _ ha => ha, by simp [reserveEach]⟩
  | cons a asked ih =>
      obtain ⟨h₁, h₂, h₃⟩ := ih h.reservePort (l := (l.reservePort a).2)
      refine ⟨h₁, fun x hx => h₂ x (mem_reservePort.mpr (.inl hx)), fun x hx => ?_⟩
      simp only [reserveEach] at hx ⊢
      split at hx
      · next hg =>
          rcases List.mem_cons.mp hx with rfl | hx
          · exact h₂ x (mem_of_granted hg)
          · exact h₃ x hx
      · exact h₃ x hx

/-- A port is not granted twice, but to the same entry of the same build. -/
theorem Keyed.reserveEach_eq (h : l.Keyed) {asked : List PortAllocation}
    (ha : a ∈ (l.reserveEach asked).1) (hx : x ∈ (l.reserveEach asked).1)
    (hi : a.identity = x.identity) : a = x :=
  have ⟨h₁, _, h₃⟩ := reserveEach_keyed h asked
  h₁.eq (h₃ a ha) (h₃ x hx) hi

end PortAllocations

/-! ### Ports are allocated once -/

open DockerSwarmAdapter

/-- **Port allocation.**  Whatever is occupied, whatever the table holds, and whatever others do
to it that leave the reservations of the build alone: a deployment of a build that succeeds has
one port for each entry, assigned as it should be; and of reservations that builds ask for in any
order, no port is granted to two of them. -/
theorem port_allocation (S : SwarmSettings) (appid : String) (tr : ResourceTracker)
    (compose : Document) (services : Services) (h : Host) (hw : compose.WellFormed)
    (hs : composeServices compose = .ok services) (hk : h.ports.Keyed) :
    (deployBuild S appid tr compose).Safe
      (allotting S (commission S appid tr.buildId services h.ports)) (fun r s' => ∀ d, r = .ok d →
        Assigned S (commission S appid tr.buildId services h.ports) s' ∧
        Deployed S appid tr.buildId services d s') { host := h } ∧
    ∀ asked : List PortAllocation, ∀ a ∈ (h.ports.reserveEach asked).1,
      ∀ x ∈ (h.ports.reserveEach asked).1, a.target = x.target → a.port = x.port →
        a.protocol = x.protocol → a.buildId = x.buildId := by
  refine ⟨deployBuild_safe hw hs ⟨hk, rfl, rfl, rfl, fun _ _ => Iff.rfl⟩, ?_⟩
  intro asked a ha x hx ht hp hq
  refine congrArg PortAllocation.buildId (hk.reserveEach_eq ha hx ?_)
  simp only [PortAllocation.identity, ht, hp, hq]

namespace Sample

def tracker : ResourceTracker := ⟨build, none⟩

/-- The one service of the sample document. -/
def documentServices : Services :=
  [("web", [(.str "image", .str "app:2x0-web"), (.str "ports", .list [.str "80"])])]

theorem document_wellFormed : document.WellFormed := by
  simp [document, Document.WellFormed, entriesWellFormed, documentsWellFormed]

theorem document_services : composeServices document = .ok documentServices := rfl

/-- Two services with two ports each, over two protocols; two of the ports are fixed. -/
def storefront : Document := .map [(.str "services", .map [
  (.str "web", .map [(.str "image", .str "app:2x0-web"),
    (.str "ports", .list [.str "80", .str "30002:443"])]),
  (.str "dns", .map [(.str "image", .str "app:2x0-dns"),
    (.str "ports", .list [.str "53/udp", .str "30003:53/tcp"])])])]

def storefrontServices : Services :=
  [("web", [(.str "image", .str "app:2x0-web"),
    (.str "ports", .list [.str "80", .str "30002:443"])]),
   ("dns", [(.str "image", .str "app:2x0-dns"),
    (.str "ports", .list [.str "53/udp", .str "30003:53/tcp"])])]

/-- Another build has two ports of the range, and this one still has one. -/
def crowded : Host :=
  { host with ports := [⟨"docker:swarm", "tcp", 30000, ⟨9, 0⟩, "build-v1-other-web:0:80:ingress"⟩,
    ⟨"docker:swarm", "udp", 30001, ⟨9, 0⟩, "build-v1-other-dns:0:53:ingress"⟩,
    ⟨"docker:swarm", "tcp", 30005, build,
      "build-v1-49879edde1d5dde1a4e703d16a024474-web:0:80:ingress"⟩] }

theorem storefront_wellFormed : storefront.WellFormed := by
  simp [storefront, Document.WellFormed, entriesWellFormed, documentsWellFormed]

theorem crowded_keyed : crowded.ports.Keyed := by
  unfold PortAllocations.Keyed
  decide

theorem document_port_allocation :
    (deployBuild swarm "app" tracker storefront).Safe
      (allotting swarm (commission swarm "app" build storefrontServices crowded.ports))
        (fun r s' => ∀ d, r = .ok d →
          Assigned swarm (commission swarm "app" build storefrontServices crowded.ports) s' ∧
          Deployed swarm "app" build storefrontServices d s') { host := crowded } ∧
    ∀ asked : List PortAllocation, ∀ a ∈ (crowded.ports.reserveEach asked).1,
      ∀ x ∈ (crowded.ports.reserveEach asked).1, a.target = x.target → a.port = x.port →
        a.protocol = x.protocol → a.buildId = x.buildId :=
  port_allocation swarm "app" tracker storefront storefrontServices crowded storefront_wellFormed
    rfl crowded_keyed

/-- The table holds a port for the one entry of the sample document, which asks for none. -/
def returning : Host :=
  { host with ports := [⟨"docker:swarm", "tcp", 5000, build,
      "build-v1-49879edde1d5dde1a4e703d16a024474-web:0:80:ingress"⟩] }

/-- Others leave the table alone, and nothing fails. -/
def allot (s : Allotment) (op : HostOp) : Option (op.Ret × Allotment) :=
  (s.host.answer op).map fun x => (x.1, s.note op x.1 x.2)

theorem allot_does {K : Commission} {s t : Allotment} {op : HostOp} {r : op.Ret}
    (hs : s.host.world.Keyed ∧ s.host.ports.Keyed) (h : allot s op = some (r, t)) :
    op.Sane r ∧ (allotting swarm K).does s op r t ∧ t.host.world.Keyed ∧ t.host.ports.Keyed := by
  obtain ⟨⟨x, g⟩, hx, h⟩ := Option.map_eq_some_iff.mp h
  cases h
  have hacts := Host.acts_of_answer hx
  obtain ⟨hsane, hkeyed⟩ := Host.sane_of_answer hs.1 hx
  refine ⟨hsane, ⟨s.host, g, ⟨hs.2, fun _ _ => Iff.rfl⟩, hacts, rfl⟩, ?_⟩
  rw [Allotment.note_host]
  refine ⟨hkeyed, ?_⟩
  by_cases hop : op.portless = true
  · rw [hacts.ports hop]
    exact hs.2
  · cases op with
    | reservePort a => cases hx; exact hs.2.reservePort
    | releasePort target protocol port b =>
        cases hx
        exact hs.2.releasePort
    | _ => exact absurd rfl hop

/-- The entry keeps the port that was reserved for it, which is out of the range. -/
theorem placed_elsewhere : ¬ ∀ (S : SwarmSettings) (appid : String) (tr : ResourceTracker)
    (compose : Document) (services : Services) (h : Host), compose.WellFormed →
    composeServices compose = .ok services → h.ports.Keyed →
    (deployBuild S appid tr compose).Safe
      (allotting S (commission S appid tr.buildId services h.ports)) (fun r s' => ∀ d, r = .ok d →
        ∀ a ∈ s'.granted, ∃ e ∈ (commission S appid tr.buildId services h.ports).entries,
          e.owner = a.serviceName ∧ (e.port.publishedPort = some a.port ∨
            a.port ∈ publishedPortRange S)) { host := h } := by
  intro hall
  have hsafe := hall swarm "app" tracker document documentServices returning document_wellFormed
    document_services (List.nodup_singleton _)
  have hplay : ((deployBuild swarm "app" tracker document).play allot { host := returning }).map
      (fun x => (x.1.isOk, x.2.granted)) = some (true, returning.ports) := by decide +kernel
  obtain ⟨⟨r, t⟩, hplay, h⟩ := Option.map_eq_some_iff.mp hplay
  have hkeyed : returning.world.Keyed ∧ returning.ports.Keyed :=
    ⟨host_keyed, List.nodup_singleton _⟩
  have hout := hsafe.outcome (Prog.leads_of_play
    (P := fun s : Allotment => s.host.world.Keyed ∧ s.host.ports.Keyed)
    (fun _ _ _ _ => allot_does) hkeyed hplay)
  simp only [Prod.mk.injEq] at h
  cases r with
  | error e => exact Bool.noConfusion h.1
  | ok d =>
      have := hout d rfl
      rw [h.2] at this
      revert this
      decide +kernel

end Sample

end Orchestrator
