import Orchestrator.Docker.RolloutFootprints

/-!
# Docker — port allocation

A deployment of a build asks for a port for every entry of its `ports`.
-/

namespace Orchestrator
open Interleaving

/-! ### Owners -/

theorem colon_not_mem_toString (n : Nat) : ':' ∉ (toString n).toList := by
  intro h
  rw [Nat.toString_eq_repr, Nat.toList_repr] at h
  exact absurd (Nat.isDigit_of_mem_toDigits (by decide) (by decide) h) (by decide)

namespace DockerSwarmAdapter

theorem toList_allocationOwner (service : String) (index : Nat) (port : PublishedPort) :
    (allocationOwner service index port).toList =
      ((service.toList ++ ':' :: (toString index).toList) ++ ':' ::
        (toString port.targetPort).toList) ++ ':' :: port.mode.toList := by
  simp [allocationOwner, join, List.intercalate]

/-- The owner says whose entry it is, and which. -/
theorem allocationOwner_injective {service service' : String} {index index' : Nat}
    {port port' : PublishedPort} (hm : ':' ∉ port.mode.toList) (hm' : ':' ∉ port'.mode.toList)
    (h : allocationOwner service index port = allocationOwner service' index' port') :
    service = service' ∧ index = index' := by
  have h := congrArg String.toList h
  rw [toList_allocationOwner, toList_allocationOwner] at h
  obtain ⟨h, -⟩ := last_cut_unique h hm hm'
  obtain ⟨h, -⟩ := last_cut_unique h (colon_not_mem_toString _) (colon_not_mem_toString _)
  obtain ⟨hs, hi⟩ := last_cut_unique h (colon_not_mem_toString _) (colon_not_mem_toString _)
  exact ⟨String.toList_inj.mp hs, toString_injective (String.toList_inj.mp hi)⟩

theorem shortPort_mode {raw : String} {p : PublishedPort} (h : shortPort raw = .ok p) :
    p.mode = "ingress" := by
  unfold shortPort at h
  dsimp only at h
  split at h
  · cases h
  split at h
  · cases h
  split at h
  · obtain ⟨n, -, h⟩ := bind_ok h
    cases h
    rfl
  · obtain ⟨m, -, h⟩ := bind_ok h
    obtain ⟨n, -, h⟩ := bind_ok h
    cases h
    rfl
  · cases h

theorem longPort_mode {raw : Fields} {p : PublishedPort} (h : longPort raw = .ok p) :
    p.mode = "ingress" ∨ p.mode = "host" := by
  obtain ⟨target, -, h⟩ := bind_ok h
  obtain ⟨published, -, h⟩ := bind_ok h
  split at h
  · split at h
    · cases h
    next hmode =>
    split at h
    · cases h
    · cases h
      have := (not_or.mp hmode).2
      simp only [List.contains_cons, List.contains_nil, Bool.or_false, Bool.or_eq_false_iff,
        beq_eq_false_iff_ne, not_and_or, not_not] at this
      exact this
  · cases h

/-- The modes a port can be published in. -/
theorem ports_mode {raw : Document} {l : List PublishedPort} (h : ports raw = .ok l)
    {p : PublishedPort} (hp : p ∈ l) : p.mode = "ingress" ∨ p.mode = "host" := by
  unfold ports at h
  split at h
  · cases h; cases hp
  · obtain ⟨item, -, hi⟩ := mapM_mem h hp
    split at hi
    · exact .inl (shortPort_mode hi)
    · exact longPort_mode hi
    · cases hi
  · cases h

/-- Names that are not refused are all different, and none of those seen before. -/
theorem refuseShared_ok {message : String → String → String → String}
    {seen l : List (String × String)} (h : refuseShared message seen l = .ok ()) :
    (l.map Prod.snd).Nodup ∧ ∀ e ∈ l, seen.lookup e.2 = none := by
  induction l generalizing seen with
  | nil => exact ⟨List.nodup_nil, by simp⟩
  | cons e l ih =>
      rw [refuseShared] at h
      split at h
      · cases h
      next hnone =>
      obtain ⟨hn, hseen⟩ := ih h
      have hne : ∀ x ∈ l, x.2 ≠ e.2 := by
        intro x hx heq
        have := hseen x hx
        rw [heq, List.lookup_cons_self] at this
        cases this
      refine ⟨?_, fun x hx => ?_⟩
      · rw [List.map_cons, List.nodup_cons]
        refine ⟨fun hm => ?_, hn⟩
        obtain ⟨x, hx, heq⟩ := List.mem_map.mp hm
        exact hne x hx heq
      · rcases List.mem_cons.mp hx with rfl | hx
        · exact hnone
        · have := hseen x hx
          rwa [List.lookup_cons, beq_false_of_ne (hne x hx)] at this

end DockerSwarmAdapter

/-! ### Entries -/

/-- An entry of the `ports` of a service. -/
structure PortEntry where
  service : String
  index : Nat
  port : PublishedPort
  deriving DecidableEq, Repr

namespace PortEntry

/-- The owner of its reservation. -/
def owner (e : PortEntry) : String :=
  DockerSwarmAdapter.allocationOwner e.service e.index e.port

end PortEntry

/-- The entries of a list of ports, from the entry number `i` on. -/
def entriesFrom (service : String) : Nat → List PublishedPort → List PortEntry
  | _, [] => []
  | i, p :: l => ⟨service, i, p⟩ :: entriesFrom service (i + 1) l

/-! ### The table -/

namespace PortAllocation

/-- What the table is keyed by. -/
def identity (a : PortAllocation) : String × String × Nat := (a.target, a.protocol, a.port)

/-- Both are reserved for the same entry of the same build. -/
def sameEntry (a x : PortAllocation) : Prop :=
  x.target = a.target ∧ x.protocol = a.protocol ∧ x.buildId = a.buildId ∧
    x.serviceName = a.serviceName

theorem samePort_iff {a x : PortAllocation} : a.samePort x = true ↔ x.identity = a.identity := by
  simp only [samePort, identity, Bool.and_eq_true, beq_iff_eq, Prod.mk.injEq, and_assoc]

end PortAllocation

namespace PortAllocations

/-- No port is in the table twice. -/
def Keyed (l : PortAllocations) : Prop := (l.map PortAllocation.identity).Nodup

variable {l : PortAllocations} {a x : PortAllocation}

theorem Keyed.eq (h : l.Keyed) (ha : a ∈ l) (hx : x ∈ l) (hi : a.identity = x.identity) : a = x :=
  List.inj_on_of_nodup_map h ha hx hi

theorem mem_reservePort : x ∈ (l.reservePort a).2 ↔
    x ∈ l ∨ x = a ∧ l.find? a.samePort = none := by
  unfold reservePort
  cases h : l.find? a.samePort with
  | none => simp
  | some previous => simp

theorem Keyed.reservePort (h : l.Keyed) : Keyed (l.reservePort a).2 := by
  unfold PortAllocations.reservePort
  cases hf : l.find? a.samePort with
  | some previous => exact h
  | none =>
      unfold Keyed
      rw [List.map_append, List.nodup_append]
      refine ⟨h, List.nodup_singleton _, fun i hi j hj => ?_⟩
      obtain ⟨x, hx, rfl⟩ := List.mem_map.mp hi
      obtain rfl : j = a.identity := List.mem_singleton.mp hj
      exact fun hia => List.find?_eq_none.mp hf x hx (PortAllocation.samePort_iff.mpr hia)

/-- What is granted is in the table. -/
theorem mem_of_granted (h : (l.reservePort a).1 = true) : a ∈ (l.reservePort a).2 := by
  rw [mem_reservePort]
  cases hf : l.find? a.samePort with
  | none => exact .inr ⟨rfl, rfl⟩
  | some previous =>
      have hp := List.find?_some hf
      have hm := List.mem_of_find?_eq_some hf
      simp only [PortAllocations.reservePort, hf, Bool.and_eq_true, beq_iff_eq] at h
      have hi := PortAllocation.samePort_iff.mp hp
      obtain rfl : previous = a := by
        cases previous
        cases a
        simp_all [PortAllocation.identity]
      exact .inl hm

theorem refused (h : (l.reservePort a).1 = false) : (l.reservePort a).2 = l := by
  unfold PortAllocations.reservePort at h ⊢
  cases hf : l.find? a.samePort with
  | some previous => rfl
  | none => rw [hf] at h; cases h

/-- A reservation is granted again. -/
theorem Keyed.granted (h : l.Keyed) (ha : a ∈ l) : (l.reservePort a).1 = true := by
  unfold PortAllocations.reservePort
  cases hf : l.find? a.samePort with
  | none => rfl
  | some previous =>
      obtain rfl := h.eq (List.mem_of_find?_eq_some hf) ha
        (PortAllocation.samePort_iff.mp (List.find?_some hf))
      simp

end PortAllocations

/-! ### What is watched -/

/-- A host, what the listings of a deployment have shown, and what it was granted. -/
structure Allotment where
  host : Host
  services : Option (List DockerObject) := none
  containers : Option (List DockerObject) := none
  granted : PortAllocations := []

/-- A port of the object is published under this number. -/
def Publishes (o : DockerObject) (n : Nat) (protocol : String) : Prop :=
  1 ≤ n ∧ n ≤ 65535 ∧ ∃ x ∈ o.ports, x.published = some n ∧ x.protocol = protocol

namespace Allotment

/-- What a call adds to it.  Of the listings, the first counts. -/
def note (s : Allotment) : (op : HostOp) → op.Ret → Host → Allotment
  | .docker _ (.list .services .all), .ok l, h =>
      { s with host := h, services := some (s.services.getD l) }
  | .docker _ (.list .containers .all), .ok l, h =>
      { s with host := h, containers := some (s.containers.getD l) }
  | .reservePort a, .ok true, h => { s with host := h, granted := s.granted ++ [a] }
  | _, _, h => { s with host := h }

/-- A service of another name publishes the port, or a container that belongs to none of the
services of these names. -/
def Occupied (names : List String) (s : Allotment) (n : Nat) (protocol : String) : Prop :=
  (∃ o ∈ s.services.getD [], o.name ∉ names ∧ Publishes o n protocol) ∨
  ∃ o ∈ s.containers.getD [], Publishes o n protocol ∧
    ∀ owner, o.labels.get swarmServiceLabel = some owner → owner ≠ "" →
      ∀ x ∈ s.services.getD [], x.name ∈ names → x.id ≠ owner

end Allotment

/-- What a deployment is about: its build, the names of its services, their entries, and the
table it starts from. -/
structure Commission where
  build : BuildId
  names : List String
  entries : List PortEntry
  table : PortAllocations

section Assignment
variable (S : SwarmSettings) (K : Commission)

/-- Others leave the reservations of the build alone. -/
def Others (b : BuildId) (h h' : Host) : Prop :=
  h'.ports.Keyed ∧ ∀ a : PortAllocation, a.buildId = b → (a ∈ h'.ports ↔ a ∈ h.ports)

/-- The ports that have been granted are assigned as they should be. -/
structure Assigned (s : Allotment) : Prop where
  keyed : s.host.ports.Keyed
  shown : s.services.isSome ∧ s.containers.isSome ∨ s.granted = []
  reserved : ∀ a ∈ s.granted, a.buildId = K.build ∧ a ∈ s.host.ports
  distinct : s.granted.Pairwise fun a x => ¬ (a.port = x.port ∧ a.protocol = x.protocol)
  free : ∀ a ∈ s.granted, ¬ s.Occupied K.names a.port a.protocol
  /-- The port is the one the entry asks for, or in the range, or was reserved for it before. -/
  placed : ∀ a ∈ s.granted, ∃ e ∈ K.entries, e.owner = a.serviceName ∧
    e.port.protocol = a.protocol ∧ (e.port.publishedPort = some a.port ∨
      a.port ∈ DockerSwarmAdapter.publishedPortRange S ∨ a ∈ K.table)
  /-- The one port that was reserved for it before, where that is not occupied. -/
  again : ∀ a ∈ s.granted, ∀ x ∈ K.table, a.sameEntry x →
    (∀ y ∈ K.table, a.sameEntry y → y = x) → ¬ s.Occupied K.names x.port x.protocol → a = x

/-- Calls of a deployment: it reserves ports, and releases none. -/
def allotting : Contract hostApi Allotment where
  does s op r s' := ∃ h h', Others K.build s.host h ∧ h.Acts op r h' ∧ s' = s.note op r h'
  allows _ op := ∀ target protocol port b, op ≠ .releasePort target protocol port b
  holds := Assigned S K

/-! ### What leaves the assignment alone -/

/-- The call does not change the table. -/
def HostOp.portless : HostOp → Bool
  | .reservePort _ | .releasePort .. => false
  | _ => true

/-- Nor does it list anything. -/
def HostOp.unlisted : HostOp → Bool
  | .docker _ (.list ..) => false
  | op => op.portless

variable {S K} {s s' : Allotment} {op : HostOp} {r : op.Ret} {h h' : Host}

theorem HostOp.unlisted_portless (hop : op.unlisted = true) : op.portless = true := by
  unfold unlisted at hop
  split at hop
  · cases hop
  · exact hop

theorem Host.Acts.ports (hop : op.portless = true) (ha : h.Acts op r h') : h'.ports = h.ports := by
  cases op with
  | reservePort a => cases hop
  | releasePort target protocol port b => cases hop
  | repo op => obtain ⟨w, -, rfl⟩ := ha; rfl
  | docker c op => obtain ⟨g, -, rfl⟩ := ha; rfl
  | connect e => exact congrArg Host.ports ha
  | listBuildPorts b => exact congrArg Host.ports ha.1
  | getArtifact n t => exact congrArg Host.ports ha.1
  | deleteTag n d t => rcases ha with rfl | ⟨-, rfl⟩ <;> rfl
  | inspectDirectory p => exact congrArg Host.ports ha.1
  | removeTree p => rcases ha with rfl | ⟨-, rfl⟩ <;> rfl
  | attributes => exact congrArg Host.ports ha.1
  | assign state => rw [show h' = _ from ha]
  | deadlinePassed => exact congrArg Host.ports ha
  | outcome step failed => exact congrArg Host.ports ha

namespace Allotment

@[simp] theorem note_host : (s.note op r h).host = h := by unfold note; split <;> rfl

theorem note_granted (hop : op.portless = true) : (s.note op r h).granted = s.granted := by
  unfold note
  split
  · rfl
  · rfl
  · cases hop
  · rfl

/-- The first listings are not replaced. -/
theorem note_shown (hs : s.services.isSome) (hc : s.containers.isSome) :
    (s.note op r h).services = s.services ∧ (s.note op r h).containers = s.containers := by
  obtain ⟨l, hl⟩ := Option.isSome_iff_exists.mp hs
  obtain ⟨l', hl'⟩ := Option.isSome_iff_exists.mp hc
  unfold note
  split <;> simp [hl, hl']

theorem note_unlisted (hop : op.unlisted = true) :
    (s.note op r h).services = s.services ∧ (s.note op r h).containers = s.containers := by
  unfold note
  split
  · cases hop
  · cases hop
  · cases hop
  · exact ⟨rfl, rfl⟩

theorem occupied_congr {names : List String} (hs : s'.services = s.services)
    (hc : s'.containers = s.containers) : s'.Occupied names = s.Occupied names := by
  funext n protocol
  unfold Occupied
  rw [hs, hc]

end Allotment

/-- Between `s` and `s'`, the deployment was granted `l`, and was shown nothing new. -/
structure After (s : Allotment) (l : PortAllocations) (s' : Allotment) : Prop where
  services : s'.services = s.services
  containers : s'.containers = s.containers
  granted : s'.granted = s.granted ++ l

namespace After
variable {t : Allotment} {l l' : PortAllocations}

theorem refl (s : Allotment) : After s [] s := ⟨rfl, rfl, (List.append_nil _).symm⟩

theorem trans (h : After s l s') (h' : After s' l' t) : After s (l ++ l') t :=
  ⟨h'.services.trans h.services, h'.containers.trans h.containers,
    by rw [h'.granted, h.granted, List.append_assoc]⟩

theorem occupied {names : List String} (h : After s l s') :
    s'.Occupied names = s.Occupied names :=
  Allotment.occupied_congr h.services h.containers

end After

/-- What has been assigned stays so, as long as the reservations of the build are kept. -/
theorem Assigned.carry (ha : Assigned S K s) (hg : s'.granted = s.granted)
    (hk : s'.host.ports.Keyed)
    (hr : ∀ a : PortAllocation, a.buildId = K.build → a ∈ s.host.ports → a ∈ s'.host.ports)
    (hs : s.services.isSome → s.containers.isSome →
      s'.services = s.services ∧ s'.containers = s.containers) : Assigned S K s' := by
  rcases ha.shown with ⟨hsv, hct⟩ | hnone
  · obtain ⟨h₁, h₂⟩ := hs hsv hct
    have ho : s'.Occupied K.names = s.Occupied K.names := Allotment.occupied_congr h₁ h₂
    refine ⟨hk, .inl ⟨h₁ ▸ hsv, h₂ ▸ hct⟩, ?_, ?_, ?_, ?_, ?_⟩
    · rw [hg]
      exact fun a hm => ⟨(ha.reserved a hm).1, hr a (ha.reserved a hm).1 (ha.reserved a hm).2⟩
    · rw [hg]; exact ha.distinct
    · rw [hg, ho]; exact ha.free
    · rw [hg]; exact ha.placed
    · rw [hg, ho]; exact ha.again
  · rw [hnone] at hg
    refine ⟨hk, .inr hg, ?_, ?_, ?_, ?_, ?_⟩
    all_goals rw [hg]; simp

theorem Assigned.portless (ha : Assigned S K s) (hop : op.portless = true)
    (hd : (allotting S K).does s op r s') : Assigned S K s' := by
  obtain ⟨h, h', ⟨hk, hown⟩, hacts, rfl⟩ := hd
  refine ha.carry (Allotment.note_granted hop) ?_ (fun a hb hm => ?_)
    fun h₁ h₂ => Allotment.note_shown h₁ h₂
  · rw [Allotment.note_host, hacts.ports hop]; exact hk
  · rw [Allotment.note_host, hacts.ports hop]; exact (hown a hb).mpr hm

theorem allows_portless (hop : op.portless = true) : (allotting S K).allows s op := by
  rintro target protocol port b rfl
  cases hop

/-- A program that leaves the table alone keeps what has been assigned. -/
theorem portless_safe {α : Type} {p : D α} (hp : p.Uses fun op : HostOp => op.portless = true)
    (ha : Assigned S K s) : p.Safe (allotting S K) (fun _ s' => Assigned S K s') s :=
  Prog.Uses.safe (I := hostApi) (P := Assigned S K) hp
    (fun _ _ ht hop => ⟨allows_portless hop, fun _ _ _ hd => ht.portless hop hd⟩)
    (fun _ ht => ht) ha

/-! ### While ports are assigned -/

variable (S K) in
/-- As long as nothing has failed: what is occupied, for the adapter, is what the listings show
and what has been granted; and what the table holds for the build was there, or was granted. -/
structure Assigning (R : Rollout) (occupied : List DockerSwarmAdapter.OccupiedPort)
    (s : Allotment) : Prop where
  assigned : Assigned S K s
  shown : s.services.isSome ∧ s.containers.isSome
  own : ∀ a : PortAllocation, a.buildId = K.build →
    (a ∈ s.host.ports ↔ a ∈ K.table ∨ a ∈ s.granted)
  target : ∀ a ∈ s.granted, a.target = R.target
  listed : ∀ n protocol mode, mode = "ingress" ∨ mode = "host" →
    s.Occupied K.names n protocol → (n, protocol, mode) ∈ occupied
  known : ∀ x ∈ occupied, s.Occupied K.names x.1 x.2.1 ∨
    ∃ a ∈ s.granted, a.port = x.1 ∧ a.protocol = x.2.1

variable {R : Rollout} {occupied : List DockerSwarmAdapter.OccupiedPort} {a : PortAllocation}

namespace Assigning

theorem portless (hg : Assigning S K R occupied s) (hop : op.portless = true)
    (hd : (allotting S K).does s op r s') :
    Assigning S K R occupied s' ∧ After s [] s' := by
  have ha := hg.assigned.portless hop hd
  obtain ⟨h, h', ⟨-, hown⟩, hacts, rfl⟩ := hd
  have hgr := Allotment.note_granted (s := s) (r := r) (h := h') hop
  obtain ⟨h₁, h₂⟩ := Allotment.note_shown (r := r) (h := h') hg.shown.1 hg.shown.2
  have ho : (s.note op r h').Occupied K.names = s.Occupied K.names :=
    Allotment.occupied_congr h₁ h₂
  refine ⟨⟨ha, ⟨h₁ ▸ hg.shown.1, h₂ ▸ hg.shown.2⟩, fun a hb => ?_, ?_, ?_, ?_⟩,
    h₁, h₂, hgr.trans (List.append_nil _).symm⟩
  · rw [Allotment.note_host, hacts.ports hop, hown a hb, hg.own a hb, hgr]
  · rw [hgr]; exact hg.target
  · rw [ho]; exact hg.listed
  · rw [ho, hgr]; exact hg.known

/-- A granted reservation of a new entry is one more port assigned. -/
theorem grant {e : PortEntry} (hg : Assigning S K R occupied s) (ho : Others K.build s.host h)
    (hgr : (h.ports.reservePort a).1 = true) (hb : a.buildId = K.build) (ht : a.target = R.target)
    (he : e ∈ K.entries) (hm : e.port.mode = "ingress" ∨ e.port.mode = "host")
    (hao : e.owner = a.serviceName) (hap : e.port.protocol = a.protocol)
    (hnew : ∀ x ∈ s.granted, x.serviceName ≠ a.serviceName)
    (hocc : (a.port, a.protocol, e.port.mode) ∉ occupied)
    (hplace : e.port.publishedPort = some a.port ∨
      a.port ∈ DockerSwarmAdapter.publishedPortRange S ∨ a ∈ K.table)
    (hagain : ∀ x ∈ K.table, a.sameEntry x → (∀ y ∈ K.table, a.sameEntry y → y = x) →
      ¬ s.Occupied K.names x.port x.protocol → a = x)
    (hh : h'.ports = (h.ports.reservePort a).2) :
    Assigning S K R occupied { s with host := h', granted := s.granted ++ [a] } := by
  obtain ⟨hk, hown⟩ := ho
  have hamem : a ∈ h'.ports := hh ▸ PortAllocations.mem_of_granted hgr
  have hk' : h'.ports.Keyed := hh ▸ hk.reservePort
  have hold : ∀ x ∈ s.granted, x.buildId = K.build ∧ x ∈ h'.ports := by
    intro x hx
    obtain ⟨hxb, hxm⟩ := hg.assigned.reserved x hx
    exact ⟨hxb, hh ▸ PortAllocations.mem_reservePort.mpr (.inl ((hown x hxb).mpr hxm))⟩
  -- What is not occupied in the list is not occupied.
  have hfree : ¬ s.Occupied K.names a.port a.protocol := fun hocc' =>
    hocc (hg.listed _ _ _ hm hocc')
  -- The allocations are the old ones and the new one.
  refine ⟨⟨hk', .inl hg.shown, ?_, ?_, ?_, ?_, ?_⟩, hg.shown, ?_, ?_, hg.listed, ?_⟩
  · intro x hx
    rcases List.mem_append.mp hx with hx | hx
    · exact hold x hx
    · obtain rfl := List.mem_singleton.mp hx
      exact ⟨hb, hamem⟩
  · refine List.pairwise_append.mpr ⟨hg.assigned.distinct, List.pairwise_singleton _ _, ?_⟩
    rintro x hx y hy ⟨hport, hproto⟩
    obtain rfl := List.mem_singleton.mp hy
    refine hnew x hx (congrArg PortAllocation.serviceName (hk'.eq (hold x hx).2 hamem ?_))
    simp only [PortAllocation.identity, hg.target x hx, ht, hport, hproto]
  · intro x hx
    rcases List.mem_append.mp hx with hx | hx
    · exact hg.assigned.free x hx
    · obtain rfl := List.mem_singleton.mp hx
      exact hfree
  · intro x hx
    rcases List.mem_append.mp hx with hx | hx
    · exact hg.assigned.placed x hx
    · obtain rfl := List.mem_singleton.mp hx
      exact ⟨e, he, hao, hap, hplace⟩
  · intro x hx
    rcases List.mem_append.mp hx with hx | hx
    · exact hg.assigned.again x hx
    · obtain rfl := List.mem_singleton.mp hx
      exact hagain
  · intro x hxb
    dsimp only
    rw [hh, PortAllocations.mem_reservePort, hown x hxb, hg.own x hxb, List.mem_append,
      List.mem_singleton]
    constructor
    · rintro (hx | ⟨rfl, -⟩)
      · exact hx.imp id .inl
      · exact .inr (.inr rfl)
    · rintro (hx | hx | rfl)
      · exact .inl (.inl hx)
      · exact .inl (.inr hx)
      · rw [hh, PortAllocations.mem_reservePort, hown x hxb, hg.own x hxb] at hamem
        exact hamem
  · intro x hx
    rcases List.mem_append.mp hx with hx | hx
    · exact hg.target x hx
    · obtain rfl := List.mem_singleton.mp hx
      exact ht
  · intro x hx
    refine (hg.known x hx).imp id ?_
    rintro ⟨y, hy, hxy⟩
    exact ⟨y, List.mem_append_left _ hy, hxy⟩

end Assigning

/-- A program that leaves the table alone goes on assigning. -/
theorem assigning_safe {α : Type} {p : D α} (hp : p.Uses fun op : HostOp => op.portless = true)
    (hg : Assigning S K R occupied s) :
    p.Safe (allotting S K) (fun _ s' => Assigning S K R occupied s' ∧ After s [] s') s :=
  Prog.Uses.safe (I := hostApi) (P := fun t => Assigning S K R occupied t ∧ After s [] t) hp
    (fun _ _ ht hop => ⟨allows_portless hop, fun _ _ _ hd =>
      ⟨(ht.1.portless hop hd).1, ht.2.trans (ht.1.portless hop hd).2⟩⟩)
    (fun _ ht => ht.1.assigned) ⟨hg, .refl s⟩

/-! ### One entry -/

theorem HostOp.looks_portless (hop : op.looks = true) : op.portless = true := by
  unfold looks at hop
  split at hop
  · rfl
  · rfl
  · unfold stills at hop
    split at hop <;> first | rfl | cases hop

theorem guard_portless (tr : ResourceTracker) :
    (onHost tr.guard).Uses fun op : HostOp => op.portless = true :=
  looks_mono (guard_looks tr) fun _ h => HostOp.looks_portless h

namespace DockerSwarmAdapter

/-- The reservation of port `n` for the entry. -/
def allocationOf (R : Rollout) (b : BuildId) (e : PortEntry) (n : Nat) : PortAllocation :=
  ⟨R.target, e.port.protocol, n, b, e.owner⟩

theorem allocationOf_port {b : BuildId} {e : PortEntry} {x : PortAllocation}
    (h : (allocationOf R b e 0).sameEntry x) : allocationOf R b e x.port = x := by
  obtain ⟨h₁, h₂, h₃, h₄⟩ := h
  cases x
  simp_all [allocationOf]

variable (S K R) in
/-- Port `n` may be reserved for the entry. -/
structure Choice (e : PortEntry) (s : Allotment) (n : Nat) : Prop where
  placed : e.port.publishedPort = some n ∨ n ∈ publishedPortRange S ∨
    allocationOf R K.build e n ∈ K.table
  again : ∀ x ∈ K.table, (allocationOf R K.build e n).sameEntry x →
    (∀ y ∈ K.table, (allocationOf R K.build e n).sameEntry y → y = x) →
    ¬ s.Occupied K.names x.port x.protocol → allocationOf R K.build e n = x

section Entry
variable {tr : ResourceTracker} {e : PortEntry} (htr : R.tracker = some tr)
  (hb : tr.buildId = K.build) (he : e ∈ K.entries)
  (hm : e.port.mode = "ingress" ∨ e.port.mode = "host")
include htr hb he hm

theorem reservePort_safe {n : Nat} (hg : Assigning S K R occupied s)
    (hnew : ∀ x ∈ s.granted, x.serviceName ≠ e.owner)
    (hocc : (n, e.port.protocol, e.port.mode) ∉ occupied) (hn : Choice S K R e s n) :
    (reservePort R n e.port.protocol e.owner).Safe (allotting S K) (fun r s' => ∀ ok, r = .ok ok →
      Assigning S K R occupied s' ∧
      After s (if ok then [allocationOf R K.build e n] else []) s' ∧
      (ok = false → allocationOf R K.build e n ∉ K.table)) s := by
  unfold reservePort
  rw [htr]
  refine Prog.safe_bind.mpr ((assigning_safe (guard_portless tr) hg).mono ?_)
  rintro (x | ⟨⟩) t ⟨hgt, hafter⟩
  · rintro _ ⟨⟩
  dsimp only [insist]
  rw [hb]
  refine Prog.safe_bind.mpr ⟨by rintro _ _ _ _ ⟨⟩, ?_⟩
  rintro r t' - ⟨h, h', ho, hacts, rfl⟩
  -- A reservation takes away none of those that are there.
  have hkept : Assigned S K { t with host := h' } := by
    refine hgt.assigned.carry rfl ?_ (fun a ha hmem => ?_) fun _ _ => ⟨rfl, rfl⟩
    · rcases hacts with ⟨rfl, -⟩ | ⟨-, rfl⟩
      · exact ho.1.reservePort
      · exact ho.1
    · rcases hacts with ⟨rfl, -⟩ | ⟨-, rfl⟩
      · exact PortAllocations.mem_reservePort.mpr (.inl ((ho.2 a ha).mpr hmem))
      · exact (ho.2 a ha).mpr hmem
  cases r with
  | error x => exact ⟨hkept, by rintro _ ⟨⟩⟩
  | ok granted =>
      rcases hacts with ⟨rfl, hres⟩ | ⟨⟨⟩, -⟩
      have hres := hres granted rfl
      cases granted with
      | true =>
          have hgr : Assigning S K R occupied { t with
              host := { h with ports := (h.ports.reservePort (allocationOf R K.build e n)).2 }
              granted := t.granted ++ [allocationOf R K.build e n] } :=
            hgt.grant ho hres.symm rfl rfl he hm rfl rfl
            (by rw [hafter.granted, List.append_nil]; exact hnew) hocc hn.placed
            (by rw [hafter.occupied]; exact hn.again) rfl
          refine ⟨hgr.assigned, ?_⟩
          rintro _ ⟨⟩
          refine ⟨hgr, hafter.trans ⟨rfl, rfl, rfl⟩, by rintro ⟨⟩⟩
      | false =>
          refine ⟨hkept, ?_⟩
          rintro _ ⟨⟩
          have hsame := PortAllocations.refused hres.symm
          refine ⟨⟨hkept, hgt.shown, fun a ha => ?_, hgt.target, hgt.listed, hgt.known⟩,
            hafter.trans ⟨rfl, rfl, (List.append_nil _).symm⟩, fun _ hmem => ?_⟩
          · exact (iff_of_eq (congrArg (a ∈ ·) hsame)).trans
              ((ho.2 a ha).trans (hgt.own a ha))
          · have := ho.1.granted ((ho.2 _ rfl).mpr ((hgt.own _ rfl).mpr (.inl hmem)))
            exact absurd (hres.trans this) (by decide)

/-- Of a list of ports that may be reserved, one is, or those the table holds for the entry are
all occupied. -/
theorem searchPort_safe {l : List Nat} (hg : Assigning S K R occupied s)
    (hnew : ∀ x ∈ s.granted, x.serviceName ≠ e.owner) (hl : ∀ n ∈ l, Choice S K R e s n) :
    (searchPort R occupied e.port e.owner l).Safe (allotting S K) (fun r s' => ∀ o, r = .ok o →
      Assigning S K R occupied s' ∧
      After s (o.toList.map (allocationOf R K.build e)) s' ∧
      (o = none → ∀ n ∈ l, allocationOf R K.build e n ∈ K.table →
        (n, e.port.protocol, e.port.mode) ∈ occupied)) s := by
  induction l generalizing s with
  | nil =>
      rintro _ ⟨⟩
      exact ⟨hg, .refl s, by simp⟩
  | cons n l ih =>
      rw [searchPort]
      split
      · next hocc =>
          refine (ih hg hnew fun n h => hl n (List.mem_cons_of_mem _ h)).mono ?_
          intro r t hr o ho
          obtain ⟨h₁, h₂, h₃⟩ := hr o ho
          refine ⟨h₁, h₂, fun hnone m hm hmem => ?_⟩
          rcases List.mem_cons.mp hm with rfl | hm
          · exact hocc
          · exact h₃ hnone m hm hmem
      · next hocc =>
          refine Prog.safe_bind.mpr ((reservePort_safe htr hb he hm hg hnew hocc
            (hl n List.mem_cons_self)).mono ?_)
          rintro (x | granted) t hr
          · rintro _ ⟨⟩
          obtain ⟨hgt, hafter, hnot⟩ := hr granted rfl
          cases granted with
          | true =>
              rintro _ ⟨⟩
              exact ⟨hgt, hafter, by rintro ⟨⟩⟩
          | false =>
              -- Another build was faster: the next port is tried.
              refine (ih hgt ?_ fun n h => ?_).mono ?_
              · rw [hafter.granted]; simpa using hnew
              · obtain ⟨hp, ha⟩ := hl n (List.mem_cons_of_mem _ h)
                exact ⟨hp, by rw [hafter.occupied]; exact ha⟩
              · intro r u hr o ho
                obtain ⟨h₁, h₂, h₃⟩ := hr o ho
                refine ⟨h₁, hafter.trans h₂, fun hnone m hm hmem => ?_⟩
                rcases List.mem_cons.mp hm with rfl | hm
                · exact absurd hmem (hnot rfl)
                · exact h₃ hnone m hm hmem

omit he hm in
/-- An entry asks for the one port the table holds for it; if it asks for another, it is its
own, or one of several that the table holds. -/
theorem requestedPort_safe (hg : Assigning S K R occupied s)
    (hnew : ∀ x ∈ s.granted, x.serviceName ≠ e.owner) :
    (requestedPort R e.port e.owner).Safe (allotting S K) (fun r s' => ∀ o, r = .ok o →
      Assigning S K R occupied s' ∧ After s [] s' ∧
      (∀ n, o = some n → e.port.publishedPort = some n ∨ allocationOf R K.build e n ∈ K.table) ∧
      ∀ x ∈ K.table, (allocationOf R K.build e 0).sameEntry x →
        (∀ y ∈ K.table, (allocationOf R K.build e 0).sameEntry y → y = x) →
        o = some x.port) s := by
  unfold requestedPort
  rw [htr]
  refine Prog.safe_bind.mpr ⟨by rintro _ _ _ _ ⟨⟩, ?_⟩
  rintro rows t - hd
  obtain ⟨hgt, hafter⟩ := hg.portless rfl hd
  obtain ⟨h, h', ho, ⟨-, rfl⟩, -⟩ := hd
  -- What the build holds for an entry without a grant it held from the start.
  have held : ∀ x ∈ h.ports.listBuildPorts tr.buildId, x.serviceName = e.owner → x ∈ K.table := by
    intro x hx howner
    obtain ⟨hxm, hxb⟩ := List.mem_filter.mp hx
    have hxb : x.buildId = K.build := (beq_iff_eq.mp hxb).trans hb
    exact ((hg.own x hxb).mp ((ho.2 x hxb).mp hxm)).resolve_right fun h => hnew x h howner
  refine ⟨hgt.assigned, ?_⟩
  rw [Prog.safe_ret]
  dsimp only
  split
  · next previous hfound =>
      rintro _ ⟨⟩
      have hmem := List.mem_of_find?_eq_some hfound
      have hp := List.find?_some hfound
      simp only [Bool.and_eq_true, beq_iff_eq] at hp
      obtain ⟨⟨ht, hproto⟩, howner⟩ := hp
      have hbuild : previous.buildId = K.build :=
        (beq_iff_eq.mp (List.mem_filter.mp hmem).2).trans hb
      have htable := held previous hmem howner
      refine ⟨hgt, hafter, ?_, fun x hx _ huniq => ?_⟩
      · rintro _ ⟨⟩
        refine .inr ?_
        rw [allocationOf_port (x := previous) ⟨ht, hproto, hbuild, howner⟩]
        exact htable
      · rw [huniq previous htable ⟨ht, hproto, hbuild, howner⟩]
  · next hnone =>
      rintro _ ⟨⟩
      refine ⟨hgt, hafter, fun n h => .inl h, fun x hx hsame _ => ?_⟩
      obtain ⟨h₁, h₂, h₃, h₄⟩ := hsame
      refine absurd (List.find?_eq_none.mp hnone x (List.mem_filter.mpr ⟨?_, ?_⟩)) ?_
      · exact (ho.2 x h₃).mpr ((hg.own x h₃).mpr (.inl hx))
      · exact beq_iff_eq.mpr (h₃.trans hb.symm)
      · simp only [Bool.and_eq_true, beq_iff_eq, not_not]
        exact ⟨⟨h₁, h₂⟩, h₄⟩

end Entry

/-- **One entry.**  It is granted one port, which may be reserved for it. -/
theorem choosePort_safe {tr : ResourceTracker} (htr : R.tracker = some tr)
    (hb : tr.buildId = K.build) {service : String} {index : Nat} {port : PublishedPort}
    (he : ⟨service, index, port⟩ ∈ K.entries) (hm : port.mode = "ingress" ∨ port.mode = "host")
    (hg : Assigning S K R occupied s)
    (hnew : ∀ x ∈ s.granted, x.serviceName ≠ allocationOwner service index port) :
    (choosePort S R service occupied index port).Safe (allotting S K) (fun r s' =>
      ∀ n, r = .ok n → Assigning S K R occupied s' ∧
        After s [allocationOf R K.build ⟨service, index, port⟩ n] s') s := by
  set e : PortEntry := ⟨service, index, port⟩ with hedef
  refine Prog.safe_bind.mpr ((requestedPort_safe (e := e) htr hb hg hnew).mono ?_)
  rintro (x | requested) t hr
  · rintro _ ⟨⟩
  obtain ⟨hgt, hafter, hplace, hagain⟩ := hr requested rfl
  have hnew' : ∀ x ∈ t.granted, x.serviceName ≠ e.owner := by
    rw [hafter.granted, List.append_nil]; exact hnew
  refine Prog.safe_bind.mpr ((searchPort_safe htr hb he hm hgt hnew' fun n hn => ?_).mono ?_)
  · rw [Option.mem_toList] at hn
    refine ⟨(hplace n hn).imp id .inr, fun x hx hsame huniq _ => ?_⟩
    obtain rfl := Option.some.inj (hn.symm.trans (hagain x hx hsame huniq))
    exact allocationOf_port hsame
  rintro (x | found) u hr
  · rintro _ ⟨⟩
  obtain ⟨hgu, hafter', hnone⟩ := hr found rfl
  cases found with
  | some n =>
      rintro _ ⟨⟩
      exact ⟨hgu, hafter.trans hafter'⟩
  | none =>
      have hnew'' : ∀ x ∈ u.granted, x.serviceName ≠ e.owner := by
        rw [hafter'.granted]; simpa using hnew'
      refine Prog.safe_bind.mpr ((searchPort_safe htr hb he hm hgu hnew'' fun n hn => ?_).mono ?_)
      · refine ⟨.inr (.inl hn), fun x hx hsame huniq hfree => ?_⟩
        -- the port that was reserved before has been asked for, and was neither shown nor granted
        have hasked := hagain x hx hsame huniq
        have hocc := hnone rfl x.port (hasked ▸ by simp) ((allocationOf_port hsame).symm ▸ hx)
        obtain ⟨h₁, h₂, h₃, h₄⟩ := hsame
        rcases hgu.known _ hocc with hshown | ⟨y, hy, hport, hproto⟩
        · exact absurd (h₂ ▸ hshown) hfree
        · have hyx : y = x := by
            refine hgu.assigned.keyed.eq (hgu.assigned.reserved y hy).2
              ((hgu.own x h₃).mpr (.inl hx)) ?_
            simp only [PortAllocation.identity, hgu.target y hy, hport, hproto, h₁, h₂]
            rfl
          exact absurd (hyx ▸ h₄) (hnew'' y hy)
      rintro (x | found) v hr
      · rintro _ ⟨⟩
      obtain ⟨hgv, hafter'', -⟩ := hr found rfl
      cases found with
      | some n =>
          rintro _ ⟨⟩
          exact ⟨hgv, (hafter.trans hafter').trans hafter''⟩
      | none => rintro _ ⟨⟩

/-! ### The entries of a service -/

/-- The reservations behind the ports of a service, from the entry number `i` on. -/
def reservations (target : String) (b : BuildId) (service : String) :
    Nat → List PublishedPort → PortAllocations
  | _, [] => []
  | i, p :: l => ⟨target, p.protocol, p.publishedPort.getD 0, b, allocationOwner service i p⟩ ::
      reservations target b service (i + 1) l

theorem reservations_cons (R : Rollout) (b : BuildId) (service : String) (i n : Nat)
    (p : PublishedPort) (l : List PublishedPort) :
    reservations R.target b service i ({ p with publishedPort := some n } :: l) =
      [allocationOf R b ⟨service, i, p⟩ n] ++ reservations R.target b service (i + 1) l := rfl

/-- The same entry, with a port of its own. -/
def Allocated (p q : PublishedPort) : Prop := ∃ n, q = { p with publishedPort := some n }

theorem mem_entriesFrom {service : String} {i : Nat} {l : List PublishedPort} {e : PortEntry}
    (h : e ∈ entriesFrom service i l) : e.service = service ∧ i ≤ e.index ∧ e.port ∈ l := by
  induction l generalizing i with
  | nil => cases h
  | cons p l ih =>
      rcases List.mem_cons.mp h with rfl | h
      · exact ⟨rfl, Nat.le_refl i, List.mem_cons_self⟩
      · obtain ⟨h₁, h₂, h₃⟩ := ih h
        exact ⟨h₁, Nat.le_of_succ_le h₂, List.mem_cons_of_mem _ h₃⟩

theorem colon_free {mode : String} (h : mode = "ingress" ∨ mode = "host") : ':' ∉ mode.toList := by
  rcases h with rfl | rfl <;> decide

theorem record_portless (R : Rollout) (kind : ResourceKind) (name : String)
    (nativeId : Option String) (state : ResourceState) (metadata : Metadata) :
    (record R kind name nativeId state metadata).Uses fun op : HostOp => op.portless = true := by
  refine Prog.Uses.mono (I := hostApi) (record_tracking R _ _ _ _ _) ?_
  rintro _ ⟨tr, op, -, h, rfl⟩
  rfl

/-- What has been granted is occupied from then on. -/
theorem occupy_assigning (hg : Assigning S K R occupied s) (ha : a ∈ s.granted) (mode : String) :
    Assigning S K R ((a.port, a.protocol, mode) :: occupied) s := by
  refine ⟨hg.assigned, hg.shown, hg.own, hg.target, fun n protocol mode hm ho => ?_, fun x hx => ?_⟩
  · exact List.mem_cons_of_mem _ (hg.listed n protocol mode hm ho)
  · rcases List.mem_cons.mp hx with rfl | hx
    · exact .inr ⟨a, ha, rfl, rfl⟩
    · exact hg.known x hx

/-- **The entries of a service.**  Each is granted one port. -/
theorem allocatePorts_safe {tr : ResourceTracker} (htr : R.tracker = some tr)
    (hb : tr.buildId = K.build) {service : String} {index : Nat} {ports : List PublishedPort}
    (he : ∀ e ∈ entriesFrom service index ports, e ∈ K.entries)
    (hm : ∀ p ∈ ports, p.mode = "ingress" ∨ p.mode = "host")
    (hg : Assigning S K R occupied s)
    (hnew : ∀ e ∈ entriesFrom service index ports, ∀ x ∈ s.granted, x.serviceName ≠ e.owner) :
    (allocatePorts S R service index ports occupied).Safe (allotting S K) (fun r s' =>
      ∀ allocated occupied', r = .ok (allocated, occupied') →
        Assigning S K R occupied' s' ∧
        After s (reservations R.target K.build service index allocated) s' ∧
        List.Forall₂ Allocated ports allocated) s := by
  induction ports generalizing index occupied s with
  | nil =>
      rintro _ _ ⟨⟩
      exact ⟨hg, .refl s, .nil⟩
  | cons port ports ih =>
      have hmp := hm port List.mem_cons_self
      have hfirst : ⟨service, index, port⟩ ∈ entriesFrom service index (port :: ports) :=
        List.mem_cons_self
      have hfresh := hnew _ hfirst
      have hone := choosePort_safe htr hb (he _ hfirst) hmp hg hfresh
      rw [allocatePorts]
      simp only [Prog.bind_eq, Prog.pure_eq]
      refine Prog.safe_bind.mpr (hone.mono ?_)
      rintro (x | chosen) t hr
      · rintro _ _ ⟨⟩
      obtain ⟨hgt, hafter⟩ := hr chosen rfl
      refine Prog.safe_bind.mpr ((assigning_safe (record_portless R _ _ _ _ _) hgt).mono ?_)
      rintro (x | ⟨⟩) u ⟨hgu, hafter'⟩
      · rintro _ _ ⟨⟩
      -- Recording a port grants none.
      have hgranted : u.granted =
          s.granted ++ [allocationOf R K.build ⟨service, index, port⟩ chosen] := by
        rw [hafter'.granted, hafter.granted, List.append_nil]
      have hgu := occupy_assigning hgu (a := allocationOf R K.build ⟨service, index, port⟩ chosen)
        (by rw [hgranted]; simp) port.mode
      have hrest := @ih _ _ (index + 1) (fun e h => he e (List.mem_cons_of_mem _ h))
        (fun p h => hm p (List.mem_cons_of_mem _ h)) hgu fun e hmem x hx => ?_
      · refine Prog.safe_bind.mpr (hrest.mono ?_)
        rintro (x | ⟨allocated, occupied'⟩) v hr
        · rintro _ _ ⟨⟩
        obtain ⟨hgv, hafter'', hall⟩ := hr allocated occupied' rfl
        rintro _ _ ⟨⟩
        refine ⟨hgv, ?_, .cons ⟨chosen, rfl⟩ hall⟩
        rw [reservations_cons]
        exact (hafter.trans hafter').trans hafter''
      · rw [hgranted] at hx
        rcases List.mem_append.mp hx with hx | hx
        · exact hnew e (List.mem_cons_of_mem _ hmem) x hx
        · obtain rfl := List.mem_singleton.mp hx
          obtain ⟨hs, hi, hp⟩ := mem_entriesFrom hmem
          intro howner
          have hindex : index = e.index := (allocationOwner_injective (colon_free hmp)
            (colon_free (hm _ (List.mem_cons_of_mem _ hp))) howner).2
          omega

/-! ### The services of a document -/

section Steps
variable {α β : Type} {Q : β → Allotment → Prop}

/-- A check, and what follows it. -/
theorem checked_then {x : Except Exc α} {f : α → D β} {C : Contract hostApi Allotment}
    (h : ∀ a, x = .ok a → (f a).Safe C (fun r s' => ∀ b, r = .ok b → Q b s') s) :
    ((Prog.ofExcept (I := hostApi) x).bind f).Safe C (fun r s' => ∀ b, r = .ok b → Q b s') s := by
  cases x with
  | error e => rintro _ ⟨⟩
  | ok a => exact h a rfl

/-- A part that leaves the table alone, and what follows it. -/
theorem portless_then {p : D α} {f : α → D β}
    (hp : p.Uses fun op : HostOp => op.portless = true) (hg : Assigning S K R occupied s)
    (h : ∀ a t, Assigning S K R occupied t → After s [] t →
      (f a).Safe (allotting S K) (fun r s' => ∀ b, r = .ok b → Q b s') t) :
    (p.bind f).Safe (allotting S K) (fun r s' => ∀ b, r = .ok b → Q b s') s := by
  refine Prog.safe_bind.mpr ((assigning_safe hp hg).mono ?_)
  rintro (x | a) t ⟨hgt, hafter⟩
  · rintro _ ⟨⟩
  · exact h a t hgt hafter

end Steps

theorem looks_portless {α : Type} {p : D α} (h : p.Uses Looks) :
    p.Uses fun op : HostOp => op.portless = true :=
  looks_mono h fun _ hop => HostOp.looks_portless hop

theorem applyService_portless (name image : String) (a : ServiceArguments)
    (existing : Option DockerObject) :
    (applyService S R name image a existing).Uses fun op : HostOp => op.portless = true := by
  unfold applyService
  split
  · refine .bind (uses_orRefuse (.bind (uses_request trivial) fun spec => ?_)) fun _ => trivial
    exact uses_request (uses_ask rfl)
  · refine .bind (uses_orRefuse (.bind (uses_request trivial) fun spec => ?_)) fun _ => trivial
    exact uses_request (uses_ask rfl)

/-- What a deployed service is, of the one named so. -/
def Fits (S : SwarmSettings) (appid ns : String) (services : Services) (composeName : String)
    (d : ServiceDeployment) : Prop :=
  let definition := (services.lookup composeName).getD []
  d.serviceName = deploymentServiceName S appid ns composeName definition ∧
  ∃ l, DockerSwarmAdapter.ports (field definition "ports") = .ok l ∧
    List.Forall₂ Allocated l d.ports

/-- The entries of one service of the document. -/
def entriesOfService (S : SwarmSettings) (appid ns : String) (s : String × Fields) :
    List PortEntry :=
  match DockerSwarmAdapter.ports (field s.2 "ports") with
  | .ok l => entriesFrom (deploymentServiceName S appid ns s.1 s.2) 0 l
  | .error _ => []

/-- **One service.**  Each of its entries is granted one port. -/
theorem deployOne_safe {tr : ResourceTracker} (htr : R.tracker = some tr)
    (hb : tr.buildId = K.build) {W : Shared} {name : String}
    (he : ∀ e ∈ entriesOfService S R.appid R.ns (name, (W.services.lookup name).getD []),
      e ∈ K.entries)
    (hg : Assigning S K R occupied s)
    (hnew : ∀ e ∈ entriesOfService S R.appid R.ns (name, (W.services.lookup name).getD []),
      ∀ x ∈ s.granted, x.serviceName ≠ e.owner) :
    (deployOne S R W name ((W.services.lookup name).getD []) occupied).Safe (allotting S K)
      (fun r s' => ∀ b, r = .ok b → Assigning S K R b.2 s' ∧
        After s (reservations R.target K.build b.1.serviceName 0 b.1.ports) s' ∧
        Fits S R.appid R.ns W.services name b.1) s := by
  unfold deployOne
  simp only [Prog.bind_eq]
  refine checked_then fun _ _ => checked_then fun image _ => ?_
  refine portless_then (record_portless R _ _ _ _ _) hg fun _ s₁ hg₁ h₁ => ?_
  refine portless_then (record_portless R _ _ _ _ _) hg₁ fun _ s₂ hg₂ h₂ => ?_
  refine checked_then fun requested hreq => ?_
  -- The two records grant no port.
  have hnew₂ : ∀ e ∈ entriesOfService S R.appid R.ns (name, (W.services.lookup name).getD []),
      ∀ x ∈ s₂.granted, x.serviceName ≠ e.owner := by
    rw [h₂.granted, h₁.granted]
    simpa using hnew
  simp only [entriesOfService, hreq] at he hnew₂
  refine Prog.safe_bind.mpr ((allocatePorts_safe htr hb he (fun p hp => ports_mode hreq hp) hg₂
    hnew₂).mono ?_)
  rintro (x | ⟨allocated, occupied'⟩) s₃ hr
  · rintro _ ⟨⟩
  obtain ⟨hg₃, h₃, hall⟩ := hr allocated occupied' rfl
  dsimp only
  refine checked_then fun arguments _ => ?_
  refine portless_then (looks_portless (workspaceConstraints_looks S R _)) hg₃
    fun constraints s₄ hg₄ h₄ => ?_
  refine portless_then (looks_portless (getObject_looks R _ _ _)) hg₄ fun existing s₅ hg₅ h₅ => ?_
  refine portless_then (looks_portless (checkExisting_looks S R W _ _ _ _)) hg₅
    fun _ s₆ hg₆ h₆ => ?_
  refine portless_then (looks_portless (guard_uses_looks R)) hg₆ fun _ s₇ hg₇ h₇ => ?_
  refine portless_then (applyService_portless _ _ _ _) hg₇ fun id s₈ hg₈ h₈ => ?_
  refine portless_then (record_portless R _ _ _ _ _) hg₈ fun _ s₉ hg₉ h₉ => ?_
  rw [Prog.pure_eq, Prog.safe_ret]
  rintro _ ⟨⟩
  refine ⟨hg₉, ?_, rfl, requested, hreq, hall⟩
  have := (((((((h₁.trans h₂).trans h₃).trans h₄).trans h₅).trans h₆).trans h₇).trans h₈).trans h₉
  simpa using this

end DockerSwarmAdapter

end Assignment

end Orchestrator
