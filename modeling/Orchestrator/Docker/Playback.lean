import Orchestrator.Docker.Rollout
import Orchestrator.Runtime.Sample
import Orchestrator.Text.Sha256

/-!
# Docker — a host on which nothing fails

The answers of a host whose engines, registry and database do what they are asked for, at once.
Witnesses and counterexamples are played against it.

* `Engine.answer`, `Host.answer`: the answer to a call, and what it does.
* `Host.acts_of_answer`: such a host may act so.
-/

namespace Orchestrator
open Interleaving

namespace Engine

/-- The object a request is about. -/
def find (g : Engine) (k : Collection) (identifier : String) : Option DockerObject :=
  (g.objects k).list.find? fun o => decide (o.answersTo identifier)

/-- The identifier of a new object. -/
def newId (k : Collection) (spec : DockerObject) : String :=
  if k = .volumes then spec.name else spec.name ++ "-id"

/-- The answer to a request, and the engine afterwards; none where the identifier of a new object
is in use. -/
def answer (g : Engine) : (op : DockerOp) → Option (op.Ret × Engine)
  | .info => some (.ok ⟨g.id, g.nodeId⟩, g)
  | .get k i => match g.find k i with
      | some o => some (.ok o, g)
      | none => some (.error .notFound, g)
  | .list k f => some (.ok ((g.objects k).list.filter f.holds), g)
  | .create k spec =>
      let o := { spec with id := newId k spec }
      if h : ∀ x ∈ (g.objects k).list, x.id ≠ o.id then
        some (.ok o, g.set k ((g.objects k).insert o h))
      else none
  | .update id spec => some (.ok (), g.effect (.update id spec))
  | .remove k id => some (.ok (), g.effect (.remove k id))
  | .untag reference => some (.ok (), g.effect (.untag reference))
  | .tasks _ => some (.ok [{ state := "running" }], g)

theorem acts_of_answer {g g' : Engine} {op : DockerOp} {r : op.Ret}
    (h : g.answer op = some (r, g')) : g.Acts op r g' := by
  cases op with
  | info => cases h; exact ⟨rfl, fun i hi => by cases hi; rfl⟩
  | get k i =>
      simp only [answer] at h
      split at h
      · next o ho =>
          cases h
          refine ⟨rfl, fun x hx => ?_⟩
          cases hx
          exact ⟨List.mem_of_find?_eq_some ho, by simpa using List.find?_some ho⟩
      · cases h
        exact ⟨rfl, by rintro _ ⟨⟩⟩
  | list k f => cases h; exact ⟨rfl, fun l hl => by cases hl; rfl⟩
  | create k spec =>
      simp only [answer] at h
      split at h
      · next hid =>
          cases h
          refine .inl ⟨_, .inr ⟨hid, rfl, ?_, rfl⟩, fun x hx => by cases hx; rfl⟩
          rintro rfl
          rfl
      · cases h
  | update id spec => cases h; exact .inl rfl
  | remove k id => cases h; exact .inl rfl
  | untag reference => cases h; exact .inl rfl
  | tasks id => cases h; rfl

end Engine

namespace Host

/-- The answer to a call, and the host afterwards; some calls are not answered. -/
def answer (s : Host) : (op : HostOp) → Option (op.Ret × Host)
  | .repo op => (exec 0 op Sample.replies s.world).map fun x => (x.1, { s with world := x.2 })
  | .docker c op => ((s.engines c).answer op).map fun x =>
      (x.1, { s with engines := Function.update s.engines c x.2 })
  | .connect endpoint => some (.ok (endpoint.getD ""), s)
  | .listBuildPorts b => some (s.ports.listBuildPorts b, s)
  | .reservePort a =>
      some (.ok (s.ports.reservePort a).1, { s with ports := (s.ports.reservePort a).2 })
  | .releasePort target protocol port b =>
      some (.ok (s.ports.releasePort target protocol port b).1,
        { s with ports := (s.ports.releasePort target protocol port b).2 })
  | .getArtifact .. | .deleteTag .. => none
  | .inspectDirectory path => some (.ok (decide (path ∈ s.directories)), s)
  | .removeTree path =>
      some (.ok (), { s with directories := s.directories.filter fun d => !d.isRelativeTo path })
  | .attributes => some (s.state, s)
  | .assign state => some ((), { s with state })
  | .deadlinePassed => some (false, s)
  | .outcome _ _ => some ((), s)

theorem acts_of_answer {s s' : Host} {op : HostOp} {r : op.Ret}
    (h : s.answer op = some (r, s')) : s.Acts op r s' := by
  cases op with
  | repo op =>
      obtain ⟨⟨x, w⟩, hx, h⟩ := Option.map_eq_some_iff.mp h
      cases h
      exact ⟨w, .inl ⟨0, _, hx⟩, rfl⟩
  | docker c op =>
      obtain ⟨⟨x, g⟩, hx, h⟩ := Option.map_eq_some_iff.mp h
      cases h
      exact ⟨g, Engine.acts_of_answer hx, rfl⟩
  | connect endpoint => cases h; rfl
  | listBuildPorts b => cases h; exact ⟨rfl, rfl⟩
  | reservePort a => cases h; exact .inl ⟨rfl, fun x hx => (Except.ok.inj hx).symm⟩
  | releasePort target protocol port b =>
      cases h; exact .inl ⟨rfl, fun x hx => (Except.ok.inj hx).symm⟩
  | getArtifact n t => cases h
  | deleteTag n d t => cases h
  | inspectDirectory path => cases h; exact ⟨rfl, fun x hx => (Except.ok.inj hx).symm⟩
  | removeTree path => cases h; exact .inl rfl
  | attributes => cases h; exact ⟨rfl, rfl⟩
  | assign state => cases h; rfl
  | deadlinePassed => cases h; rfl
  | outcome step failed => cases h; rfl

/-- Such answers are sane, and records stay under their own keys. -/
theorem sane_of_answer {s s' : Host} {op : HostOp} {r : op.Ret} (hk : s.world.Keyed)
    (h : s.answer op = some (r, s')) : op.Sane r ∧ s'.world.Keyed := by
  cases op with
  | repo op =>
      obtain ⟨⟨x, w⟩, hx, h⟩ := Option.map_eq_some_iff.mp h
      cases h
      exact exec_sane hk hx
  | docker c op =>
      obtain ⟨x, -, h⟩ := Option.map_eq_some_iff.mp h
      cases h
      exact ⟨trivial, hk⟩
  | getArtifact n t => cases h
  | deleteTag n d t => cases h
  | _ => cases h; exact ⟨trivial, hk⟩

end Host

/-! ### A sample host -/

namespace Sample

def hostSettings : HostSettings where
  base := { settings with
    buildNamespace := fun appid b =>
      buildNamespacePrefix ++ Hashing.sha256.short 32 (jsonPair appid b.hex) }
  sha256 := Hashing.sha256
  dockerBaseUrl := none
  cleanupDockerTargets _ := none
  cleanupPolls := 1
  workspaceRoot := .parse "/workspace"
  workspaceHostRoot := .parse "/workspace"
  workerName := "worker"
  harborEndpoint := .ok ()
  harborRegistry := "harbor"
  harborProject := "apps"

def swarm : SwarmSettings where
  host := hostSettings
  utils := ⟨fun _ => .ok 0⟩
  networkName := "orchestrator"
  publishedPortRangeStart := 30000
  publishedPortRangeEnd := 30010
  workspaceSharedStorage := false
  readinessPolls := 1
  readinessTimeout := "10"
  validatePrivateBackends _ _ := .ok ()
  safeErrorDetail _ := ""
  safeTaskErrorDetail _ _ := ""

/-- One service, of one port. -/
def document : Document := .map [(.str "services", .map [(.str "web", .map [
  (.str "image", .str "app:2x0-web"), (.str "ports", .list [.str "80"])])])]

/-- An engine with one image. -/
def engine : Engine where
  id := some "swarm"
  nodeId := some "node"
  objects
    | .images => ⟨[{ id := "image-id", name := "app:2x0-web", tags := ["app:2x0-web"] }],
        List.nodup_singleton _⟩
    | _ => .empty

/-- The manifest of the build is there, and empty. -/
def host : Host where
  world := { world with
    repo := { world.repo with
      buildResources := (∅ : Table BuildId BuildResources).insert build
        { buildId := build, appid := "app", resources := [] } } }
  engines _ := engine
  ports := []
  registry := []
  directories := []
  state := {}

theorem host_keyed : host.world.Keyed where
  builds := Table.keyed_empty
  manifests := Table.keyed_empty.insert rfl
  rows := Table.keyed_empty

end Sample

end Orchestrator
