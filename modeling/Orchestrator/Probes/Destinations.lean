import Orchestrator.Probes.Client
import Orchestrator.Probes.Retries
import Orchestrator.Runtime.Sample

/-!
# Probes — destinations

Where the requests of a probe go: `DynamicCheckService._endpoints` and `ProbeClient.run` together.

* `Owned`: the endpoints of the services that a build owns.
* `Wire.Sends`: all that a computation sends.
* `Asked`: the requests that a normalised payload makes to an endpoint.
* `probe_destinations`: whose endpoint, which path, which headers; and the same candidates for
  payloads that agree on what selects them.
-/

namespace Orchestrator.RouteProbes

open Interleaving
open DynamicCheckService (endpointsOf serviceEndpoints publishedEndpoint exposedEndpoint
  exposedPort ownedService composeName probeScheme publicHost)

/-! ### Endpoints of a build -/

/-- A port that the record publishes over TCP, at the public host or at the service. -/
def Published (S : Settings) (s : DeploymentService) (e : ProbeEndpoint) : Prop :=
  ∃ p ∈ s.publishedPorts, p.protocol = "tcp" ∧ e.targetPort = some p.targetPort ∧
    ((publicHost S = some e.host ∧ p.publishedPort = some e.port) ∨
      (e.host = s.serviceName ∧ e.port = p.targetPort))

/-- A port that the frozen document exposes over TCP, at the service. -/
def Exposed (build : BuildJob) (s : DeploymentService) (r : BuildResource) (e : ProbeEndpoint) :
    Prop :=
  e.host = s.serviceName ∧ e.targetPort = some e.port ∧ ∃ c source entry,
    build.composeSnapshot = some c ∧ c.services.lookup (composeName s r) = some source ∧
      entry ∈ source.expose ∧ exposedPort entry = .ok (some e.port)

/-- An endpoint of a service that the manifest says is the build's, and present. -/
def Owned (S : Settings) (build : BuildJob) (m : BuildResources)
    (services : List DeploymentService) (grpc : Bool) (e : ProbeEndpoint) : Prop :=
  ∃ s ∈ services, s.buildId = build.buildId ∧ s.serviceId ∈ build.serviceIds ∧
    ∃ r ∈ m.resources, r.kind = .service ∧ r.managed = true ∧ r.state = .present ∧
      r.nativeId = some s.serviceId ∧ e.scheme = probeScheme S grpc ∧
        (Published S s e ∨ Exposed build s r e)

theorem make_ok {serviceName host scheme : String} {port : Nat} {targetPort : Option Nat}
    {e : ProbeEndpoint}
    (h : ProbeEndpoint.make serviceName host port scheme targetPort = .ok e) :
    e.serviceName = serviceName ∧ e.host = host ∧ e.port = port ∧ e.scheme = scheme ∧
      e.targetPort = targetPort := by
  unfold ProbeEndpoint.make at h
  split at h
  · cases h
    exact ⟨rfl, rfl, rfl, rfl, rfl⟩
  · cases h

theorem publishedEndpoint_ok {S : Settings} {scheme name : String} {s : DeploymentService}
    {p : PublishedPort} {e : ProbeEndpoint} (hp : p ∈ s.publishedPorts) (ht : p.protocol = "tcp")
    (h : publishedEndpoint S scheme name s p = .ok e) : e.scheme = scheme ∧ Published S s e := by
  unfold publishedEndpoint at h
  split at h
  · next host number hhost hnumber =>
      obtain ⟨-, rfl, rfl, rfl, htarget⟩ := make_ok h
      exact ⟨rfl, p, hp, ht, htarget, .inl ⟨hhost, (Option.filter_eq_some_iff.mp hnumber).1⟩⟩
  · obtain ⟨-, hhost, hport, rfl, htarget⟩ := make_ok h
    exact ⟨rfl, p, hp, ht, htarget, .inr ⟨hhost, hport⟩⟩

theorem exposedEndpoint_ok {scheme name entry : String} {s : DeploymentService} {e : ProbeEndpoint}
    (h : exposedEndpoint scheme name s entry = .ok (some e)) :
    e.scheme = scheme ∧ e.host = s.serviceName ∧ e.targetPort = some e.port ∧
      exposedPort entry = .ok (some e.port) := by
  obtain ⟨port, hp, h⟩ := bind_ok h
  cases port with
  | none => cases h
  | some n =>
      dsimp only at h
      split_ifs at h
      · cases h
      · obtain ⟨e', he, h⟩ := bind_ok h
        cases h
        obtain ⟨-, hhost, rfl, rfl, htarget⟩ := make_ok he
        exact ⟨rfl, hhost, htarget, hp⟩

theorem ownedService_ok {m : BuildResources} {serviceId : String} {r : BuildResource}
    (h : ownedService m serviceId = some r) :
    r ∈ m.resources ∧ r.kind = .service ∧ r.managed = true ∧ r.state = .present ∧
      r.nativeId = some serviceId := by
  have hr := List.find?_some h
  have hm := List.mem_of_find?_eq_some h
  simp only [Bool.and_eq_true, beq_iff_eq] at hr
  obtain ⟨⟨⟨⟨hk, hmanaged⟩, -⟩, hs⟩, hn⟩ := hr
  exact ⟨List.mem_reverse.mp hm, hk, hmanaged, hs, hn⟩

theorem serviceEndpoints_ok {S : Settings} {scheme : String} {build : BuildJob}
    {s : DeploymentService} {r : BuildResource} {l : List ProbeEndpoint} {e : ProbeEndpoint}
    (h : serviceEndpoints S scheme build s r = .ok l) (he : e ∈ l) :
    e.scheme = scheme ∧ (Published S s e ∨ Exposed build s r e) := by
  obtain ⟨published, hp, h⟩ := bind_ok h
  obtain ⟨exposed, hx, h⟩ := bind_ok h
  cases h
  rcases List.mem_append.mp he with he | he
  · obtain ⟨p, hmem, hpe⟩ := mapM_mem hp he
    obtain ⟨hmem, ht⟩ := List.mem_filter.mp hmem
    obtain ⟨hs, hpub⟩ := publishedEndpoint_ok hmem (by simpa using ht) hpe
    exact ⟨hs, .inl hpub⟩
  · obtain ⟨o, ho, rfl⟩ := List.mem_filterMap.mp he
    obtain ⟨entry, hentry, hoe⟩ := mapM_mem hx ho
    obtain ⟨hs, hhost, htarget, hport⟩ := exposedEndpoint_ok hoe
    refine ⟨hs, .inr ⟨hhost, htarget, ?_⟩⟩
    cases hc : build.composeSnapshot with
    | none => simp [hc] at hentry
    | some c =>
        cases hl : c.services.lookup (composeName s r) with
        | none => simp [hc, hl] at hentry
        | some source => exact ⟨c, source, entry, rfl, hl, by simpa [hc, hl] using hentry, hport⟩

/-- **Ownership.**  Every endpoint that is computed for a build is its own. -/
theorem endpointsOf_owned {S : Settings} {build : BuildJob} {grpc : Bool} {m : BuildResources}
    {services : List DeploymentService} {l : List ProbeEndpoint} {e : ProbeEndpoint}
    (h : endpointsOf S build grpc m services = .ok l) (he : e ∈ l) :
    Owned S build m services grpc e := by
  obtain ⟨found, hf, h⟩ := bind_ok h
  cases h
  obtain ⟨es, hes, hmem⟩ := List.mem_flatten.mp he
  obtain ⟨s, hs, hse⟩ := mapM_mem hf hes
  split_ifs at hse with hown
  · split at hse
    · next r hr =>
        obtain ⟨hrm, hk, hmanaged, hstate, hn⟩ := ownedService_ok hr
        obtain ⟨hscheme, hports⟩ := serviceEndpoints_ok hse hmem
        exact ⟨s, hs, hown.1, hown.2, r, hrm, hk, hmanaged, hstate, hn, hscheme, hports⟩
    · cases hse
      cases hmem
  · cases hse
    cases hmem

/-! ### What is sent -/

namespace Wire

variable {α β : Type} {Q : Request → Prop}

/-- Everything that is sent satisfies `Q`. -/
def Sends (Q : Request → Prop) (p : Wire α) : Prop :=
  ∀ sent r, r ∈ (p sent).2 → r ∈ sent ∨ Q r

theorem sends_pure (a : α) : (pure a : Wire α).Sends Q := fun _ _ h => .inl h

theorem sends_fail (e : Failure) : (fail e : Wire α).Sends Q := fun _ _ h => .inl h

theorem sends_ofOption (e : Failure) (o : Option α) : (ofOption e o).Sends Q := by
  intro sent r h
  cases o <;> exact .inl h

theorem sends_ofExcept (x : Except Exc α) : (ofExcept x).Sends Q := by
  intro sent r h
  cases x <;> exact .inl h

theorem sends_look (f : List Request → α) : (look f).Sends Q := fun _ _ h => .inl h

theorem sends_ask {r : Request} (h : Q r) (reply : List Request → α) : (ask r reply).Sends Q := by
  intro sent r' hr
  rcases List.mem_append.mp hr with hr | hr
  · exact .inl hr
  · exact .inr (List.mem_singleton.mp hr ▸ h)

/-- What `k` sends matters for the results of `p` only. -/
theorem Sends.bind_of {R : α → Prop} {p : Wire α} {k : α → Wire β} (hp : p.Sends Q)
    (hr : ∀ sent a, (p sent).1 = .ok a → R a) (hk : ∀ a, R a → (k a).Sends Q) :
    (p >>= k).Sends Q := by
  intro sent r h
  cases hps : p sent with
  | mk x sent' =>
      cases x with
      | ok a =>
          rw [bind_of_ok hps] at h
          rcases hk a (hr sent a (by rw [hps])) sent' r h with h | h
          · exact hp sent r (hps ▸ h)
          · exact .inr h
      | error e =>
          rw [bind_of_error hps] at h
          exact hp sent r (hps ▸ h)

theorem Sends.bind {p : Wire α} {k : α → Wire β} (hp : p.Sends Q) (hk : ∀ a, (k a).Sends Q) :
    (p >>= k).Sends Q :=
  hp.bind_of (R := fun _ => True) (fun _ _ _ => trivial) fun a _ => hk a

theorem sends_ite {b : Prop} [Decidable b] {p q : Wire α} (hp : p.Sends Q) (hq : q.Sends Q) :
    (if b then p else q).Sends Q := by
  split
  · exact hp
  · exact hq

end Wire

/-- The path of `grpc.reflection`. -/
def reflectionPath : String := "/grpc.reflection.v1alpha.ServerReflection/ServerReflectionInfo"

/-- Descriptors have to be asked for: the body is JSON, and the payload does not have them. -/
def reflects (payload : JsonFields) : Bool :=
  isGrpc payload && (payload.lookup "body_base64").isNone &&
    (payload.lookup "descriptor_set_base64").isNone

/-- The requests that a normalised payload makes to an endpoint. -/
def Asked (payload : JsonFields) (route : String) (endpoint : ProbeEndpoint) (r : Request) :
    Prop :=
  r.endpoint = endpoint ∧ match r.message with
    | .http h => h = httpRequest payload route endpoint
    | .grpc (.unary route' _) _ => route' = route
    | .grpc _ _ => reflects payload = true

section Sends

variable {P : Protobuf} {C : Client P} {N : Network} {payload : JsonFields} {route : String}
  {endpoint : ProbeEndpoint}

theorem runHttp_sends : (runHttp C N payload route endpoint).Sends (Asked payload route endpoint) := by
  refine (Wire.sends_ask ⟨rfl, rfl⟩ _).bind fun reply => ?_
  refine Wire.Sends.bind ?_ fun r => Wire.sends_ofExcept _
  cases reply with
  | response r => exact Wire.sends_pure r
  | _ => exact Wire.sends_fail _

theorem fetch_sends (metadata : List (String × String)) {r : GrpcRequest} (files : Files)
    (h : Asked payload route endpoint ⟨endpoint, .grpc r metadata⟩) :
    (fetch N endpoint metadata r files).Sends (Asked payload route endpoint) := by
  refine (Wire.sends_look _).bind fun late => Wire.sends_ite (Wire.sends_fail _) ?_
  refine (Wire.sends_ask h _).bind fun found => ?_
  exact (Wire.sends_ofOption _ _).bind fun found => Wire.sends_ofOption _ _

theorem fetchAll_sends (metadata : List (String × String)) (names : List String) (files : Files)
    (h : reflects payload = true) :
    (fetchAll N endpoint metadata names files).Sends (Asked payload route endpoint) := by
  induction names generalizing files with
  | nil => exact Wire.sends_pure files
  | cons name names ih => exact (fetch_sends metadata files ⟨rfl, h⟩).bind fun files => ih files

theorem resolveAll_sends (metadata : List (String × String)) (n : Nat) (queried : List String)
    (files : Files) (h : reflects payload = true) :
    (resolveAll N endpoint metadata n queried files).Sends (Asked payload route endpoint) := by
  induction n generalizing queried files with
  | zero => exact Wire.sends_fail _
  | succ n ih =>
      refine Wire.sends_ite (Wire.sends_pure files) (Wire.sends_ite (Wire.sends_fail _) ?_)
      exact (fetchAll_sends metadata _ files h).bind fun files => ih _ files

theorem reflectionPool_sends (metadata : List (String × String)) (h : reflects payload = true) :
    (reflectionPool C N endpoint route metadata).Sends (Asked payload route endpoint) := by
  refine Wire.sends_ite (Wire.sends_fail _) ?_
  refine (Wire.sends_ofOption _ _).bind fun service => ?_
  refine (fetch_sends metadata _ ⟨rfl, h⟩).bind fun files => ?_
  exact (resolveAll_sends metadata _ _ files h).bind fun files => Wire.sends_ofOption _ _

theorem ownPool_sends {Q : Request → Prop} : (ownPool P payload).Sends Q := by
  unfold ownPool
  split
  · exact Wire.sends_pure _
  · refine (Wire.sends_ofExcept _).bind fun bytes => ?_
    exact (Wire.sends_ofOption _ _).bind fun pool => Wire.sends_pure _

theorem ownPool_some {value : Json} (h : payload.lookup "descriptor_set_base64" = some value)
    {sent : List Request} {pool : Option P.Pool}
    (hp : (ownPool P payload sent).1 = .ok pool) : pool ≠ none := by
  unfold ownPool at hp
  rw [h] at hp
  rintro rfl
  revert hp
  dsimp only [bind]
  cases decodeBase64 "descriptor_set_base64" maxDescriptorBytes value with
  | error e =>
      intro hp
      cases hp
  | ok bytes =>
      dsimp only [Wire.ofExcept]
      cases P.descriptorPool bytes <;>
        · intro hp
          cases hp

theorem requestPool_sends (metadata : List (String × String)) (hg : isGrpc payload = true)
    (hbody : payload.lookup "body_base64" = none) :
    (requestPool C N payload route endpoint metadata).Sends (Asked payload route endpoint) := by
  refine ownPool_sends.bind_of (R := fun pool => ∃ sent, (ownPool P payload sent).1 = .ok pool)
    (fun sent _ h => ⟨sent, h⟩) fun pool ⟨sent, hpool⟩ => ?_
  cases pool with
  | some pool => exact Wire.sends_pure pool
  | none =>
      -- Without descriptors of its own.
      refine reflectionPool_sends metadata ?_
      cases hd : payload.lookup "descriptor_set_base64" with
      | none => simp [reflects, hg, hbody, hd]
      | some value => exact absurd rfl (ownPool_some hd hpool)

theorem grpcMessage_sends (metadata : List (String × String)) (hg : isGrpc payload = true) :
    (grpcMessage C N payload route endpoint metadata).Sends (Asked payload route endpoint) := by
  unfold grpcMessage
  split
  · refine (Wire.sends_ofExcept _).bind fun message => ?_
    refine ownPool_sends.bind fun pool => ?_
    cases pool with
    | none => exact Wire.sends_pure _
    | some pool => exact (Wire.sends_ofOption _ _).bind fun method => Wire.sends_pure _
  · next hbody =>
      refine (requestPool_sends metadata hg hbody).bind fun pool => ?_
      refine (Wire.sends_ofOption _ _).bind fun method => ?_
      exact (Wire.sends_ofOption _ _).bind fun message => Wire.sends_pure _

theorem runGrpc_sends (hg : isGrpc payload = true) :
    (runGrpc C N payload route endpoint).Sends (Asked payload route endpoint) := by
  refine Wire.sends_ite (Wire.sends_fail _) (Wire.sends_ite (Wire.sends_fail _) ?_)
  refine (grpcMessage_sends _ hg).bind fun (message, reader) => ?_
  refine (Wire.sends_look _).bind fun late => ?_
  refine Wire.sends_ite (Wire.sends_fail _) (Wire.sends_ite (Wire.sends_fail _) ?_)
  refine (Wire.sends_ask ⟨rfl, rfl⟩ _).bind fun reply => ?_
  refine (Wire.sends_ofOption _ _).bind fun r => ?_
  refine Wire.Sends.bind ?_ fun json => Wire.sends_ofExcept _
  unfold responseJson
  split
  · exact Wire.sends_pure _
  · refine Wire.sends_ite (Wire.sends_pure _) ?_
    exact (Wire.sends_ofOption _ _).bind fun json => Wire.sends_pure _

theorem attempt_sends (sent : List Request) {r : Request}
    (h : r ∈ (attempt C N payload route endpoint sent).2) :
    r ∈ sent ∨ Asked payload route endpoint r := by
  have hsends : (if isGrpc payload then runGrpc C N payload route endpoint
      else runHttp C N payload route endpoint).Sends (Asked payload route endpoint) := by
    split
    · next hg => exact runGrpc_sends hg
    · exact runHttp_sends
  refine hsends sent r ?_
  unfold attempt at h
  dsimp only at h
  split at h
  · next he =>
      rw [he]
      exact h
  · next he =>
      rw [he]
      exact h

theorem attempts_sends {endpoints : List ProbeEndpoint} {sent : List Request} {r : Request}
    (h : r ∈ (attempts C N payload route endpoints sent).2) :
    r ∈ sent ∨ ∃ endpoint ∈ endpoints, Asked payload route endpoint r := by
  induction endpoints generalizing sent with
  | nil => exact .inl h
  | cons endpoint endpoints ih =>
      have first : r ∈ (attempt C N payload route endpoint sent).2 →
          r ∈ sent ∨ ∃ e ∈ endpoint :: endpoints, Asked payload route e r := by
        intro h
        rcases attempt_sends sent h with h | h
        · exact .inl h
        · exact .inr ⟨endpoint, List.mem_cons_self, h⟩
      simp only [attempts] at h
      split at h
      · exact first h
      · rcases ih h with h | ⟨e, he, h⟩
        · exact first h
        · exact .inr ⟨e, List.mem_cons_of_mem _ he, h⟩

/-- **Requests.**  Whatever is sent is sent by an accepted payload to one of its candidates. -/
theorem run_sends {payload : Json} {endpoints : List ProbeEndpoint} {r : Request}
    (h : r ∈ (run C N payload route endpoints).2) :
    ∃ normalized, validateProbePayload P payload (some route) = .ok (.obj normalized) ∧
      ∃ endpoint ∈ candidates normalized endpoints, Asked normalized route endpoint r := by
  unfold run at h
  split at h
  · cases h
  · next normalized chosen hs =>
      obtain ⟨⟨⟩, -, hs⟩ := bind_ok hs
      obtain ⟨q, hq, hs⟩ := bind_ok hs
      obtain ⟨fields, -, t, rfl⟩ := validateProbePayload_ok.mp hq
      cases hs
      have hsent : r ∈ (attempts C N t.result route (candidates t.result endpoints) []).2 := by
        dsimp only [objectOf] at h
        split at h <;> exact h
      rcases attempts_sends hsent with h | h
      · cases h
      · exact ⟨t.result, hq, h⟩

end Sends

/-! ### Paths -/

/-- What follows the scheme of a URL. -/
def afterScheme : List Char → List Char
  | ':' :: '/' :: '/' :: rest => rest
  | _ :: cs => afterScheme cs
  | [] => []

/-- The path of a URL: what follows its authority, up to a query or a fragment. -/
def urlPath (url : List Char) : List Char :=
  ((afterScheme url).dropWhile fun c => !(['/', '?', '#'].contains c)).takeWhile
    fun c => !(['?', '#'].contains c)

/-- The path a request is for. -/
def Request.path (r : Request) : List Char :=
  match r.message with
  | .http h => urlPath h.url.toList
  | .grpc (.unary route _) _ => route.toList
  | .grpc _ _ => reflectionPath.toList

/-- A host that ends where the authority does; the scope of an IPv6 address may have any character
in it. -/
def PlainHost (e : ProbeEndpoint) : Prop := ∀ c ∈ e.host.toList, c ∉ ['/', '?', '#']

theorem probeScheme_of_valid (e : ProbeEndpoint) : e.scheme ∈ probeSchemes := by
  have h := e.valid
  unfold probeEndpointChecks at h
  split_ifs at h with h₁ h₂ h₃ h₄
  simpa using h₄

theorem afterScheme_url {scheme : String} (h : scheme ∈ probeSchemes) (rest : List Char) :
    afterScheme ((scheme ++ "://").toList ++ rest) = rest := by
  simp only [probeSchemes, List.mem_cons, List.not_mem_nil, or_false] at h
  rcases h with rfl | rfl | rfl | rfl <;> rfl

theorem authority_plain {e : ProbeEndpoint} (h : PlainHost e) :
    ∀ c ∈ (authority e).toList, c ∉ ['/', '?', '#'] := by
  have hdigits : ∀ c ∈ (toString e.port).toList, c ∉ ['/', '?', '#'] := by
    intro c hc hbad
    have hd : c.isDigit = true :=
      Nat.isDigit_of_mem_toDigits (b := 10) (by decide) (by decide) (by
        simpa [toString, Nat.repr] using hc)
    have hnone : ∀ d ∈ ['/', '?', '#'], d.isDigit = false :=
      List.all_iff_forall_prop.mp (by decide)
    rw [hnone c hbad] at hd
    cases hd
  intro c hc
  unfold authority at hc
  split at hc
  · simp only [String.toList_append, List.mem_append] at hc
    rcases hc with (((hc | hc) | hc) | hc) | hc
    · rw [show c = '[' by simpa using hc]
      decide
    · exact h c hc
    · rw [show c = ']' by simpa using hc]
      decide
    · rw [show c = ':' by simpa using hc]
      decide
    · exact hdigits c hc
  · simp only [String.toList_append, List.mem_append] at hc
    rcases hc with (hc | hc) | hc
    · exact h c hc
    · rw [show c = ':' by simpa using hc]
      decide
    · exact hdigits c hc

/-- The path of the URL of a request is the route. -/
theorem httpRequest_path {payload : JsonFields} {route : String} {e : ProbeEndpoint}
    (hr : validateRoute route false = .ok ()) (h : PlainHost e) :
    urlPath (httpRequest payload route e).url.toList = route.toList := by
  obtain ⟨hslash, -, hsafe, -⟩ := validateRoute_ok.mp hr
  have hpath := safePath_of_iterate 2 hsafe
  obtain ⟨rest, hrest⟩ := startsWith_iff.mp hslash
  have hroute : route.toList = '/' :: rest := hrest
  have hurl : (httpRequest payload route e).url.toList =
      (e.scheme ++ "://").toList ++ ((authority e).toList ++ route.toList) := by
    simp [httpRequest, String.toList_append]
  have hauth := authority_plain h
  have hdrop : ((authority e).toList ++ route.toList).dropWhile
      (fun c => !(['/', '?', '#'].contains c)) = route.toList := by
    rw [List.dropWhile_append_of_pos fun c hc => by simpa using hauth c hc, hroute]
    rfl
  rw [urlPath, hurl, afterScheme_url (probeScheme_of_valid e), hdrop]
  refine List.takeWhile_eq_self_iff.mpr fun c hc => ?_
  have h₁ : c ≠ '?' := fun he => hpath.query (he ▸ hc)
  have h₂ : c ≠ '#' := fun he => hpath.fragment (he ▸ hc)
  simp [h₁, h₂]

/-! ### Headers -/

/-- A header of the transport: its authority, or its framing. -/
def overrides (name : String) : Bool :=
  forbiddenHeaders.contains (lower name) || startsWith (lower name) ":" ||
    startsWith (lower name) "grpc-"

theorem headerEntry_transport {name : String} {content : Json} {e : String × Json}
    (h : headerEntry true name content = .ok e) : overrides name = false := by
  cases content with
  | str c =>
      simp only [headerEntry] at h
      split_ifs at h with hn hf
      simpa [overrides] using hf
  | _ => cases h

/-- **Headers.**  No header of an accepted payload is one of the transport. -/
theorem headers_transport {P : Protobuf} {payload q : Json} {route : Option String}
    (h : validateProbePayload P payload route = .ok q) :
    ∀ e ∈ headersOf (objectOf (some payload)), overrides e.1 = false := by
  obtain ⟨fields, rfl, t, rfl⟩ := validateProbePayload_ok.mp h
  intro e he
  have hh := t.headers_ok
  dsimp only [headersOf, objectOf] at he
  cases hl : fields.lookup "headers" with
  | none =>
      rw [hl] at he
      cases he
  | some value =>
      rw [hl] at hh he
      obtain ⟨headers, rfl, -, -, hentry, -⟩ := validateHeaders_ok hh
      exact headerEntry_transport (hentry e he)

/-! ### Destinations -/

namespace Trace

variable {P : Protobuf} {route : Option String} {fields : JsonFields}

theorem isGrpc_result (t : Trace P route fields) : isGrpc t.result = isGrpc fields := by
  have hp := t.protocol_ok
  unfold isGrpc
  rw [t.lookup_protocol]
  unfold protocolOf at hp
  split at hp
  · next h =>
      rw [h, ← Except.ok.inj hp]
      rfl
  · next h =>
      rw [h, ← Except.ok.inj hp]
      rfl
  · next h =>
      rw [h, ← Except.ok.inj hp]
      rfl
  · cases hp

theorem reflects_result (t : Trace P route fields) : reflects t.result = reflects fields := by
  unfold reflects
  rw [t.isGrpc_result, t.lookup_eq (by decide), t.lookup_eq (by decide)]

/-- Accepted payloads that agree on the protocol, the service and the port have the same
candidates. -/
theorem candidates_eq {fields' : JsonFields} (t : Trace P route fields) (u : Trace P route fields')
    (hp : fields'.lookup "protocol" = fields.lookup "protocol")
    (hs : fields'.lookup "service_name" = fields.lookup "service_name")
    (ht : fields'.lookup "target_port" = fields.lookup "target_port")
    (endpoints : List ProbeEndpoint) :
    candidates u.result endpoints = candidates t.result endpoints := by
  have hgrpc : isGrpc u.result = isGrpc t.result := by
    rw [u.isGrpc_result, t.isGrpc_result, isGrpc, isGrpc, hp]
  unfold candidates
  rw [hgrpc, u.lookup_eq (by decide), u.lookup_eq (by decide), t.lookup_eq (by decide),
    t.lookup_eq (by decide), hs, ht]

end Trace

theorem selected_valid {P : Protobuf} {payload : Json} {q : JsonFields} {route : String}
    {endpoints : List ProbeEndpoint}
    (h : validateProbePayload P payload (some route) = .ok (.obj q)) :
    selected P payload route endpoints = candidates q endpoints := by
  simp only [selected, select, route_of_valid h, h, bind, Except.bind, pure, Except.pure, objectOf]

/-- **Destinations.**  Every request of a probe goes to an endpoint of a service that the build
owns, for the route or, where descriptors have to be asked for, to the reflection service there; a
URL is that of the endpoint with the route after it; no header of an accepted payload is one of the
transport; and payloads that agree on the protocol, the service and the port are offered the same
candidates. -/
theorem probe_destinations {P : Protobuf} (C : Client P) (N : Network) {S : Settings}
    {build : BuildJob} {m : BuildResources} {services : List DeploymentService} {payload : Json}
    {endpoints : List ProbeEndpoint} {route : String}
    (h : endpointsOf S build (isGrpc (objectOf (some payload))) m services = .ok endpoints) :
    (∀ r ∈ (run C N payload route endpoints).2,
      r.endpoint ∈ endpoints ∧
        Owned S build m services (isGrpc (objectOf (some payload))) r.endpoint ∧
        (∀ request, r.message = .http request →
          request.url = r.endpoint.scheme ++ "://" ++ authority r.endpoint ++ route) ∧
        (PlainHost r.endpoint → r.path = route.toList ∨
          (reflects (objectOf (some payload)) = true ∧ r.path = reflectionPath.toList))) ∧
      ((∃ q, validateProbePayload P payload (some route) = .ok q) →
        ∀ e ∈ headersOf (objectOf (some payload)), overrides e.1 = false) ∧
      ∀ payload' endpoints',
        (∀ key ∈ ["protocol", "service_name", "target_port"],
          (objectOf (some payload')).lookup key = (objectOf (some payload)).lookup key) →
        (∃ q, validateProbePayload P payload (some route) = .ok q) →
        (∃ q, validateProbePayload P payload' (some route) = .ok q) →
        endpointsOf S build (isGrpc (objectOf (some payload'))) m services = .ok endpoints' →
          endpoints' = endpoints ∧
            selected P payload' route endpoints' = selected P payload route endpoints := by
  refine ⟨fun r hr => ?_, fun ⟨q, hq⟩ => headers_transport hq, ?_⟩
  · obtain ⟨normalized, hq, e, he, rfl, hasked⟩ := run_sends hr
    have hmem : r.endpoint ∈ endpoints := List.mem_of_mem_filter he
    have hroute := route_of_valid hq
    refine ⟨hmem, endpointsOf_owned h hmem, fun request hrequest => ?_, fun hplain => ?_⟩
    · rw [hrequest] at hasked
      exact congrArg HttpRequest.url hasked
    obtain ⟨fields, rfl, t, ht⟩ := validateProbePayload_ok.mp hq
    obtain rfl := Json.obj.inj ht
    -- Only a request for descriptors leaves the route.
    obtain ⟨endpoint, message⟩ := r
    cases message with
    | http request =>
        dsimp only at hasked
        rw [hasked]
        exact .inl (httpRequest_path hroute hplain)
    | grpc request metadata =>
        cases request with
        | unary route' bytes =>
            dsimp only at hasked
            rw [hasked]
            exact .inl rfl
        | symbol | file => exact .inr ⟨t.reflects_result ▸ hasked, rfl⟩
  · rintro payload' endpoints' hagree ⟨q, hq⟩ ⟨q', hq'⟩ h'
    obtain ⟨fields, rfl, t, rfl⟩ := validateProbePayload_ok.mp hq
    obtain ⟨fields', rfl, u, rfl⟩ := validateProbePayload_ok.mp hq'
    have hp := hagree "protocol" (by decide)
    have hs := hagree "service_name" (by decide)
    have ht := hagree "target_port" (by decide)
    dsimp only [objectOf] at hp hs ht h h'
    -- The endpoints depend on the protocol alone.
    have he : endpoints' = endpoints := by
      rw [isGrpc, hp, ← isGrpc, h] at h'
      exact (Except.ok.inj h').symm
    refine ⟨he, ?_⟩
    rw [selected_valid hq, selected_valid hq', he]
    exact t.candidates_eq u hp hs ht endpoints

namespace Sample

def client : Client noDescriptors where
  maxResponseBytes := 65536
  order := .stable
  grpcInstalled := true
  reflectionInstalled := true
  serialize pool := pool.elim
  deserialize pool := pool.elim
  poolOf _ := none

/-- Nothing answers. -/
def silence : Network := ⟨fun _ => false, fun _ => .httpError, fun _ => none, fun _ => none, 1⟩

/-- A gRPC request with a JSON body, and without descriptors. -/
def listCart : Json :=
  .obj [("protocol", .str "grpc"), ("body", .obj []),
    ("assertions", .obj [("expected_grpc_status_list", .arr [.str "OK"])])]

def job : BuildJob :=
  { buildId := Orchestrator.Sample.build, appid := "app", gitRef := "main", serviceIds := ["id"] }

def manifest : BuildResources where
  buildId := Orchestrator.Sample.build
  appid := "app"
  resources := [{ kind := .service, name := "web", nativeId := some "id", state := .present }]

def services : List DeploymentService :=
  [{ serviceId := "id", appid := "app", buildId := Orchestrator.Sample.build, serviceName := "web"
     image := "image", status := "running"
     publishedPorts := [{ targetPort := 80, publishedPort := some 8080 }] }]

def endpoint : ProbeEndpoint := ⟨"web", "host", 8080, "grpc", some 80, by decide⟩

theorem endpoints_job : endpointsOf Orchestrator.Sample.settings job
    (isGrpc (objectOf (some listCart))) manifest services = .ok [endpoint] := by
  decide

theorem asks_reflection : (run client silence listCart "/shop.Cart/List" [endpoint]).2.map
    Request.path = [reflectionPath.toList] := by
  decide

end Sample

theorem probe_destinations_cart : endpointsOf Orchestrator.Sample.settings Sample.job
      (isGrpc (objectOf (some Sample.listCart))) Sample.manifest Sample.services =
        .ok [Sample.endpoint] ∧
    ∀ r ∈ (run Sample.client Sample.silence Sample.listCart "/shop.Cart/List"
      [Sample.endpoint]).2, r.endpoint ∈ [Sample.endpoint] :=
  ⟨Sample.endpoints_job, fun r hr =>
    ((probe_destinations Sample.client Sample.silence Sample.endpoints_job).1 r hr).1⟩

/-- The descriptors of a method are asked for at another path. -/
theorem probe_reflects : ¬ ∀ (P : Protobuf) (C : Client P) (N : Network) (S : Settings)
    (build : BuildJob) (m : BuildResources) (services : List DeploymentService) (payload : Json)
    (endpoints : List ProbeEndpoint) (route : String),
    endpointsOf S build (isGrpc (objectOf (some payload))) m services = .ok endpoints →
      ∀ r ∈ (run C N payload route endpoints).2, r.path = route.toList := by
  intro h
  have hpaths := Sample.asks_reflection
  obtain ⟨r, hr, hpath⟩ := List.mem_map.mp (hpaths ▸ List.mem_singleton_self reflectionPath.toList)
  have he := h _ _ _ _ _ _ _ Sample.listCart _ _ Sample.endpoints_job r hr
  rw [hpath] at he
  revert he
  decide

end Orchestrator.RouteProbes
