import Orchestrator.Probes.Client
import Orchestrator.Probes.Normalized

/-!
# Probes — retries

`_retry_payload`: the request the debug agent repairs, held to the destination and the assertions
of the original.

* `Agrees`: two fields that are both missing, or equal as JSON.
* `retry_pinned`: when a retry is valid, and probes what the original probes.
-/

namespace Orchestrator.RouteProbes

/-! ### Pinned fields -/

/-- Both are missing, or both are there and equal. -/
def Agrees : Option Json → Option Json → Prop
  | none, none => True
  | some x, some y => x.Same y
  | _, _ => False

theorem same_leaf {x y : Json} (h : x.Same y) (hx : x.kind = .atom ∨ x.kind = .text) : x = y := by
  cases h with
  | leaf => rfl
  | arr | obj => rcases hx with hx | hx <;> cases hx

theorem agrees_of_same {x y : Option Json} (h : (x.getD .null).Same (y.getD .null))
    (hx : x ≠ some .null) (hy : y ≠ some .null) : Agrees x y := by
  cases x with
  | none =>
      cases y with
      | none => trivial
      | some y => exact absurd (congrArg some (same_leaf h (.inl rfl)).symm) hy
  | some x =>
      cases y with
      | none =>
          refine absurd ?_ hx
          generalize hn : (Option.getD none Json.null) = n at h
          cases h with
          | leaf => exact congrArg some hn.symm
          | arr | obj => cases hn
      | some y => exact h

theorem lookup_http {protocol : Protocol} {key : String} {l : JsonFields} {x : Json}
    (h : keysWithin protocol.fields l = true) (hx : l.lookup key = some x)
    (hk : key ∉ httpFields) : protocol = .grpc := by
  cases protocol with
  | http =>
      rw [lookup_of_keysWithin h hk] at hx
      cases hx
  | grpc => rfl

namespace Trace

variable {P : Protobuf} {route : String} {fields : JsonFields}

/-- The parts of a gRPC request that a normalisation has checked. -/
theorem grpc_checks (t : Trace P (some route) fields) (h : t.protocol = .grpc) :
    validateReflection (fields.lookup "reflection") = .ok () ∧
      validateDescriptors P (.str route) (fields.lookup "descriptor_set_base64") = .ok () := by
  rcases normalizeRequest_ok t.request_ok with ⟨hp, -⟩ | ⟨-, -, codes, -, hn, -⟩
  · rw [h] at hp
    cases hp
  · obtain ⟨-, -, -, -, hr, hd, -⟩ := normalizeGrpc_ok hn
    simp only [withHeaders] at hr hd
    rw [lookup_put (by decide), lookup_put (by decide)] at hr hd
    exact ⟨hr, hd⟩

/-- A pinned field is never null. -/
theorem pinned_ne_null (t : Trace P (some route) fields) {key : String} (h : key ∈ pinnedKeys) :
    t.result.lookup key ≠ some .null := by
  simp only [pinnedKeys, List.mem_cons, List.not_mem_nil, or_false] at h
  -- Each pinned field was checked, and `null` passes none of the checks.
  rcases h with rfl | rfl | rfl | rfl | rfl | rfl | rfl
  · rw [t.lookup_protocol]
    intro h
    cases h
  · rw [t.lookup_eq (by decide)]
    intro h
    have hp := t.path_ok
    rw [h] at hp
    obtain ⟨_, -, hp⟩ := bind_ok hp
    cases hp
  · rw [t.lookup_eq (by decide)]
    intro h
    have hn := t.name_ok
    rw [h] at hn
    cases hn
  · rw [t.lookup_eq (by decide)]
    intro h
    have hp := t.port_ok
    rw [h] at hp
    cases hp
  · rw [t.lookup_assertions]
    intro h
    cases h
  · intro h
    have hg := lookup_http t.keys h (by decide)
    rw [t.lookup_eq (by decide)] at h
    have hd := (t.grpc_checks hg).2
    rw [h] at hd
    obtain ⟨_, hd, -⟩ := bind_ok hd
    cases hd
  · intro h
    have hg := lookup_http t.keys h (by decide)
    rw [t.lookup_eq (by decide)] at h
    have hr := (t.grpc_checks hg).1
    rw [h] at hr
    cases hr

end Trace

/-! ### Retries -/

/-- What a retry that returns has been through. -/
theorem retryPayload_ok {P : Protobuf} {original : JsonFields} {retry c : Json} {route : String}
    (h : retryPayload P original retry (some route) = .ok c) :
    ∃ changes, retry = .obj changes ∧
      validateProbePayload P (.obj (merge original changes)) (some route) = .ok c ∧
      ∀ key ∈ pinnedKeys, (((objectOf (some c)).lookup key).getD .null).Same
        ((original.lookup key).getD .null) := by
  cases retry with
  | obj changes =>
      obtain ⟨candidate, hc, h⟩ := bind_ok h
      obtain ⟨⟨⟩, hcheck, h⟩ := bind_ok h
      cases h
      refine ⟨changes, rfl, hc, fun key hk => ?_⟩
      obtain ⟨new, hnew, h⟩ := bind_ok (checkEach_ok.mp hcheck key hk)
      obtain ⟨old, hold, h⟩ := bind_ok h
      unfold encodeJson at hnew hold
      split_ifs at hnew hold
      cases hnew
      cases hold
      split_ifs at h with hne
      exact same_of_canonical (not_not.mp hne)
  | _ => cases h

theorem select_fixed {P : Protobuf} {q : JsonFields} {route : String}
    {endpoints : List ProbeEndpoint} (hr : validateRoute route false = .ok ())
    (h : validateProbePayload P (.obj q) (some route) = .ok (.obj q)) :
    selected P (.obj q) route endpoints = candidates q endpoints := by
  simp only [selected, select, hr, h, bind, Except.bind, pure, Except.pure, objectOf]

theorem route_of_valid {P : Protobuf} {payload q : Json} {route : String}
    (h : validateProbePayload P payload (some route) = .ok q) :
    validateRoute route false = .ok () := by
  obtain ⟨fields, rfl, t, rfl⟩ := validateProbePayload_ok.mp h
  obtain ⟨⟨⟩, hr, -⟩ := bind_ok t.path_ok
  obtain ⟨h₁, h₂, h₃, -⟩ := validateRoute_ok.mp hr
  exact validateRoute_ok.mpr ⟨h₁, h₂, h₃, fun h => by cases h⟩

/-- Payloads that agree on the protocol, the service and the port match the same endpoints. -/
theorem candidates_congr {p q : JsonFields} (endpoints : List ProbeEndpoint)
    (hp : p.lookup "protocol" = q.lookup "protocol")
    (hs : p.lookup "service_name" = q.lookup "service_name")
    (ht : p.lookup "target_port" = q.lookup "target_port") :
    candidates p endpoints = candidates q endpoints := by
  simp only [candidates, isGrpc, hp, hs, ht]

theorem agrees_leaf {x y : Option Json} (h : Agrees x y)
    (hx : ∀ v, x = some v → v.kind = .atom ∨ v.kind = .text) : x = y := by
  cases x with
  | none =>
      cases y with
      | none => rfl
      | some _ => cases h
  | some v =>
      cases y with
      | none => cases h
      | some w => rw [same_leaf h (hx v rfl)]

namespace Trace

variable {P : Protobuf} {route : String} {fields : JsonFields}

theorem service_name_kind (t : Trace P (some route) fields) {x : Json}
    (h : t.result.lookup "service_name" = some x) :
    ∃ name, x = .str name ∧ name ≠ "" ∧ name.length ≤ 256 := by
  have hn := t.name_ok
  rw [t.lookup_eq (by decide)] at h
  rw [h] at hn
  cases x with
  | str name =>
      simp only [validateServiceName] at hn
      split_ifs at hn with he
      obtain ⟨h₁, h₂⟩ := not_or.mp he
      exact ⟨name, rfl, h₁, by omega⟩
  | _ => cases hn

theorem target_port_kind (t : Trace P (some route) fields) {x : Json}
    (h : t.result.lookup "target_port" = some x) :
    ∃ n : Nat, x = .num n ∧ isPort n = true := by
  have hp := t.port_ok
  rw [t.lookup_eq (by decide)] at h
  rw [h] at hp
  cases x with
  | num port =>
      simp only [validateTargetPort] at hp
      split_ifs at hp with hr
      refine ⟨port.toNat, by rw [Int.toNat_of_nonneg (by omega)], ?_⟩
      simp only [isPort, Bool.and_eq_true, decide_eq_true_eq]
      omega
  | _ => cases hp

/-- Some endpoint matches a normalised payload. -/
theorem matched (t : Trace P (some route) fields) :
    ∃ endpoint, candidates t.result [endpoint] = [endpoint] := by
  obtain ⟨name, hname, hs⟩ : ∃ name, (name ≠ "" ∧ name.length ≤ 256) ∧
      (t.result.lookup "service_name").all (· == .str name) = true := by
    cases h : t.result.lookup "service_name" with
    | none => exact ⟨"web", by decide, rfl⟩
    | some x =>
        obtain ⟨name, rfl, hn⟩ := t.service_name_kind h
        exact ⟨name, hn, by simp⟩
  obtain ⟨n, hn, hp⟩ : ∃ n : Nat, isPort n = true ∧
      (t.result.lookup "target_port").all (· == .num n) = true := by
    cases h : t.result.lookup "target_port" with
    | none => exact ⟨80, by decide, rfl⟩
    | some x =>
        obtain ⟨n, rfl, hn⟩ := t.target_port_kind h
        exact ⟨n, hn, by simp⟩
  have hvalid : probeEndpointChecks name "localhost" n "http" (some n) = .ok () := by
    have hlong : ¬ (name = "" ∨ 256 < name.length) := by
      rw [not_or]
      exact ⟨hname.1, by omega⟩
    have hhost : ¬ (253 < "localhost".length ∨
        (!(Addresses.isAddress "localhost".toList || isHostName "localhost")) = true) := by
      decide
    have hscheme : probeSchemes.contains "http" = true := by decide
    simp only [probeEndpointChecks, if_neg hlong, if_neg hhost, hn, hscheme, Option.any]
    rfl
  refine ⟨⟨name, "localhost", n, "http", some n, hvalid⟩, ?_⟩
  have hhttp : ["http", "https"].contains "http" = true := by decide
  simp only [candidates, List.filter_cons, hs, hp, hhttp, Bool.or_true, Bool.and_true, if_true,
    List.filter_nil]

end Trace

theorem selected_invalid {P : Protobuf} {q : Json} {route : String}
    {endpoints : List ProbeEndpoint} (h : maxPayloadBytes < q.bytes) :
    selected P q route endpoints = [] := by
  unfold selected
  split
  · next hs =>
      obtain ⟨⟨⟩, -, hs⟩ := bind_ok hs
      obtain ⟨_, hv, -⟩ := bind_ok hs
      have := bytes_of_valid hv
      omega
  · rfl

/-- `{**original, **retry}`. -/
def merged (original : JsonFields) (retry : Json) : Json :=
  .obj (merge original (objectOf (some retry)))

/-- **Retries.**  A retry that is accepted keeps the pinned fields of the original; it is valid, and
probes the endpoints of the original, exactly if it and the original are not too long. -/
theorem retry_pinned {P : Protobuf} {payload retry c : Json} {original : JsonFields}
    {route : String} (ho : validateProbePayload P payload (some route) = .ok (.obj original))
    (hc : retryPayload P original retry (some route) = .ok c) :
    ((∃ q, validateProbePayload P c (some route) = .ok q) ∧
      (∀ key ∈ pinnedKeys, Agrees ((objectOf (some c)).lookup key) (original.lookup key)) ∧
      ∀ endpoints, selected P c route endpoints = selected P (.obj original) route endpoints) ↔
    ((merged original retry).bytes : Int) + addedBytes (merged original retry) ≤ maxPayloadBytes ∧
      (Json.obj original).bytes ≤ maxPayloadBytes := by
  obtain ⟨changes, rfl, hv, hsame⟩ := retryPayload_ok hc
  have hlen := bytes_normalized hv
  have hvalid := normalized_again hv
  have hroute := route_of_valid hv
  obtain ⟨fields, -, t, rfl⟩ := validateProbePayload_ok.mp hv
  obtain ⟨_, -, u, hu⟩ := validateProbePayload_ok.mp ho
  obtain rfl := Json.obj.inj hu
  have hagrees : ∀ key ∈ pinnedKeys, Agrees (t.result.lookup key) (u.result.lookup key) :=
    fun key hk => agrees_of_same (hsame key hk) (t.pinned_ne_null hk) (u.pinned_ne_null hk)
  -- The candidates depend on pinned fields only.
  have hcandidates (endpoints : List ProbeEndpoint) :
      candidates t.result endpoints = candidates u.result endpoints := by
    refine candidates_congr endpoints ?_ ?_ ?_
    · refine agrees_leaf (hagrees _ (by decide)) fun v hv => ?_
      rw [t.lookup_protocol] at hv
      cases hv
      exact .inr rfl
    · refine agrees_leaf (hagrees _ (by decide)) fun v hv => ?_
      obtain ⟨name, rfl, -⟩ := t.service_name_kind hv
      exact .inr rfl
    · refine agrees_leaf (hagrees _ (by decide)) fun v hv => ?_
      obtain ⟨n, rfl, -⟩ := t.target_port_kind hv
      exact .inl rfl
  rw [merged, show objectOf (some (Json.obj changes)) = changes from rfl, ← hlen]
  constructor
  · rintro ⟨⟨q, hq⟩, -, hsel⟩
    have hb := bytes_of_valid hq
    refine ⟨by exact_mod_cast hb, ?_⟩
    -- An original that is too long has no candidates, and the retry has them.
    by_contra hlong
    obtain ⟨endpoint, he⟩ := t.matched
    have h := hsel [endpoint]
    rw [select_fixed hroute (hvalid.mpr hb), he,
      selected_invalid (by omega : maxPayloadBytes < (Json.obj u.result).bytes)] at h
    cases h
  · rintro ⟨hb, hob⟩
    have hfixed := hvalid.mpr (by exact_mod_cast hb)
    refine ⟨⟨_, hfixed⟩, hagrees, fun endpoints => ?_⟩
    rw [select_fixed hroute hfixed, select_fixed hroute ((normalized_again ho).mpr hob),
      hcandidates]

namespace Sample

/-- A normalised request, with the assertion `body_contains` as it is given. -/
def checked (body contains : Json) : JsonFields :=
  [("method", .str "GET"), ("query_params", .obj []), ("body", body),
    ("assertions", .obj [("expected_status_list", .arr [.num 200]), ("body_contains", contains)]),
    ("protocol", .str "http"), ("headers", .obj [])]

/-- The agent sends another body, and the assertion as a text. -/
def repair (body : Json) : Json :=
  .obj [("body", body), ("assertions",
    .obj [("expected_status_list", .arr [.num 200]), ("body_contains", .str "a")])]

theorem checked_bytes (body contains : Json) :
    (Json.obj (checked body contains)).bytes = 148 + body.bytes + contains.bytes := by
  rw [bytes_obj (l := checked body contains) (List.cons_ne_nil _ _)]
  have hassert : (Json.obj [("expected_status_list", .arr [.num 200]),
      ("body_contains", contains)]).bytes = 50 + contains.bytes := by
    rw [bytes_obj (List.cons_ne_nil _ _)]
    have h₁ : entryBytes ("expected_status_list", .arr [.num 200]) = 31 := by decide
    have h₂ : utf8Length (quoted "body_contains") = 15 := by decide
    simp only [List.map_cons, List.map_nil, List.sum_cons, List.sum_nil, h₁]
    simp only [entryBytes, h₂]
    omega
  have h₁ : entryBytes ("method", .str "GET") = 17 := by decide
  have h₂ : entryBytes ("query_params", .obj []) = 20 := by decide
  have h₃ : utf8Length (quoted "body") = 6 := by decide
  have h₄ : utf8Length (quoted "assertions") = 12 := by decide
  have h₅ : entryBytes ("protocol", .str "http") = 20 := by decide
  have h₆ : entryBytes ("headers", .obj []) = 15 := by decide
  simp only [checked, List.map_cons, List.map_nil, List.sum_cons, List.sum_nil, h₁, h₂, h₅, h₆]
  simp only [entryBytes, h₃, h₄, hassert]
  omega

/-- Either form of the assertion is accepted, as long as the request fits. -/
theorem checked_ok (body contains : Json) (hd : body.dumpable = true)
    (hc : contains = .str "a" ∨ contains = .arr [.str "a"])
    (hb : 148 + body.bytes + contains.bytes ≤ maxPayloadBytes) :
    validateProbePayload noDescriptors (.obj (checked body contains)) (some "/health") =
      .ok (.obj (checked body (.arr [.str "a"]))) := by
  have hcd : contains.dumpable = true := by rcases hc with rfl | rfl <;> rfl
  have hbound : boundedObject (.obj (checked body contains)) = .ok (checked body contains) := by
    refine boundedObject_iff.mpr ⟨?_, by rw [checked_bytes]; exact hb⟩
    simp [checked, Json.dumpable, fieldsDumpable, itemsDumpable, hd, hcd]
    decide
  refine validateProbePayload_ok.mpr ⟨checked body contains, rfl,
    { protocol := .http, headers := [],
      assertions := [("expected_status_list", .arr [.num 200]), ("body_contains", contains)],
      expected := [.num 200], request := _,
      stated := [("expected_status_list", .arr [.num 200]), ("body_contains", contains)],
      checked := [("expected_status_list", .arr [.num 200]), ("body_contains", .arr [.str "a"])],
      bounded := hbound, protocol_ok := rfl, within := rfl,
      path_ok := show validatePath (some "/health") false none = .ok () by decide,
      name_ok := rfl, port_ok := rfl, headers_ok := rfl, expected_ok := rfl, request_ok := rfl,
      assertions_ok := by rcases hc with rfl | rfl <;> rfl }, rfl⟩

theorem repair_ok (body : Json) (hd : body.dumpable = true)
    (hb : 151 + body.bytes ≤ maxPayloadBytes) :
    retryPayload noDescriptors (checked .null (.arr [.str "a"])) (repair body) (some "/health") =
      .ok (.obj (checked body (.arr [.str "a"]))) := by
  have hlen : (Json.str "a").bytes = 3 := by decide
  have hv := checked_ok body (.str "a") hd (.inl rfl) (by rw [hlen]; omega)
  have hkeys : ∀ key ∈ pinnedKeys, (checked body (.arr [.str "a"])).lookup key =
      (checked .null (.arr [.str "a"])).lookup key := by
    intro key hk
    simp only [pinnedKeys, List.mem_cons, List.not_mem_nil, or_false] at hk
    rcases hk with rfl | rfl | rfl | rfl | rfl | rfl | rfl <;> rfl
  have hdumpable : ∀ key ∈ pinnedKeys,
      (((checked .null (.arr [.str "a"])).lookup key).getD .null).dumpable = true := by
    decide
  have hsame : checkEach pinnedKeys (pinCheck (checked body (.arr [.str "a"]))
      (checked .null (.arr [.str "a"]))) = .ok () := by
    refine checkEach_ok.mpr fun key hk => ?_
    simp only [pinCheck, encodeJson, hkeys key hk, hdumpable key hk, if_true, bind, Except.bind,
      ne_eq, not_true, if_false]
    rfl
  have hmerge : merge (checked .null (.arr [.str "a"])) [("body", body), ("assertions",
      .obj [("expected_status_list", .arr [.num 200]), ("body_contains", .str "a")])] =
        checked body (.str "a") := by
    rfl
  simp only [retryPayload, repair, hmerge, hv, bind, Except.bind, objectOf, hsame]
  rfl

end Sample

theorem retry_pinned_short : ∃ q, validateProbePayload Sample.noDescriptors
    (.obj (Sample.checked .null (.arr [.str "a"]))) (some "/health") = .ok q := by
  have ho := Sample.checked_ok .null (.arr [.str "a"]) rfl (.inr rfl)
    (by decide)
  have hc := Sample.repair_ok .null rfl (by decide)
  exact ((retry_pinned ho hc).mpr (by decide +kernel)).1

/-- At the limit, an assertion that is a text again makes a retry too long. -/
theorem retry_grows : ¬ ∀ (P : Protobuf) (payload retry c : Json) (original : JsonFields)
    (route : String), validateProbePayload P payload (some route) = .ok (.obj original) →
    retryPayload P original retry (some route) = .ok c →
    (∃ q, validateProbePayload P c (some route) = .ok q) ∧
      (∀ key ∈ pinnedKeys, Agrees ((objectOf (some c)).lookup key) (original.lookup key)) ∧
      ∀ endpoints, selected P c route endpoints = selected P (.obj original) route endpoints := by
  intro h
  have hlen := Sample.padding_bytes (maxPayloadBytes - 153)
  have hmax : maxPayloadBytes = 1048576 := rfl
  have ho := Sample.checked_ok .null (.arr [.str "a"]) rfl (.inr rfl)
    (by decide)
  have hc := Sample.repair_ok (Sample.padding (maxPayloadBytes - 153)) rfl (by
    rw [hlen]
    omega)
  obtain ⟨⟨q, hq⟩, -⟩ := h _ _ _ _ _ _ ho hc
  have hb := bytes_of_valid hq
  have ha : (Json.arr [.str "a"]).bytes = 5 := by decide
  rw [Sample.checked_bytes, hlen, ha] at hb
  omega

end Orchestrator.RouteProbes
