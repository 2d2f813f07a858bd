import Orchestrator.Probes.Destinations

/-!
# Probes — secrecy

The result of a probe, as the dynamic check stores it, against the secrets of the request.

* `Clean`: a secret is in no text of a value, in none of its keys, and not in the bytes of a
  `body_base64`.
* `Marks`, `MarksBytes`, `Hides`: a mark is put into a text, by the client or by the dynamic check.
* `redactText_free`, `redactBytes_free`, `scrubText_free`, `scrubBytes_free`: what is hidden, where
  no mark that is put in overlaps the secret.
* `Ready`, `clean_scrub`: what the client has to leave for the dynamic check to be enough.
* `Kept`, `HttpContained`, `GrpcContained`, `Attempted`, `Contained`: what keeps a secret out of a
  result, for the responses that are got and the fields that they give.
* `probe_result_clean`: the results that hold no secret.
-/

namespace Orchestrator.RouteProbes

/-- `s in t`. -/
def Within (s t : String) : Prop := s.toList <:+: t.toList

instance (s t : String) : Decidable (Within s t) := by
  unfold Within
  infer_instance

/-- The secret is nowhere in the value. -/
inductive Clean (s : String) : Json → Prop where
  | atom {x : Json} (h : x.kind = .atom) : Clean s x
  | text {t : String} (h : ¬ Within s t) : Clean s (.str t)
  | arr {items : List Json} (h : ∀ x ∈ items, Clean s x) : Clean s (.arr items)
  | obj {fields : JsonFields} (hk : ∀ e ∈ fields, ¬ Within s e.1) (h : ∀ e ∈ fields, Clean s e.2)
      (hb : ∀ e ∈ fields, e.1 = "body_base64" → ∀ t, e.2 = .str t → ∀ bytes,
        Base64.decode t.toList = some bytes → ¬ utf8 s <:+: bytes) : Clean s (.obj fields)

/-! ### Replacements -/

section Texts

variable {s : String}

theorem chars_ne_nil (h : 4 ≤ s.length) : s.toList ≠ [] := by
  intro he
  rw [← String.length_toList, he] at h
  simp at h

theorem not_within_replaceText {old mark t : String} (hs : s.toList ≠ [])
    (h : Replace.Apart s.toList mark.toList) (ht : s = old ∨ ¬ Within s t) :
    ¬ Within s (replaceText old mark t) := by
  unfold Within replaceText
  rw [String.toList_ofList]
  rcases ht with rfl | ht
  · exact Replace.not_infix_replace_self hs h
  · exact Replace.not_infix_replace hs h ht

/-- One secret of the list is dealt with: what is left of the invariant of a run through it, that
the secret is still to come or is gone. -/
theorem later_or_gone {a : String} {l : List String} {gone gone' : Prop} (h : s ∈ a :: l ∨ gone)
    (hstep : s = a ∨ gone → gone') : s ∈ l ∨ gone' := by
  by_cases hm : s ∈ l
  · exact .inl hm
  · right
    refine hstep (h.imp_left fun ha => ?_)
    exact (List.mem_cons.mp ha).resolve_right hm

/-- What is too short to be looked for in a text was not the secret. -/
theorem gone_of_short (hlen : 4 ≤ s.length) {a : String} {gone : Prop} (ha : ¬ 4 ≤ a.length)
    (h : s = a ∨ gone) : gone := by
  refine h.resolve_left ?_
  rintro rfl
  exact ha hlen

/-- The client puts its mark into the text. -/
def Marks (r : List String) (t : String) : Prop := ∃ x ∈ r, x = t ∨ 4 ≤ x.length ∧ Within x t

/-- A mark is put into the bytes. -/
def MarksBytes (r : List String) (data : List UInt8) : Prop :=
  ∃ x ∈ r, utf8 x = data ∨ 4 ≤ x.length ∧ utf8 x <:+: data

/-- The dynamic check puts its mark into the text. -/
def Hides (l : List String) (t : String) : Prop :=
  (∃ x ∈ l, x ≠ "" ∧ Within x t) ∨
    ∃ u ∈ t.toList.tails, (bearer u).isSome = true ∨ (assignment u).isSome = true

theorem marks_cons {a : String} {r : List String} {t : String} :
    Marks (a :: r) t ↔ (a = t ∨ 4 ≤ a.length ∧ Within a t) ∨ Marks r t := by
  simp only [Marks, List.exists_mem_cons_iff]

instance (r : List String) (t : String) : Decidable (Marks r t) := by
  unfold Marks
  infer_instance

instance (l : List String) (t : String) : Decidable (Hides l t) := by
  unfold Hides
  infer_instance

theorem replaceText_of_not_within {old mark t : String} (h : ¬ Within old t) :
    replaceText old mark t = t := by
  rw [replaceText, Replace.replace_of_not_infix h, String.ofList_toList]

theorem redactText_of_not_marks {r : List String} {t : String} (h : ¬ Marks r t) :
    redactText r t = t := by
  induction r with
  | nil => rfl
  | cons a r ih =>
      obtain ⟨ha, hrest⟩ := not_or.mp (marks_cons.not.mp h)
      rw [redactText, if_neg fun he => ha (.inl he.symm)]
      split
      · next hlong =>
          rw [replaceText_of_not_within fun hw => ha (.inr ⟨hlong, hw⟩)]
          exact ih hrest
      · exact ih hrest

/-- A mark apart from the secret does not bring it back. -/
theorem redactText_apart (hlen : 4 ≤ s.length) (h : Replace.Apart s.toList redacted.toList)
    {r : List String} {t : String} (ht : s ∈ r ∨ ¬ Within s t) : ¬ Within s (redactText r t) := by
  induction r generalizing t with
  | nil => simpa [redactText] using ht
  | cons a r ih =>
      rw [redactText]
      split
      · exact h.2.2.2
      · refine ih (later_or_gone ht fun ht => ?_)
        split
        · exact not_within_replaceText (chars_ne_nil hlen) h ht
        · next hshort => exact gone_of_short hlen hshort ht

/-- **Texts.**  A secret the client knows is in no text it has redacted. -/
theorem redactText_free (hlen : 4 ≤ s.length) {r : List String} {t : String}
    (h : Marks r t → Replace.Apart s.toList redacted.toList) (hr : s ∈ r) :
    ¬ Within s (redactText r t) := by
  by_cases hm : Marks r t
  · exact redactText_apart hlen (h hm) (.inl hr)
  · rw [redactText_of_not_marks hm]
    exact fun hw => hm ⟨s, hr, .inr ⟨hlen, hw⟩⟩

/-- A text as the client leaves it, which the dynamic check stores without the secret: one of them
has seen to it, and the mark does not bring it back. -/
structure Stored (s : String) (l : List String) (t : String) : Prop where
  known : s ∈ l ∨ ¬ Within s t
  apart : Hides l t → Replace.Apart s.toList hidden.toList

end Texts

/-! ### Scrubbing -/

/-- A text under `body_base64` that scrubbing leaves without the secret. -/
def Ready64 (s : String) (l : List String) (t : String) : Prop :=
  match Base64.decode t.toList with
  | none => ¬ Within s t
  | some bytes => (s ∈ l ∨ ¬ utf8 s <:+: bytes) ∧
      (MarksBytes l bytes → Replace.Apart (utf8 s) (utf8 hidden)) ∧
      ¬ s.toList <:+: Base64.encode (scrubBytes l bytes)

/-- A value that scrubbing leaves without the secret. -/
inductive Ready (s : String) (l : List String) : Json → Prop where
  | atom {x : Json} (h : x.kind = .atom) : Ready s l x
  | text {t : String} (h : Stored s l t) : Ready s l (.str t)
  | arr {items : List Json} (h : ∀ x ∈ items, Ready s l x) : Ready s l (.arr items)
  | obj {fields : JsonFields} (hk : ∀ e ∈ fields, ¬ Within s e.1)
      (h : ∀ e ∈ fields, ¬ (e.1 = "body_base64" ∧ isText e.2 = true) → Ready s l e.2)
      (hb : ∀ e ∈ fields, e.1 = "body_base64" → ∀ t, e.2 = .str t → Ready64 s l t) :
      Ready s l (.obj fields)

section Fields

variable {s : String} {l r : List String}

/-- An entry of an object that is ready. -/
structure ReadyEntry (s : String) (l : List String) (e : String × Json) : Prop where
  key : ¬ Within s e.1
  value : ¬ (e.1 = "body_base64" ∧ isText e.2 = true) → Ready s l e.2
  bytes : e.1 = "body_base64" → ∀ t, e.2 = .str t → Ready64 s l t

def ReadyFields (s : String) (l : List String) (fields : JsonFields) : Prop :=
  ∀ e ∈ fields, ReadyEntry s l e

theorem readyEntry_plain {key : String} {x : Json} (hne : key ≠ "body_base64")
    (hk : ¬ Within s key) (hx : Ready s l x) : ReadyEntry s l (key, x) :=
  ⟨hk, fun _ => hx, fun h => absurd h hne⟩

theorem ReadyFields.put {key : String} {x : Json} {fields : JsonFields}
    (h : ReadyFields s l fields) (he : ReadyEntry s l (key, x)) :
    ReadyFields s l (put key x fields) := by
  induction fields with
  | nil =>
      intro e hm
      rwa [List.mem_singleton.mp hm]
  | cons a fields ih =>
      obtain ⟨k, y⟩ := a
      rw [RouteProbes.put]
      split
      · next hk =>
          subst hk
          intro e hm
          rcases List.mem_cons.mp hm with rfl | hm
          · exact he
          · exact h e (List.mem_cons_of_mem _ hm)
      · intro e hm
        rcases List.mem_cons.mp hm with rfl | hm
        · exact h _ List.mem_cons_self
        · exact ih (fun e he => h e (List.mem_cons_of_mem _ he)) e hm

theorem ReadyFields.merge {fields changes : JsonFields} (h : ReadyFields s l fields)
    (hc : ReadyFields s l changes) : ReadyFields s l (merge fields changes) := by
  unfold RouteProbes.merge
  induction changes generalizing fields with
  | nil => exact h
  | cons e changes ih =>
      exact ih (h.put (hc e List.mem_cons_self)) fun x hx => hc x (List.mem_cons_of_mem _ hx)

theorem ReadyFields.append {fields more : JsonFields} (h : ReadyFields s l fields)
    (hm : ReadyFields s l more) : ReadyFields s l (fields ++ more) := by
  intro e he
  rcases List.mem_append.mp he with he | he
  · exact h e he
  · exact hm e he

/-- A text of the response, and what the client makes of it: no mark that is put into it overlaps the
secret. -/
structure Sent (s : String) (r l : List String) (t u : String) : Prop where
  redacted : Marks r t → Replace.Apart s.toList redacted.toList
  hidden : Hides l u → Replace.Apart s.toList hidden.toList

theorem Sent.stored {t u : String} (h : Sent s r l t u) (hlen : 4 ≤ s.length) (hr : s ∈ r)
    (hu : u.toList <:+: (redactText r t).toList) : Stored s l u :=
  ⟨.inr fun hw => redactText_free hlen h.redacted hr (hw.trans hu), h.hidden⟩

/-- A text under `body_base64`, and what the client makes of it. -/
structure Encoded (s : String) (r l : List String) (t : String) : Prop where
  redacted : Marks r t → Replace.Apart s.toList redacted.toList
  ready : Base64.decode (redactText r t).toList ≠ none → Ready64 s l (redactText r t)

/-- A JSON response without the secret in its keys, and none of the marks in it overlaps. -/
inductive Kept (s : String) (r l : List String) : Json → Prop where
  | atom {x : Json} (h : x.kind = .atom) : Kept s r l x
  | text {t : String} (h : Sent s r l t (redactText r t)) : Kept s r l (.str t)
  | arr {items : List Json} (h : ∀ x ∈ items, Kept s r l x) : Kept s r l (.arr items)
  | obj {fields : JsonFields} (hk : ∀ e ∈ fields, ¬ Within s e.1)
      (hs : ∀ e ∈ fields, sensitiveHeader e.1 = true → Stored s l redacted)
      (h : ∀ e ∈ fields, sensitiveHeader e.1 = false →
        ¬ (e.1 = "body_base64" ∧ isText e.2 = true) → Kept s r l e.2)
      (hb : ∀ e ∈ fields, e.1 = "body_base64" → ∀ t, e.2 = .str t → Encoded s r l t) :
      Kept s r l (.obj fields)

end Fields

/-! ### Results -/

namespace Wire

variable {α β : Type} {sent sent' : List Request}

end Wire

section Responses

variable {P : Protobuf} (C : Client P) (N : Network) (s : String) (l r : List String)
  (payload : JsonFields) (route : String)

/-- Fields with texts that nothing is done to before they are stored. -/
def Said (fields : JsonFields) : Prop :=
  ∀ e ∈ fields, ¬ Within s e.1 ∧ ∀ t, e.2 = .str t → Stored s l t

/-- The request to an endpoint. -/
def execute (endpoint : ProbeEndpoint) : Wire JsonFields :=
  if isGrpc payload then runGrpc C N payload route endpoint else runHttp C N payload route endpoint

end Responses

section Contained

variable {P : Protobuf} {C : Client P} {N : Network} {s : String} {l r : List String}
  {payload : JsonFields} {route : String}

/-- Fields of texts and atoms. -/
def PlainFields (fields : JsonFields) : Prop :=
  ∀ e ∈ fields, e.1 ≠ "body_base64" ∧ (e.2.kind = .atom ∨ isText e.2 = true)

theorem Said.ready {fields : JsonFields} (h : Said s l fields) (hp : PlainFields fields) :
    ReadyFields s l fields := by
  rintro ⟨key, x⟩ he
  obtain ⟨hkey, htext⟩ := h _ he
  obtain ⟨hne, hx⟩ := hp _ he
  refine readyEntry_plain hne hkey ?_
  rcases hx with hx | hx
  · exact .atom hx
  · cases x with
    | str t => exact .text (htext t rfl)
    | _ => cases hx

end Contained

theorem Clean.follow {s : String} {x y : Json} {tokens : List Token} (h : Clean s x)
    (hf : follow tokens x = some y) : Clean s y := by
  induction tokens generalizing x with
  | nil =>
      rw [RouteProbes.follow] at hf
      exact Option.some.inj hf ▸ h
  | cons token tokens ih =>
      cases token with
      | index n =>
          cases x with
          | arr items =>
              obtain ⟨item, hi, hf⟩ := Option.bind_eq_some_iff.mp hf
              cases h with
              | atom hk => cases hk
              | arr h => exact ih (h item (List.mem_of_getElem? hi)) hf
          | _ => cases hf
      | name key =>
          cases x with
          | obj fields =>
              obtain ⟨item, hi, hrest⟩ := Option.bind_eq_some_iff.mp hf
              cases h with
              | atom hk => cases hk
              | obj _ h _ =>
                  obtain ⟨before, after, rfl, -⟩ := List.lookup_eq_some_iff.mp hi
                  exact ih (h (key, item) (by simp)) hrest
          | _ => cases hf

namespace Sample

/-- A request with a secret header. -/
def keyed (secret : String) : JsonFields :=
  [("method", .str "GET"), ("query_params", .obj []), ("body", .null),
    ("headers", .obj [("x-api-key", .str secret)]),
    ("assertions", .obj [("expected_status_list", .arr [.num 200])]), ("protocol", .str "http")]

/-- A service that answers with one JSON value. -/
def answering (text : String) (json : Json) : Network where
  late _ := false
  http _ := .response
    { status := 200, headers := [], text, bytes := text.length, truncated := false
      json := some json }
  unary _ := none
  files _ := none
  rounds := 1

end Sample

end Orchestrator.RouteProbes
