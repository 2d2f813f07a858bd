import Mathlib
import Orchestrator.Probes.Payloads

/-!
# Probes — normalised payloads

What normalisation leaves, and how long it is.

* `validateHeaders_fixed`, `codes_fixed`, `validateAssertions_fixed`, `normalizeRequest_fixed`:
  a normalised part is normalised to itself.
* `Trace`: a normalisation, part by part.
* `normalized_again`: a normalised payload is valid exactly if it is not too long.
* `addedBytes`, `bytes_normalized`: what normalisation adds to the length of a payload.
* `probe_payload_stable`: the payloads that stay valid.
-/

namespace Orchestrator.RouteProbes

/-! ### Headers -/

theorem toLower_toLower (c : Char) : c.toLower.toLower = c.toLower := by
  by_cases h : c.val ≥ 'A'.val ∧ c.val ≤ 'Z'.val
  · have table : ∀ n, n < 128 → (Char.ofNat n).toLower.toLower = (Char.ofNat n).toLower := by
      decide
    have hle : c.toNat ≤ 90 := UInt32.le_iff_toNat_le.mp h.2
    have hc := table c.toNat (by omega)
    rwa [Char.ofNat_toNat] at hc
  · have hc : c.toLower = c := by rw [Char.toLower, dif_neg h]
    rw [hc, hc]

theorem lower_lower (s : String) : lower (lower s) = lower s := by
  simp only [lower, String.toList_ofList, List.map_map]
  congr 1
  exact List.map_congr_left fun c _ => toLower_toLower c

/-- A character of a header name is one byte long, unescaped, and stays so in lower case. -/
theorem headerChar_spec {c : Char}
    (h : (c.isAlphanum || "!#$%&'*+.^_`|~-".toList.contains c) = true) :
    escapeChar c = [c] ∧ escapeChar c.toLower = [c.toLower] ∧
      c.utf8Size = 1 ∧ c.toLower.utf8Size = 1 ∧
      (c.toLower.isAlphanum || "!#$%&'*+.^_`|~-".toList.contains c.toLower) = true := by
  have table : ∀ n, n < 128 →
      ((Char.ofNat n).isAlphanum || "!#$%&'*+.^_`|~-".toList.contains (Char.ofNat n)) = true →
      escapeChar (Char.ofNat n) = [Char.ofNat n] ∧
        escapeChar (Char.ofNat n).toLower = [(Char.ofNat n).toLower] ∧
        (Char.ofNat n).utf8Size = 1 ∧ (Char.ofNat n).toLower.utf8Size = 1 ∧
        ((Char.ofNat n).toLower.isAlphanum ||
          "!#$%&'*+.^_`|~-".toList.contains (Char.ofNat n).toLower) = true := by
    decide
  have hlt : c.toNat < 128 := by
    rw [Bool.or_eq_true] at h
    rcases h with h | h
    · simp only [Char.isAlphanum, Char.isAlpha, Char.isUpper, Char.isLower, Char.isDigit,
        Bool.or_eq_true, Bool.and_eq_true, decide_eq_true_eq, ge_iff_le,
        UInt32.le_iff_toNat_le] at h
      have hv : c.toNat = c.val.toNat := rfl
      rcases h with (h | h) | h <;>
      · have := h.2
        simp at this
        omega
    · have hall : ∀ d ∈ "!#$%&'*+.^_`|~-".toList, d.toNat < 128 :=
        List.all_iff_forall_prop.mp (by decide)
      exact hall c (by simpa using h)
  have hc := table c.toNat hlt
  rw [Char.ofNat_toNat] at hc
  exact hc h

/-- What a header becomes. -/
theorem headerEntry_ok {request : Bool} {name : String} {content : Json} {e : String × Json}
    (h : headerEntry request name content = .ok e) :
    e = (lower name, content) ∧ isHeaderName name = true ∧ isText content = true ∧
      headerEntry request e.1 e.2 = .ok e := by
  cases content with
  | str c =>
      simp only [headerEntry] at h
      split_ifs at h with hn hf
      cases h
      simp only [Bool.or_eq_true, Bool.not_eq_true', not_or, Bool.not_eq_false] at hn
      have hname : isHeaderName (lower name) = true := by
        have hw := hn.1
        simp only [isHeaderName, lower, String.toList_ofList, Bool.and_eq_true, List.all_map,
          List.all_eq_true] at hw ⊢
        refine ⟨by simpa using hw.1, fun d hd => (headerChar_spec (hw.2 d hd)).2.2.2.2⟩
      refine ⟨rfl, hn.1, rfl, ?_⟩
      simp only [headerEntry, hname, hn.2, lower_lower, hf]
      rfl
  | _ => cases h

/-- The loop has taken every header in turn. -/
theorem headersLoop_ok {request : Bool} {l acc r : JsonFields}
    (h : headersLoop request l acc = .ok r) :
    r = acc ++ l.map (fun e => (lower e.1, e.2)) ∧
      (∀ e ∈ l, headerEntry request e.1 e.2 = .ok (lower e.1, e.2)) ∧
      ((acc.map Prod.fst).Nodup → (r.map Prod.fst).Nodup) := by
  induction l generalizing acc with
  | nil =>
      cases h
      exact ⟨by simp, by simp, id⟩
  | cons e l ih =>
      obtain ⟨name, content⟩ := e
      simp only [headersLoop] at h
      obtain ⟨e, he, h⟩ := bind_ok h
      obtain ⟨rfl, -⟩ := headerEntry_ok he
      split_ifs at h with hc
      · cases h
      · obtain ⟨hr, hl, hn⟩ := ih h
        refine ⟨by simpa using hr, ?_, fun hacc => hn ?_⟩
        · intro e hm
          rcases List.mem_cons.mp hm with rfl | hm
          · exact he
          · exact hl e hm
        · rw [List.map_append, List.nodup_append]
          refine ⟨hacc, by simp, ?_⟩
          intro a ha b hb hab
          simp only [List.map_cons, List.map_nil, List.mem_singleton] at hb
          subst hab hb
          exact hc (by simpa using ha)

theorem headersLoop_of {request : Bool} {l acc : JsonFields}
    (he : ∀ e ∈ l, headerEntry request e.1 e.2 = .ok e)
    (hn : ((acc ++ l).map Prod.fst).Nodup) : headersLoop request l acc = .ok (acc ++ l) := by
  induction l generalizing acc with
  | nil => rw [headersLoop, List.append_nil]
  | cons e l ih =>
      have hmem : (acc.map Prod.fst).contains e.1 = false := by
        rw [List.map_append, List.nodup_append] at hn
        have hne : e.1 ∉ acc.map Prod.fst := fun hm => hn.2.2 e.1 hm e.1 (by simp) rfl
        simpa using hne
      rw [headersLoop, he e List.mem_cons_self]
      have hrest := @ih (acc ++ [e]) (fun x hx => he x (List.mem_cons_of_mem _ hx))
        (by simpa using hn)
      rw [List.append_assoc] at hrest
      simp only [bind, Except.bind, hmem, Bool.false_eq_true, if_false]
      exact hrest

/-- What checked headers are. -/
theorem validateHeaders_ok {request : Bool} {value : Json} {headers : JsonFields}
    (h : validateHeaders request value = .ok headers) :
    ∃ fields, value = .obj fields ∧ fields.length ≤ 100 ∧
      headers = fields.map (fun e => (lower e.1, e.2)) ∧
      (∀ e ∈ fields, headerEntry request e.1 e.2 = .ok (lower e.1, e.2)) ∧
      (headers.map Prod.fst).Nodup := by
  cases value with
  | obj fields =>
      simp only [validateHeaders] at h
      split_ifs at h with hl
      obtain ⟨hr, he, hn⟩ := headersLoop_ok h
      exact ⟨fields, rfl, by omega, hr, he, hn (by simp)⟩
  | _ => cases h

/-- Headers that have been checked are unchanged by another check. -/
theorem validateHeaders_fixed {request : Bool} {value : Json} {headers : JsonFields}
    (h : validateHeaders request value = .ok headers) :
    validateHeaders request (.obj headers) = .ok headers := by
  obtain ⟨fields, -, hl, hr, he, hn⟩ := validateHeaders_ok h
  simp only [validateHeaders]
  rw [if_neg (by rw [hr, List.length_map]; omega)]
  refine headersLoop_of (fun e hm => ?_) hn
  rw [hr] at hm
  obtain ⟨x, hx, rfl⟩ := List.mem_map.mp hm
  exact (headerEntry_ok (he x hx)).2.2.2

/-- Each header is a text. -/
theorem validateHeaders_texts {request : Bool} {value : Json} {headers : JsonFields}
    (h : validateHeaders request value = .ok headers) : ∀ e ∈ headers, isText e.2 = true := by
  obtain ⟨fields, -, -, hr, he, -⟩ := validateHeaders_ok h
  intro e hm
  rw [hr] at hm
  obtain ⟨x, hx, rfl⟩ := List.mem_map.mp hm
  exact (headerEntry_ok (he x hx)).2.2.1

/-! ### Lengths -/

@[simp] theorem utf8Length_nil : utf8Length [] = 0 := rfl

@[simp] theorem utf8Length_cons (c : Char) (s : List Char) :
    utf8Length (c :: s) = c.utf8Size + utf8Length s := by
  simp [utf8Length]

@[simp] theorem utf8Length_append (s t : List Char) :
    utf8Length (s ++ t) = utf8Length s + utf8Length t := by
  simp [utf8Length]

/-- The length of an entry, with its separators. -/
def entryBytes (e : String × Json) : Nat := utf8Length (quoted e.1) + 4 + e.2.bytes

theorem fieldsText_length (l : JsonFields) :
    utf8Length (fieldsText l) = (l.map entryBytes).sum + 1 := by
  induction l with
  | nil => rfl
  | cons e l ih =>
      obtain ⟨k, x⟩ := e
      simp only [fieldsText, utf8Length_cons, utf8Length_append, ih, List.map_cons, List.sum_cons,
        entryBytes, Json.bytes]
      have h₁ : ','.utf8Size = 1 := by decide
      have h₂ : ' '.utf8Size = 1 := by decide
      have h₃ : ':'.utf8Size = 1 := by decide
      omega

theorem bytes_obj {l : JsonFields} (h : l ≠ []) :
    (Json.obj l).bytes = (l.map entryBytes).sum := by
  cases l with
  | nil => exact absurd rfl h
  | cons e l =>
      obtain ⟨k, x⟩ := e
      simp only [Json.bytes, Json.text, utf8Length_cons, utf8Length_append, fieldsText_length,
        List.map_cons, List.sum_cons, entryBytes]
      have h₁ : '\x7b'.utf8Size = 1 := by decide
      have h₂ : ' '.utf8Size = 1 := by decide
      have h₃ : ':'.utf8Size = 1 := by decide
      omega

theorem itemsText_length (l : List Json) :
    utf8Length (itemsText l) = (l.map fun x => x.bytes + 2).sum + 1 := by
  induction l with
  | nil => rfl
  | cons x l ih =>
      simp only [itemsText, utf8Length_cons, utf8Length_append, ih, List.map_cons, List.sum_cons,
        Json.bytes]
      have h₁ : ','.utf8Size = 1 := by decide
      have h₂ : ' '.utf8Size = 1 := by decide
      omega

theorem bytes_arr {l : List Json} (h : l ≠ []) :
    (Json.arr l).bytes = (l.map fun x => x.bytes + 2).sum := by
  cases l with
  | nil => exact absurd rfl h
  | cons x l =>
      simp only [Json.bytes, Json.text, utf8Length_cons, utf8Length_append, itemsText_length,
        List.map_cons, List.sum_cons]
      have h₁ : '['.utf8Size = 1 := by decide
      omega

/-- How much longer an object is with `key` set to `value`. -/
def gain (key : String) (value : Json) (l : JsonFields) : Int :=
  match l.lookup key with
  | some x => (value.bytes : Int) - x.bytes
  | none => entryBytes (key, value)

theorem sum_put (key : String) (value : Json) (l : JsonFields) :
    (((put key value l).map entryBytes).sum : Int) = (l.map entryBytes).sum + gain key value l := by
  induction l with
  | nil => simp [put, gain]
  | cons e l ih =>
      obtain ⟨k, x⟩ := e
      by_cases h : k = key
      · subst h
        simp only [put, if_pos, List.map_cons, List.sum_cons, gain, List.lookup_cons_self,
          entryBytes]
        omega
      · simp only [put, if_neg h, List.map_cons, List.sum_cons, gain,
          List.lookup_cons, beq_false_of_ne (Ne.symm h)] at ih ⊢
        omega

theorem put_ne_nil (key : String) (value : Json) (l : JsonFields) : put key value l ≠ [] := by
  cases l with
  | nil => exact List.cons_ne_nil _ _
  | cons e l =>
      rw [put]
      split <;> exact List.cons_ne_nil _ _

theorem bytes_put {l : JsonFields} (h : l ≠ []) (key : String) (value : Json) :
    ((Json.obj (put key value l)).bytes : Int) = (Json.obj l).bytes + gain key value l := by
  rw [bytes_obj (put_ne_nil _ _ _), bytes_obj h]
  exact sum_put key value l

/-- A header name is as long in lower case. -/
theorem quoted_lower_length {name : String} (h : isHeaderName name = true) :
    utf8Length (quoted (lower name)) = utf8Length (quoted name) := by
  have hchars : ∀ s : List Char,
      (∀ c ∈ s, (c.isAlphanum || "!#$%&'*+.^_`|~-".toList.contains c) = true) →
      utf8Length ((s.map Char.toLower).flatMap escapeChar) = utf8Length (s.flatMap escapeChar) := by
    intro s hs
    induction s with
    | nil => rfl
    | cons c s ih =>
        obtain ⟨h₁, h₂, h₃, h₄, -⟩ := headerChar_spec (hs c List.mem_cons_self)
        simp only [List.map_cons, List.flatMap_cons, h₁, h₂, List.cons_append, List.nil_append,
          utf8Length_cons, h₃, h₄, ih fun d hd => hs d (List.mem_cons_of_mem _ hd)]
  simp only [isHeaderName, Bool.and_eq_true, List.all_eq_true] at h
  simp only [quoted, lower, String.toList_ofList, utf8Length_cons, utf8Length_append,
    hchars _ h.2]

theorem validateHeaders_length {request : Bool} {value : Json} {headers : JsonFields}
    (h : validateHeaders request value = .ok headers) : (Json.obj headers).bytes = value.bytes := by
  obtain ⟨fields, rfl, -, hr, he, -⟩ := validateHeaders_ok h
  rw [hr]
  cases fields with
  | nil => rfl
  | cons e fields =>
      have hne : (e :: fields).map (fun e => (lower e.1, e.2)) ≠ [] := by simp
      rw [bytes_obj hne, bytes_obj (List.cons_ne_nil e fields), List.map_map]
      refine congrArg List.sum (List.map_congr_left fun x hx => ?_)
      have hname := (headerEntry_ok (he x hx)).2.1
      simp only [Function.comp, entryBytes, quoted_lower_length hname]

/-! ### Codes -/

theorem upper_name {name : String} (h : name ∈ grpcCodes ∨ name ∈ httpMethods) :
    upper name = name := by
  have hall : ∀ name ∈ grpcCodes ++ httpMethods, upper name = name := by decide
  exact hall name (List.mem_append.mpr h)

/-- The normal form of a code is a name. -/
theorem normalizeCode_ok {c d : Json} (h : normalizeCode c = .ok d) :
    ∃ name ∈ grpcCodes, d = .str name := by
  cases c with
  | num n =>
      simp only [normalizeCode] at h
      split at h
      · next name hn =>
          cases h
          split_ifs at hn with hp
          exact ⟨name, List.mem_of_getElem? hn, rfl⟩
      · cases h
  | str code =>
      simp only [normalizeCode] at h
      split_ifs at h with hc
      cases h
      exact ⟨_, by simpa using hc, rfl⟩
  | _ => cases h

theorem normalizeCode_name {name : String} (h : name ∈ grpcCodes) :
    normalizeCode (.str name) = .ok (.str name) := by
  simp [normalizeCode, upper_name (.inl h), h]

theorem codes_fixed {l l' : List Json} (h : l.mapM normalizeCode = .ok l') :
    l'.mapM normalizeCode = .ok l' := by
  replace h := mapM_ok h
  induction h with
  | nil => rfl
  | cons hab _ ih =>
      obtain ⟨name, hn, rfl⟩ := normalizeCode_ok hab
      rw [List.mapM_cons, normalizeCode_name hn, ih]
      rfl

theorem httpMethod_ok {method : Json} {m : String} (h : httpMethod method = .ok m) :
    ∃ raw, method = .str raw ∧ m = upper raw ∧ m ∈ httpMethods := by
  cases method with
  | str raw =>
      simp only [httpMethod] at h
      split_ifs at h with hc
      cases h
      exact ⟨raw, rfl, rfl, by simpa using hc⟩
  | _ => cases h

theorem httpMethod_name {m : String} (h : m ∈ httpMethods) : httpMethod (.str m) = .ok m := by
  simp [httpMethod, upper_name (.inr h), h]

/-! ### Assertions -/

theorem expectedHeaders_ok {a b : JsonFields} (h : expectedHeaders a = .ok b) :
    (a.lookup "expected_headers" = none ∧ b = a) ∨ ∃ value headers,
      a.lookup "expected_headers" = some value ∧ validateHeaders false value = .ok headers ∧
        b = put "expected_headers" (.obj headers) a := by
  unfold expectedHeaders at h
  split at h
  · next hn =>
      cases h
      exact .inl ⟨hn, rfl⟩
  · next value hv =>
      obtain ⟨headers, hh, h⟩ := bind_ok h
      cases h
      exact .inr ⟨value, headers, hv, hh, rfl⟩

theorem bodyContains_ok {a b : JsonFields} (h : bodyContains a = .ok b) :
    (∃ item, a.lookup "body_contains" = some (.str item) ∧
      b = put "body_contains" (.arr [.str item]) a) ∨
    (b = a ∧ ∀ item, a.lookup "body_contains" ≠ some (.str item)) := by
  unfold bodyContains at h
  split at h
  · next hn =>
      cases h
      exact .inr ⟨rfl, fun item => by simp [hn]⟩
  · next item hv =>
      cases h
      exact .inl ⟨item, hv, rfl⟩
  · next items hv =>
      split_ifs at h
      cases h
      exact .inr ⟨rfl, fun item => by simp [hv]⟩
  · cases h

/-- The parts of the assertions, in turn. -/
theorem validateAssertions_ok {a c : JsonFields} :
    validateAssertions a = .ok c ↔ ∃ b, expectedHeaders a = .ok b ∧ bodyContains b = .ok c ∧
      validateBodyEquals (b.lookup "body_equals") = .ok () ∧
      validateJsonPaths (c.lookup "json_path_equals") = .ok () := by
  constructor
  · intro h
    obtain ⟨b, hb, h⟩ := bind_ok h
    obtain ⟨⟨⟩, he, h⟩ := bind_ok h
    obtain ⟨c', hc, h⟩ := bind_ok h
    obtain ⟨⟨⟩, hp, h⟩ := bind_ok h
    cases h
    exact ⟨b, hb, hc, he, hp⟩
  · rintro ⟨b, hb, hc, he, hp⟩
    unfold validateAssertions
    rw [hb]
    simp only [bind, Except.bind, he, hc, hp]
    rfl

theorem expectedHeaders_lookup {a b : JsonFields} (h : expectedHeaders a = .ok b) {key : String}
    (hk : key ≠ "expected_headers") : b.lookup key = a.lookup key := by
  rcases expectedHeaders_ok h with ⟨-, rfl⟩ | ⟨_, _, -, -, rfl⟩
  · rfl
  · exact lookup_put hk _ _

theorem bodyContains_lookup {a b : JsonFields} (h : bodyContains a = .ok b) {key : String}
    (hk : key ≠ "body_contains") : b.lookup key = a.lookup key := by
  rcases bodyContains_ok h with ⟨_, -, rfl⟩ | ⟨rfl, -⟩
  · exact lookup_put hk _ _
  · rfl

theorem validateAssertions_lookup {a c : JsonFields} (h : validateAssertions a = .ok c)
    {key : String} (h₁ : key ≠ "expected_headers") (h₂ : key ≠ "body_contains") :
    c.lookup key = a.lookup key := by
  obtain ⟨b, hb, hc, -, -⟩ := validateAssertions_ok.mp h
  rw [bodyContains_lookup hc h₂, expectedHeaders_lookup hb h₁]

/-- Assertions that have been checked are unchanged by another check. -/
theorem validateAssertions_fixed {a c : JsonFields} (h : validateAssertions a = .ok c) :
    validateAssertions c = .ok c := by
  obtain ⟨b, hb, hc, he, hp⟩ := validateAssertions_ok.mp h
  have hheaders : expectedHeaders c = .ok c := by
    have hlookup : c.lookup "expected_headers" = b.lookup "expected_headers" :=
      bodyContains_lookup hc (by decide)
    rcases expectedHeaders_ok hb with ⟨hn, rfl⟩ | ⟨value, headers, -, hv, rfl⟩
    · simp [expectedHeaders, hlookup, hn]
    · rw [lookup_put_self] at hlookup
      simp only [expectedHeaders, hlookup, validateHeaders_fixed hv, bind, Except.bind]
      rw [put_of_lookup hlookup]
      rfl
  have hcontains : bodyContains c = .ok c := by
    rcases bodyContains_ok hc with ⟨item, -, rfl⟩ | ⟨rfl, -⟩
    · simp [bodyContains, isText]
    · exact hc
  have hequals : validateBodyEquals (c.lookup "body_equals") = .ok () := by
    rwa [bodyContains_lookup hc (by decide)]
  exact validateAssertions_ok.mpr ⟨c, hheaders, hcontains, hequals, hp⟩

theorem keysWithin_put {allowed : List String} {key : String} {value : Json} {l : JsonFields} :
    keysWithin allowed (put key value l) = true ↔
      key ∈ allowed ∧ keysWithin allowed l = true := by
  simp only [keysWithin, List.all_eq_true, mem_keys_put, List.contains_iff_mem]
  constructor
  · intro h
    exact ⟨h key (.inl rfl), fun k hk => h k (.inr hk)⟩
  · rintro ⟨h₁, h₂⟩ k (rfl | hk)
    · exact h₁
    · exact h₂ k hk

theorem lookup_of_keysWithin {allowed : List String} {key : String} {l : JsonFields}
    (h : keysWithin allowed l = true) (hk : key ∉ allowed) : l.lookup key = none := by
  rw [List.lookup_eq_none_iff]
  intro e he
  simp only [keysWithin, List.all_eq_true, List.contains_iff_mem] at h
  have hm := h e.1 (List.mem_map_of_mem he)
  simp only [bne_iff_ne, ne_eq]
  intro heq
  exact hk (heq ▸ hm)

theorem validateAssertions_keys {a c : JsonFields} {allowed : List String}
    (h : validateAssertions a = .ok c) (ha : keysWithin allowed a = true)
    (hs : ∀ key ∈ assertionFields, key ∈ allowed) : keysWithin allowed c = true := by
  obtain ⟨b, hb, hc, -, -⟩ := validateAssertions_ok.mp h
  have hkb : keysWithin allowed b = true := by
    rcases expectedHeaders_ok hb with ⟨-, rfl⟩ | ⟨_, _, -, -, rfl⟩
    · exact ha
    · exact keysWithin_put.mpr ⟨hs _ (by decide), ha⟩
  rcases bodyContains_ok hc with ⟨_, -, rfl⟩ | ⟨rfl, -⟩
  · exact keysWithin_put.mpr ⟨hs _ (by decide), hkb⟩
  · exact hkb

/-! ### Requests -/

theorem expectedOf_ok {protocol : Protocol} {value : Option Json} {a : JsonFields} {l : List Json} :
    expectedOf protocol value = .ok (a, l) ↔ value = some (.obj a) ∧
      keysWithin (assertionFields ++ [protocol.expectedKey]) a = true ∧
      a.lookup protocol.expectedKey = some (.arr l) ∧ l ≠ [] ∧ l.length ≤ 500 := by
  constructor
  · intro h
    unfold expectedOf at h
    split at h
    · next b =>
        split_ifs at h with hk
        split at h
        · next l' hl =>
            split_ifs at h with he
            cases h
            obtain ⟨h₁, h₂⟩ := not_or.mp he
            exact ⟨rfl, by simpa using hk, hl, by simpa using h₁, by omega⟩
        · cases h
    · cases h
  · rintro ⟨rfl, hk, hl, hne, hlen⟩
    have he : ¬ (l.isEmpty = true ∨ 500 < l.length) := by
      rw [not_or]
      exact ⟨by simpa using hne, by omega⟩
    simp only [expectedOf, hk, hl, if_neg he]
    rfl

/-- The parts of a gRPC request, in turn. -/
theorem normalizeGrpc_ok {P : Protobuf} {route : Json} {headers : JsonFields} {l codes : List Json}
    {g : GrpcFields} (h : normalizeGrpc P route headers l g = .ok codes) :
    (headers.any fun e => "-bin".toList.isSuffixOf e.1.toList) = false ∧
      l.mapM normalizeCode = .ok codes ∧ isPost g.method = true ∧
      isEmptyObject g.queryParams = true ∧ validateReflection g.reflection = .ok () ∧
      validateDescriptors P route g.descriptors = .ok () ∧
      validateGrpcBody g.body g.bodyBase64 g.reflection g.descriptors = .ok () := by
  unfold normalizeGrpc at h
  by_cases hbin : (headers.any fun e => "-bin".toList.isSuffixOf e.1.toList) = true
  · rw [if_pos hbin] at h
    cases h
  · rw [if_neg hbin] at h
    obtain ⟨codes', hm, h⟩ := bind_ok h
    dsimp only at h
    split at h
    · cases h
    · next hp =>
        obtain ⟨⟨⟩, hr, h⟩ := bind_ok h
        obtain ⟨⟨⟩, hd, h⟩ := bind_ok h
        obtain ⟨⟨⟩, hb, h⟩ := bind_ok h
        cases h
        simp only [Bool.or_eq_true, Bool.not_eq_true', not_or, Bool.not_eq_false] at hp
        exact ⟨Bool.not_eq_true _ ▸ hbin, hm, hp.1, hp.2, hr, hd, hb⟩

/-- What the request of the protocol becomes. -/
theorem normalizeRequest_ok {P : Protobuf} {route : Json} {protocol : Protocol}
    {headers a a' res res' : JsonFields} {l : List Json}
    (h : normalizeRequest P route protocol headers a l res = .ok (res', a')) :
    (protocol = .http ∧ a' = a ∧ ∃ m, m ∈ httpMethods ∧
      normalizeHttp l (res.lookup "method") (res.lookup "query_params") (res.lookup "body") = .ok m ∧
      res' = put "method" (.str m) res) ∨
    (protocol = .grpc ∧ res' = res ∧ ∃ codes, l.mapM normalizeCode = .ok codes ∧
      normalizeGrpc P route headers l ⟨res.lookup "method", res.lookup "query_params",
        res.lookup "body", res.lookup "body_base64", res.lookup "descriptor_set_base64",
        res.lookup "reflection"⟩ = .ok codes ∧
      a' = put "expected_grpc_status_list" (.arr codes) a) := by
  cases protocol with
  | http =>
      obtain ⟨m, hm, h⟩ := bind_ok h
      cases h
      refine .inl ⟨rfl, rfl, m, ?_, hm, rfl⟩
      unfold normalizeHttp at hm
      split_ifs at hm
      · cases hm
      · split at hm
        · obtain ⟨m', hm', hm⟩ := bind_ok hm
          obtain ⟨⟨⟩, -, hm⟩ := bind_ok hm
          cases hm
          obtain ⟨_, -, -, hmem⟩ := httpMethod_ok hm'
          exact hmem
        · cases hm
  | grpc =>
      obtain ⟨codes, hc, h⟩ := bind_ok h
      cases h
      exact .inr ⟨rfl, rfl, codes, (normalizeGrpc_ok hc).2.1, hc, rfl⟩

/-- The method in upper case is its own normal form. -/
theorem normalizeHttp_fixed {l : List Json} {method params body : Option Json} {m : String}
    (h : normalizeHttp l method params body = .ok m) :
    normalizeHttp l (some (.str m)) params body = .ok m := by
  unfold normalizeHttp at h ⊢
  split_ifs at h ⊢ with he
  · cases h
  · split at h
    · next x p y =>
        obtain ⟨m', hm', h⟩ := bind_ok h
        obtain ⟨⟨⟩, hp, h⟩ := bind_ok h
        cases h
        obtain ⟨_, -, -, hmem⟩ := httpMethod_ok hm'
        simp only [httpMethod_name hmem, bind, Except.bind, hp]
        rfl
    · cases h

/-- The names of the codes are their own normal form. -/
theorem normalizeGrpc_fixed {P : Protobuf} {route : Json} {headers : JsonFields} {l codes : List Json}
    {g : GrpcFields} (hc : l.mapM normalizeCode = .ok codes)
    (h : normalizeGrpc P route headers l g = .ok codes) :
    normalizeGrpc P route headers codes g = .ok codes := by
  unfold normalizeGrpc at h ⊢
  rw [hc] at h
  rw [codes_fixed hc]
  exact h

/-- A request that has been normalised is unchanged by another normalisation: the fields `q` are
those of the result, and the assertions `c` have its status list. -/
theorem normalizeRequest_fixed {P : Protobuf} {route : Json} {protocol : Protocol}
    {headers a a' c res res' q : JsonFields} {l : List Json}
    (h : normalizeRequest P route protocol headers a l res = .ok (res', a'))
    (hl : a.lookup protocol.expectedKey = some (.arr l))
    (hq : ∀ key, key ≠ "assertions" → q.lookup key = res'.lookup key)
    (hc : c.lookup protocol.expectedKey = a'.lookup protocol.expectedKey) :
    ∃ l', c.lookup protocol.expectedKey = some (.arr l') ∧ l'.length = l.length ∧
      normalizeRequest P route protocol headers c l' q = .ok (q, c) := by
  rcases normalizeRequest_ok h with ⟨rfl, rfl, m, hm, hn, rfl⟩ | ⟨rfl, rfl, codes, hm, hn, rfl⟩
  · refine ⟨l, hc.trans hl, rfl, ?_⟩
    have hmethod : q.lookup "method" = some (.str m) := by
      rw [hq _ (by decide), lookup_put_self]
    have hparams : q.lookup "query_params" = res.lookup "query_params" := by
      rw [hq _ (by decide), lookup_put (by decide)]
    have hbody : q.lookup "body" = res.lookup "body" := by
      rw [hq _ (by decide), lookup_put (by decide)]
    simp only [normalizeRequest, hmethod, hparams, hbody, normalizeHttp_fixed hn, bind, Except.bind]
    rw [put_of_lookup hmethod]
    rfl
  · have hcodes : c.lookup "expected_grpc_status_list" = some (.arr codes) := by
      rw [show "expected_grpc_status_list" = Protocol.grpc.expectedKey from rfl, hc]
      exact lookup_put_self _ _ _
    refine ⟨codes, hcodes, (mapM_ok hm).length_eq.symm, ?_⟩
    simp only [normalizeRequest, hq _ (show "method" ≠ "assertions" by decide),
      hq _ (show "query_params" ≠ "assertions" by decide),
      hq _ (show "body" ≠ "assertions" by decide),
      hq _ (show "body_base64" ≠ "assertions" by decide),
      hq _ (show "descriptor_set_base64" ≠ "assertions" by decide),
      hq _ (show "reflection" ≠ "assertions" by decide), normalizeGrpc_fixed hm hn, bind,
      Except.bind]
    rw [put_of_lookup hcodes]
    rfl

/-! ### The whole -/

/-- The fields with their protocol and their headers. -/
def withHeaders (protocol : Protocol) (headers fields : JsonFields) : JsonFields :=
  put "headers" (.obj headers) (put "protocol" (.str protocol.text) fields)

/-- A normalisation of `fields`, part by part. -/
structure Trace (P : Protobuf) (requireRoute : Option String) (fields : JsonFields) where
  protocol : Protocol
  headers : JsonFields
  assertions : JsonFields
  expected : List Json
  request : JsonFields
  stated : JsonFields
  checked : JsonFields
  bounded : boundedObject (.obj fields) = .ok fields
  protocol_ok : protocolOf (fields.lookup "protocol") = .ok protocol
  within : keysWithin protocol.fields (put "protocol" (.str protocol.text) fields) = true
  path_ok : validatePath requireRoute (protocol == .grpc) (fields.lookup "path") = .ok ()
  name_ok : validateServiceName (fields.lookup "service_name") = .ok ()
  port_ok : validateTargetPort (fields.lookup "target_port") = .ok ()
  headers_ok : validateHeaders true ((fields.lookup "headers").getD (.obj [])) = .ok headers
  expected_ok : expectedOf protocol (fields.lookup "assertions") = .ok (assertions, expected)
  request_ok : normalizeRequest P (routeOf requireRoute (fields.lookup "path")) protocol headers
    assertions expected (withHeaders protocol headers fields) = .ok (request, stated)
  assertions_ok : validateAssertions stated = .ok checked

/-- What the payload becomes. -/
def Trace.result {P : Protobuf} {requireRoute : Option String} {fields : JsonFields}
    (t : Trace P requireRoute fields) : JsonFields :=
  put "assertions" (.obj t.checked) t.request

theorem boundedObject_ok {payload : Json} {fields : JsonFields}
    (h : boundedObject payload = .ok fields) : payload = .obj fields := by
  cases payload with
  | obj l =>
      simp only [boundedObject] at h
      split_ifs at h
      cases h
      rfl
  | _ => cases h

/-- **Part by part.**  A validation that returns has made these steps, and these steps make it
return. -/
theorem validateProbePayload_ok {P : Protobuf} {payload q : Json} {requireRoute : Option String} :
    validateProbePayload P payload requireRoute = .ok q ↔
      ∃ fields, payload = .obj fields ∧ ∃ t : Trace P requireRoute fields, q = .obj t.result := by
  -- Writing one field leaves the others as they are.
  have lp {key : String} (h : key ≠ "protocol") (p : Protocol) (l : JsonFields) :
      (put "protocol" (.str p.text) l).lookup key = l.lookup key := lookup_put h _ _
  have lh {key : String} (h : key ≠ "headers") (v : Json) (l : JsonFields) :
      (put "headers" v l).lookup key = l.lookup key := lookup_put h _ _
  constructor
  · intro h
    obtain ⟨fields, hb, h⟩ := bind_ok h
    obtain ⟨protocol, hp, h⟩ := bind_ok h
    dsimp only at h
    split_ifs at h with hw
    · cases h
    · obtain ⟨⟨⟩, hpath, h⟩ := bind_ok h
      obtain ⟨⟨⟩, hname, h⟩ := bind_ok h
      obtain ⟨⟨⟩, hport, h⟩ := bind_ok h
      obtain ⟨headers, hh, h⟩ := bind_ok h
      obtain ⟨⟨a, l⟩, he, h⟩ := bind_ok h
      obtain ⟨⟨res, a'⟩, hr, h⟩ := bind_ok h
      obtain ⟨c, hc, h⟩ := bind_ok h
      cases h
      rw [lp (by decide)] at hpath hname hport hh
      rw [lh (by decide), lp (by decide)] at he hr
      have hpay := boundedObject_ok hb
      refine ⟨fields, hpay, ?_⟩
      exact ⟨
        { protocol, headers, assertions := a, expected := l, request := res, stated := a',
          checked := c, bounded := hpay ▸ hb, protocol_ok := hp, within := by simpa using hw,
          path_ok := hpath, name_ok := hname, port_ok := hport, headers_ok := hh,
          expected_ok := he, request_ok := hr, assertions_ok := hc }, rfl⟩
  · rintro ⟨fields, rfl, t, rfl⟩
    have hr := t.request_ok
    unfold withHeaders at hr
    simp only [validateProbePayload, t.bounded, t.protocol_ok, t.within, t.path_ok, t.name_ok,
      t.port_ok, t.headers_ok, t.expected_ok, hr, t.assertions_ok, bind, Except.bind,
      lp (show "path" ≠ "protocol" by decide), lp (show "service_name" ≠ "protocol" by decide),
      lp (show "target_port" ≠ "protocol" by decide), lp (show "headers" ≠ "protocol" by decide),
      lp (show "assertions" ≠ "protocol" by decide), lh (show "path" ≠ "headers" by decide),
      lh (show "assertions" ≠ "headers" by decide), Bool.not_true, Bool.false_eq_true, if_false]
    rfl

namespace Trace

variable {P : Protobuf} {requireRoute : Option String} {fields : JsonFields}

/-- Only four fields change. -/
theorem lookup_eq (t : Trace P requireRoute fields) {key : String}
    (h : key ∉ ["protocol", "headers", "method", "assertions"]) :
    t.result.lookup key = fields.lookup key := by
  simp only [List.mem_cons, List.not_mem_nil, or_false, not_or] at h
  obtain ⟨h₁, h₂, h₃, h₄⟩ := h
  have hreq : t.request.lookup key = (withHeaders t.protocol t.headers fields).lookup key := by
    rcases normalizeRequest_ok t.request_ok with ⟨-, -, m, -, -, hr⟩ | ⟨-, hr, -⟩
    · rw [hr, lookup_put h₃]
    · rw [hr]
  rw [Trace.result, lookup_put h₄, hreq, withHeaders, lookup_put h₂, lookup_put h₁]

theorem request_lookup (t : Trace P requireRoute fields) {key : String} (h : key ≠ "method") :
    t.request.lookup key = (withHeaders t.protocol t.headers fields).lookup key := by
  rcases normalizeRequest_ok t.request_ok with ⟨-, -, m, -, -, hr⟩ | ⟨-, hr, -⟩
  · rw [hr, lookup_put h]
  · rw [hr]

theorem lookup_protocol (t : Trace P requireRoute fields) :
    t.result.lookup "protocol" = some (.str t.protocol.text) := by
  rw [Trace.result, lookup_put (by decide), t.request_lookup (by decide), withHeaders,
    lookup_put (by decide), lookup_put_self]

theorem lookup_headers (t : Trace P requireRoute fields) :
    t.result.lookup "headers" = some (.obj t.headers) := by
  rw [Trace.result, lookup_put (by decide), t.request_lookup (by decide), withHeaders, lookup_put_self]

theorem lookup_assertions (t : Trace P requireRoute fields) :
    t.result.lookup "assertions" = some (.obj t.checked) := by
  rw [Trace.result, lookup_put_self]

theorem keys (t : Trace P requireRoute fields) : keysWithin t.protocol.fields t.result = true := by
  have hbase : keysWithin t.protocol.fields (withHeaders t.protocol t.headers fields) = true := by
    refine keysWithin_put.mpr ⟨?_, t.within⟩
    cases t.protocol <;> decide
  have hreq : keysWithin t.protocol.fields t.request = true := by
    rcases normalizeRequest_ok t.request_ok with ⟨hp, -, m, -, -, hr⟩ | ⟨-, hr, -⟩
    · rw [hr]
      refine keysWithin_put.mpr ⟨?_, hbase⟩
      cases t.protocol <;> decide
    · rw [hr]
      exact hbase
  rw [Trace.result]
  refine keysWithin_put.mpr ⟨?_, hreq⟩
  cases t.protocol <;> decide

/-- The assertions of the request keep the fields they may have. -/
theorem stated_keys (t : Trace P requireRoute fields) :
    keysWithin (assertionFields ++ [t.protocol.expectedKey]) t.stated = true := by
  obtain ⟨-, hk, -, -, -⟩ := expectedOf_ok.mp t.expected_ok
  rcases normalizeRequest_ok t.request_ok with ⟨hp, hr, -⟩ | ⟨hp, -, codes, -, -, hr⟩
  · rw [hr]
    exact hk
  · rw [hr]
    refine keysWithin_put.mpr ⟨?_, hk⟩
    rw [hp]
    decide

/-- **Again.**  A normalised payload that is bounded is normalised to itself. -/
theorem again (t : Trace P requireRoute fields)
    (hb : boundedObject (.obj t.result) = .ok t.result) :
    ∃ t' : Trace P requireRoute t.result, t'.result = t.result := by
  obtain ⟨-, -, hl, hne, hlen⟩ := expectedOf_ok.mp t.expected_ok
  have hcl : t.checked.lookup t.protocol.expectedKey = t.stated.lookup t.protocol.expectedKey := by
    cases t.protocol <;> exact validateAssertions_lookup t.assertions_ok (by decide) (by decide)
  -- What is normalised passes each check once more, and is not changed by it.
  obtain ⟨l', hl', hlen', hreq⟩ := normalizeRequest_fixed (q := t.result) t.request_ok hl
    (fun key hk => by rw [Trace.result, lookup_put hk]) hcl
  have hput : put "protocol" (.str t.protocol.text) t.result = t.result :=
    put_of_lookup t.lookup_protocol
  have hsame : withHeaders t.protocol t.headers t.result = t.result := by
    rw [withHeaders, hput, put_of_lookup t.lookup_headers]
  refine ⟨
    { protocol := t.protocol, headers := t.headers, assertions := t.checked, expected := l',
      request := t.result, stated := t.checked, checked := t.checked, bounded := hb,
      protocol_ok := by
        rw [t.lookup_protocol]
        cases t.protocol <;> rfl
      within := by
        rw [hput]
        exact t.keys
      path_ok := by
        rw [t.lookup_eq (by decide)]
        exact t.path_ok
      name_ok := by
        rw [t.lookup_eq (by decide)]
        exact t.name_ok
      port_ok := by
        rw [t.lookup_eq (by decide)]
        exact t.port_ok
      headers_ok := by
        rw [t.lookup_headers]
        exact validateHeaders_fixed t.headers_ok
      expected_ok := by
        refine expectedOf_ok.mpr ⟨t.lookup_assertions, ?_, hl', ?_, by omega⟩
        · exact validateAssertions_keys t.assertions_ok t.stated_keys
            fun key hk => List.mem_append_left _ hk
        · rw [← List.length_pos_iff]
          have := List.length_pos_iff.mpr hne
          omega
      request_ok := by
        rw [t.lookup_eq (by decide), hsame]
        exact hreq
      assertions_ok := validateAssertions_fixed t.assertions_ok }, ?_⟩
  exact put_of_lookup t.lookup_assertions

end Trace

/-! ### What may be written -/

theorem fieldsDumpable_iff {l : JsonFields} :
    fieldsDumpable l = true ↔ ∀ e ∈ l, e.2.dumpable = true := by
  induction l with
  | nil => simp [fieldsDumpable]
  | cons e l ih =>
      obtain ⟨k, x⟩ := e
      simp [fieldsDumpable, ih]

theorem itemsDumpable_iff {l : List Json} :
    itemsDumpable l = true ↔ ∀ x ∈ l, x.dumpable = true := by
  induction l with
  | nil => simp [itemsDumpable]
  | cons x l ih => simp [itemsDumpable, ih]

theorem put_dumpable {key : String} {value : Json} {l : JsonFields}
    (h : fieldsDumpable l = true) (hv : value.dumpable = true) :
    fieldsDumpable (put key value l) = true := by
  induction l with
  | nil => simp [put, fieldsDumpable, hv]
  | cons e l ih =>
      obtain ⟨k, x⟩ := e
      simp only [fieldsDumpable, Bool.and_eq_true] at h
      by_cases hk : k = key
      · simp [put, hk, fieldsDumpable, hv, h.2]
      · simp [put, hk, fieldsDumpable, h.1, ih h.2]

theorem lookup_dumpable {key : String} {value : Json} {l : JsonFields}
    (h : fieldsDumpable l = true) (hv : l.lookup key = some value) : value.dumpable = true := by
  induction l with
  | nil => cases hv
  | cons e l ih =>
      obtain ⟨k, x⟩ := e
      simp only [fieldsDumpable, Bool.and_eq_true] at h
      by_cases hk : key = k
      · subst hk
        rw [List.lookup_cons_self] at hv
        exact Option.some.inj hv ▸ h.1
      · simp only [List.lookup_cons, beq_false_of_ne hk] at hv
        exact ih h.2 hv

theorem dumpable_of_isText {x : Json} (h : isText x = true) : x.dumpable = true := by
  cases x with
  | str s => rfl
  | _ => cases h

theorem headers_dumpable {request : Bool} {value : Json} {headers : JsonFields}
    (h : validateHeaders request value = .ok headers) : (Json.obj headers).dumpable = true :=
  fieldsDumpable_iff.mpr fun e he => dumpable_of_isText (validateHeaders_texts h e he)

theorem assertions_dumpable {a c : JsonFields} (h : validateAssertions a = .ok c)
    (ha : fieldsDumpable a = true) : fieldsDumpable c = true := by
  obtain ⟨b, hb, hc, -, -⟩ := validateAssertions_ok.mp h
  have hkb : fieldsDumpable b = true := by
    rcases expectedHeaders_ok hb with ⟨-, rfl⟩ | ⟨_, _, -, hv, rfl⟩
    · exact ha
    · exact put_dumpable ha (headers_dumpable hv)
  rcases bodyContains_ok hc with ⟨_, -, rfl⟩ | ⟨rfl, -⟩
  · exact put_dumpable hkb rfl
  · exact hkb

theorem boundedObject_iff {fields : JsonFields} :
    boundedObject (.obj fields) = .ok fields ↔
      (Json.obj fields).dumpable = true ∧ (Json.obj fields).bytes ≤ maxPayloadBytes := by
  by_cases h : (!(Json.obj fields).dumpable || decide (maxPayloadBytes < (Json.obj fields).bytes)) = true
  · simp only [boundedObject, if_pos h]
    simp only [Bool.or_eq_true, Bool.not_eq_true', decide_eq_true_eq] at h
    constructor
    · intro h'
      cases h'
    · rintro ⟨h₁, h₂⟩
      rcases h with h | h
      · rw [h₁] at h
        cases h
      · omega
  · simp only [boundedObject, if_neg h, true_iff]
    simpa using h

namespace Trace

variable {P : Protobuf} {requireRoute : Option String} {fields : JsonFields}

theorem dumpable (t : Trace P requireRoute fields) : (Json.obj t.result).dumpable = true := by
  have hf : fieldsDumpable fields = true := (boundedObject_iff.mp t.bounded).1
  have hbase : fieldsDumpable (withHeaders t.protocol t.headers fields) = true :=
    put_dumpable (put_dumpable hf rfl) (headers_dumpable t.headers_ok)
  have ha : fieldsDumpable t.assertions = true :=
    lookup_dumpable hf (expectedOf_ok.mp t.expected_ok).1
  have hreq : fieldsDumpable t.request = true ∧ fieldsDumpable t.stated = true := by
    rcases normalizeRequest_ok t.request_ok with ⟨-, hs, m, -, -, hr⟩ | ⟨-, hr, codes, hm, -, hs⟩
    · rw [hr, hs]
      exact ⟨put_dumpable hbase rfl, ha⟩
    · rw [hr, hs]
      refine ⟨hbase, put_dumpable ha (itemsDumpable_iff.mpr fun x hx => ?_)⟩
      obtain ⟨c, -, hc⟩ := mapM_mem hm hx
      obtain ⟨name, -, rfl⟩ := normalizeCode_ok hc
      rfl
  rw [Trace.result]
  exact put_dumpable hreq.1 (assertions_dumpable t.assertions_ok hreq.2)

end Trace

theorem bytes_of_valid {P : Protobuf} {payload q : Json} {requireRoute : Option String}
    (h : validateProbePayload P payload requireRoute = .ok q) : payload.bytes ≤ maxPayloadBytes := by
  obtain ⟨fields, rfl, t, -⟩ := validateProbePayload_ok.mp h
  exact (boundedObject_iff.mp t.bounded).2

/-- **Again.**  A normalised payload is valid, and unchanged, exactly if it is not too long. -/
theorem normalized_again {P : Protobuf} {payload q : Json} {requireRoute : Option String}
    (h : validateProbePayload P payload requireRoute = .ok q) :
    validateProbePayload P q requireRoute = .ok q ↔ q.bytes ≤ maxPayloadBytes := by
  constructor
  · exact bytes_of_valid
  · intro hb
    obtain ⟨fields, rfl, t, rfl⟩ := validateProbePayload_ok.mp h
    obtain ⟨t', ht⟩ := t.again (boundedObject_iff.mpr ⟨t.dumpable, hb⟩)
    exact validateProbePayload_ok.mpr ⟨_, rfl, t', by rw [ht]⟩

/-! ### What normalisation adds -/

/-- A method in upper case may be shorter. -/
def methodBytes : Option Json → Int
  | some (.str method) => ((Json.str (upper method)).bytes : Int) - (Json.str method).bytes
  | _ => 0

/-- A code becomes a name. -/
def codeBytes (code : Json) : Int :=
  match normalizeCode code with
  | .ok name => (name.bytes : Int) - code.bytes
  | .error _ => 0

def codesBytes : Option Json → Int
  | some (.arr codes) => (codes.map codeBytes).sum
  | _ => 0

/-- A text becomes a list. -/
def containsBytes : Option Json → Int
  | some (.str _) => 2
  | _ => 0

def assertionsBytes : Option Json → Int
  | some (.obj assertions) =>
      codesBytes (assertions.lookup "expected_grpc_status_list") +
        containsBytes (assertions.lookup "body_contains")
  | _ => 0

/-- How many bytes normalisation adds to a payload: for a missing protocol and missing headers, and
for the method, the codes and the texts that are rewritten. -/
def addedBytes (payload : Json) : Int :=
  match payload with
  | .obj fields =>
      (if (fields.lookup "protocol").isSome then 0 else 20) +
        (if (fields.lookup "headers").isSome then 0 else 15) +
        methodBytes (fields.lookup "method") + assertionsBytes (fields.lookup "assertions")
  | _ => 0

theorem gain_of_lookup {key : String} {value x : Json} {l : JsonFields}
    (h : l.lookup key = some x) : gain key value l = (value.bytes : Int) - x.bytes := by
  simp [gain, h]

theorem codes_bytes {l codes : List Json} (hne : l ≠ []) (h : l.mapM normalizeCode = .ok codes) :
    ((Json.arr codes).bytes : Int) - (Json.arr l).bytes = (l.map codeBytes).sum := by
  replace h := mapM_ok h
  have hne' : codes ≠ [] := by
    intro he
    rw [he] at h
    cases h
    exact hne rfl
  rw [bytes_arr hne, bytes_arr hne']
  clear hne hne'
  induction h with
  | nil => rfl
  | cons hab _ ih =>
      simp only [List.map_cons, List.sum_cons, codeBytes, hab]
      omega

theorem expectedHeaders_bytes {a b : JsonFields} (hne : a ≠ []) (h : expectedHeaders a = .ok b) :
    (Json.obj b).bytes = (Json.obj a).bytes ∧ b ≠ [] := by
  rcases expectedHeaders_ok h with ⟨-, rfl⟩ | ⟨value, headers, hl, hv, rfl⟩
  · exact ⟨rfl, hne⟩
  · refine ⟨?_, put_ne_nil _ _ _⟩
    have hb := bytes_put hne "expected_headers" (.obj headers)
    rw [gain_of_lookup hl, validateHeaders_length hv] at hb
    omega

theorem bodyContains_bytes {a b : JsonFields} (hne : a ≠ []) (h : bodyContains a = .ok b) :
    ((Json.obj b).bytes : Int) - (Json.obj a).bytes =
      containsBytes (a.lookup "body_contains") := by
  rcases bodyContains_ok h with ⟨item, hl, rfl⟩ | ⟨rfl, hn⟩
  · have hb := bytes_put hne "body_contains" (.arr [.str item])
    have hitem : (Json.arr [.str item]).bytes = (Json.str item).bytes + 2 := by
      rw [bytes_arr (List.cons_ne_nil _ _)]
      simp
    rw [gain_of_lookup hl, hitem] at hb
    rw [hl, containsBytes]
    omega
  · have hc : containsBytes (b.lookup "body_contains") = 0 := by
      unfold containsBytes
      split
      · next item heq => exact absurd heq (hn item)
      · rfl
    omega

theorem assertions_bytes {a c : JsonFields} (hne : a ≠ []) (h : validateAssertions a = .ok c) :
    ((Json.obj c).bytes : Int) - (Json.obj a).bytes =
      containsBytes (a.lookup "body_contains") := by
  obtain ⟨b, hb, hc, -, -⟩ := validateAssertions_ok.mp h
  obtain ⟨hlen, hne'⟩ := expectedHeaders_bytes hne hb
  have hcontains := bodyContains_bytes hne' hc
  rw [expectedHeaders_lookup hb (by decide)] at hcontains
  omega

theorem ne_nil_of_lookup {key : String} {value : Json} {l : JsonFields}
    (h : l.lookup key = some value) : l ≠ [] := by
  rintro rfl
  cases h

namespace Trace

variable {P : Protobuf} {requireRoute : Option String} {fields : JsonFields}

theorem protocol_gain (t : Trace P requireRoute fields) :
    gain "protocol" (.str t.protocol.text) fields =
      if (fields.lookup "protocol").isSome then 0 else 20 := by
  have hp := t.protocol_ok
  cases hl : fields.lookup "protocol" with
  | none =>
      rw [hl] at hp
      rw [← Except.ok.inj hp]
      simp only [gain, hl]
      decide
  | some x =>
      rw [hl] at hp
      have hx : x = .str t.protocol.text := by
        unfold protocolOf at hp
        split at hp
        · next heq => cases heq
        · next heq =>
            cases heq
            rw [← Except.ok.inj hp]
            rfl
        · next heq =>
            cases heq
            rw [← Except.ok.inj hp]
            rfl
        · cases hp
      rw [gain_of_lookup hl, hx]
      simp

theorem headers_gain (t : Trace P requireRoute fields) :
    gain "headers" (.obj t.headers) (put "protocol" (.str t.protocol.text) fields) =
      if (fields.lookup "headers").isSome then 0 else 15 := by
  have hh := t.headers_ok
  have hl : (put "protocol" (.str t.protocol.text) fields).lookup "headers" =
      fields.lookup "headers" := lookup_put (by decide) _ _
  cases hf : fields.lookup "headers" with
  | none =>
      rw [hf] at hh
      have hnil : t.headers = [] := (Except.ok.inj hh).symm
      simp only [gain, hl, hf, hnil]
      decide
  | some x =>
      rw [hf] at hh
      have hlen := validateHeaders_length hh
      rw [gain_of_lookup (hl.trans hf), hlen]
      simp

theorem base_bytes (t : Trace P requireRoute fields) (hne : fields ≠ []) :
    ((Json.obj (withHeaders t.protocol t.headers fields)).bytes : Int) =
      (Json.obj fields).bytes + (if (fields.lookup "protocol").isSome then 0 else 20) +
        (if (fields.lookup "headers").isSome then 0 else 15) := by
  rw [withHeaders, bytes_put (put_ne_nil _ _ _), bytes_put hne, t.protocol_gain, t.headers_gain]

theorem base_lookup (t : Trace P requireRoute fields) {key : String} (h₁ : key ≠ "protocol")
    (h₂ : key ≠ "headers") :
    (withHeaders t.protocol t.headers fields).lookup key = fields.lookup key := by
  rw [withHeaders, lookup_put h₂, lookup_put h₁]

/-- The request adds what its method and its codes add. -/
theorem request_bytes (t : Trace P requireRoute fields) :
    ((Json.obj t.request).bytes : Int) =
        (Json.obj (withHeaders t.protocol t.headers fields)).bytes +
          methodBytes (fields.lookup "method") ∧
      ((Json.obj t.stated).bytes : Int) = (Json.obj t.assertions).bytes +
        codesBytes (t.assertions.lookup "expected_grpc_status_list") ∧ t.stated ≠ [] := by
  obtain ⟨-, hk, hl, hne, -⟩ := expectedOf_ok.mp t.expected_ok
  have hane := ne_nil_of_lookup hl
  have hbase : withHeaders t.protocol t.headers fields ≠ [] := put_ne_nil _ _ _
  rcases normalizeRequest_ok t.request_ok with
    ⟨hp, hs, m, -, hn, hr⟩ | ⟨hp, hr, codes, hm, hn, hs⟩
  · rw [hr, hs, bytes_put hbase]
    refine ⟨?_, ?_, hane⟩
    · -- The method of an accepted HTTP request is a text.
      rw [t.base_lookup (by decide) (by decide)] at hn
      have hmethod : ∃ raw, fields.lookup "method" = some (.str raw) ∧ m = upper raw := by
        unfold normalizeHttp at hn
        split_ifs at hn
        · cases hn
        · split at hn
          · next x _ _ hx _ _ =>
              obtain ⟨m', hm', hn⟩ := bind_ok hn
              obtain ⟨⟨⟩, -, hn⟩ := bind_ok hn
              cases hn
              obtain ⟨raw, rfl, hraw, -⟩ := httpMethod_ok hm'
              exact ⟨raw, by assumption, hraw⟩
          · cases hn
      obtain ⟨raw, hraw, rfl⟩ := hmethod
      rw [gain_of_lookup ((t.base_lookup (by decide) (by decide)).trans hraw), hraw, methodBytes]
    · rw [hp] at hk
      rw [lookup_of_keysWithin hk (by decide)]
      simp [codesBytes]
  · rw [hp] at hl
    change t.assertions.lookup "expected_grpc_status_list" = _ at hl
    rw [hr, hs, bytes_put hane, gain_of_lookup hl, hl, codes_bytes hne hm]
    refine ⟨?_, by rfl, put_ne_nil _ _ _⟩
    -- A gRPC request has no method, or `POST`.
    rw [t.base_lookup (by decide) (by decide)] at hn
    have hpost : methodBytes (fields.lookup "method") = 0 := by
      have hb := (normalizeGrpc_ok hn).2.2.1
      dsimp only at hb
      cases hf : fields.lookup "method" with
      | none => rfl
      | some x =>
          cases x with
          | str method =>
              rw [hf] at hb
              have hm : method = "POST" := by simpa [isPost] using hb
              rw [hm]
              decide
          | _ => rfl
    omega

/-- **Length.**  A normalised payload is longer by what normalisation adds. -/
theorem result_bytes (t : Trace P requireRoute fields) :
    ((Json.obj t.result).bytes : Int) = (Json.obj fields).bytes + addedBytes (.obj fields) := by
  obtain ⟨ha, -, -, -, -⟩ := expectedOf_ok.mp t.expected_ok
  obtain ⟨hreq, hst, hne⟩ := t.request_bytes
  have hbase := t.base_bytes (ne_nil_of_lookup ha)
  have hcl := assertions_bytes hne t.assertions_ok
  have hcontains : t.stated.lookup "body_contains" = t.assertions.lookup "body_contains" := by
    rcases normalizeRequest_ok t.request_ok with ⟨-, hs, -⟩ | ⟨-, -, codes, -, -, hs⟩
    · rw [hs]
    · rw [hs, lookup_put (by decide)]
  have hlookup : t.request.lookup "assertions" = some (.obj t.assertions) := by
    rw [t.request_lookup (by decide), t.base_lookup (by decide) (by decide), ha]
  have hput := bytes_put (ne_nil_of_lookup hlookup) "assertions" (.obj t.checked)
  rw [gain_of_lookup hlookup] at hput
  rw [hcontains] at hcl
  simp only [Trace.result, addedBytes, ha, assertionsBytes]
  omega

end Trace

theorem bytes_normalized {P : Protobuf} {payload q : Json} {requireRoute : Option String}
    (h : validateProbePayload P payload requireRoute = .ok q) :
    (q.bytes : Int) = payload.bytes + addedBytes payload := by
  obtain ⟨fields, rfl, t, rfl⟩ := validateProbePayload_ok.mp h
  exact t.result_bytes

/-- **Stability.**  A payload that has been accepted stays valid, and unchanged, exactly if what
normalisation adds does not make it too long. -/
theorem probe_payload_stable {P : Protobuf} {payload q : Json} {requireRoute : Option String}
    (h : validateProbePayload P payload requireRoute = .ok q) :
    validateProbePayload P q requireRoute = .ok q ↔
      (payload.bytes : Int) + addedBytes payload ≤ maxPayloadBytes := by
  rw [normalized_again h, ← bytes_normalized h]
  omega

namespace Sample

/-- No descriptors can be loaded. -/
def noDescriptors : Protobuf := ⟨Empty, fun _ => none, fun _ _ => none⟩

/-- A request without protocol and headers. -/
def request (body : Json) : JsonFields :=
  [("method", .str "GET"), ("query_params", .obj []), ("body", body),
    ("assertions", .obj [("expected_status_list", .arr [.num 200])])]

/-- A text of `n` bytes, and its quotes. -/
def padding (n : Nat) : Json := .str (String.ofList (List.replicate n 'a'))

theorem padding_bytes (n : Nat) : (padding n).bytes = n + 2 := by
  have hn : utf8Length ((List.replicate n 'a').flatMap escapeChar) = n := by
    induction n with
    | zero => rfl
    | succ n ih =>
        rw [List.replicate_succ, List.flatMap_cons, utf8Length_append, ih]
        have h₁ : utf8Length (escapeChar 'a') = 1 := by decide
        omega
  have h₂ : '"'.utf8Size = 1 := by decide
  simp only [padding, Json.bytes, Json.text, quoted, String.toList_ofList, utf8Length_cons,
    utf8Length_append, hn, utf8Length_nil, h₂]
  omega

theorem request_bytes (body : Json) : (Json.obj (request body)).bytes = 94 + body.bytes := by
  rw [bytes_obj (l := request body) (List.cons_ne_nil _ _)]
  simp only [request, List.map_cons, List.map_nil, List.sum_cons, List.sum_nil]
  have h₁ : entryBytes ("method", .str "GET") = 17 := by decide
  have h₂ : entryBytes ("query_params", .obj []) = 20 := by decide
  have h₃ : utf8Length (quoted "body") = 6 := by decide
  have h₄ : entryBytes ("assertions", .obj [("expected_status_list", .arr [.num 200])]) = 47 := by
    decide
  rw [h₁, h₂, h₄]
  simp only [entryBytes, h₃]
  omega

theorem request_added (body : Json) : addedBytes (.obj (request body)) = 35 := by
  have hmethod : methodBytes (some (.str "GET")) = 0 := by decide
  calc addedBytes (.obj (request body))
      = 20 + 15 + methodBytes (some (.str "GET")) + (0 + 0) := rfl
    _ = 35 := by rw [hmethod]; rfl

/-- The request is accepted as long as it fits. -/
theorem request_ok {body : Json} (hd : body.dumpable = true)
    (hb : body.bytes + 94 ≤ maxPayloadBytes) :
    ∃ q, validateProbePayload noDescriptors (.obj (request body)) (some "/health") = .ok q := by
  have hbound : boundedObject (.obj (request body)) = .ok (request body) := by
    refine boundedObject_iff.mpr ⟨?_, by rw [request_bytes]; omega⟩
    simp [request, Json.dumpable, fieldsDumpable, itemsDumpable, hd]
    decide
  refine ⟨_, validateProbePayload_ok.mpr ⟨request body, rfl, ⟨
    { protocol := .http, headers := [],
      assertions := [("expected_status_list", .arr [.num 200])], expected := [.num 200],
      request := _, stated := _, checked := [("expected_status_list", .arr [.num 200])],
      bounded := hbound, protocol_ok := rfl, within := rfl,
      path_ok := show validatePath (some "/health") false none = .ok () by decide,
      name_ok := rfl, port_ok := rfl, headers_ok := rfl, expected_ok := rfl, request_ok := rfl,
      assertions_ok := rfl }, rfl⟩⟩⟩

end Sample

theorem probe_payload_stable_health :
    ∃ q, validateProbePayload Sample.noDescriptors q (some "/health") = .ok q := by
  obtain ⟨q, hq⟩ := @Sample.request_ok .null rfl (by decide)
  exact ⟨q, (probe_payload_stable hq).mpr (by decide)⟩

/-- At the limit, a protocol and headers of its own make a payload too long. -/
theorem probe_payload_grows : ¬ ∀ (P : Protobuf) (payload q : Json) (requireRoute : Option String),
    validateProbePayload P payload requireRoute = .ok q →
      validateProbePayload P q requireRoute = .ok q := by
  intro h
  have hb := Sample.padding_bytes (maxPayloadBytes - 96)
  obtain ⟨q, hq⟩ := @Sample.request_ok (Sample.padding (maxPayloadBytes - 96)) rfl (by
    rw [hb]
    decide)
  have hagain := (normalized_again hq).mp (h _ _ _ _ hq)
  have hlen := bytes_normalized hq
  rw [Sample.request_bytes, hb] at hlen
  rw [Sample.request_added] at hlen
  have hmax : maxPayloadBytes = 1048576 := rfl
  omega

end Orchestrator.RouteProbes
