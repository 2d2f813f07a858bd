import Orchestrator.Models.Texts
import Orchestrator.Repository.InMemory
import Orchestrator.Text.Nesting

/-!
# Probes — routes

The route of a probe (`route_probes._validate_route`) and of an application
(`UserAppCreate.route_is_a_single_path`).

* `unsafePath`, `checkDecodings`, `validateRoute`: the check, over three decodings.
* `routeIsASinglePath`: the check of the models.
* `SafePath`: what the check is for, and `safePath_of_unquote`: what no decoding can mend.
* `UnsafeWord`, `safePath_iff`: the words that no safe path has, and where it has them.
* `validateRoute_decodings`: the routes that stay safe however often they are decoded.
* `routes_agree`: the routes of the models that a probe may have.
-/

namespace Orchestrator

open Percent (unquote)

/-! ### The check -/

namespace RouteProbes

/-- `_invalid`. -/
def invalid (message : String) : Exc := exc .valueError ("Invalid probe payload: " ++ message)

def isControl (c : Char) : Bool := c.toNat < 32 || c.toNat == 127

def isDotSegment (segment : List Char) : Bool := segment == ['.'] || segment == ['.', '.']

def unsafePath (decoded : List Char) : Bool :=
  ['/', '/'].isPrefixOf decoded || decoded.contains '\\' || decoded.contains '?' ||
    decoded.contains '#' || decoded.any isControl || (decoded.splitOn '/').any isDotSegment

/-- The loop: a check before each of at most `n` decodings. -/
def checkDecodings : Nat → List Char → Except Exc Unit
  | 0, _ => .ok ()
  | n + 1, decoded =>
      if unsafePath decoded then .error (invalid "require_route contains an unsafe path")
      else
        let unquoted := unquote decoded
        if unquoted = decoded then .ok () else checkDecodings n unquoted

def isLetter (c : Char) : Bool := ('A' ≤ c && c ≤ 'Z') || ('a' ≤ c && c ≤ 'z') || c == '_'

def isWord (c : Char) : Bool := isLetter c || ('0' ≤ c && c ≤ '9')

/-- A letter, then characters of `rest`. -/
def isName (rest : Char → Bool) : List Char → Bool
  | [] => false
  | c :: cs => isLetter c && cs.all rest

/-- `_GRPC_PATH.fullmatch(route)`, with its two groups. -/
def grpcPath (route : List Char) : Option (List Char × List Char) :=
  match route.splitOn '/' with
  | [[], service, method] =>
      if isName (fun c => isWord c || c == '.') service && isName isWord method then
        some (service, method)
      else none
  | _ => none

/-- `_validate_route`, of a text. -/
def validateRoute (route : String) (grpc : Bool) : Except Exc Unit := do
  if ¬ startsWith route "/" ∨ 4096 < route.length then
    throw (invalid "require_route must be an absolute path, not a URL")
  checkDecodings 3 route.toList
  if grpc ∧ (grpcPath route.toList).isNone then
    throw (invalid "gRPC require_route must be /package.Service/Method")

end RouteProbes

namespace UserAppCreate

/-- `route_is_a_single_path`, with the length the field allows. -/
def routeIsASinglePath (value : Option String) : Except Exc (Option String) :=
  match value with
  | none => .ok none
  | some route =>
      if 2048 < route.length then
        .error (exc .valueError "String should have at most 2048 characters")
      else if ¬ startsWith route "/" ∨ startsWith route "//" ∨
          route.toList.any (fun c => c == '?' || c == '#' || c == '\\') ∨
          route.toList.any (fun c => c.toNat ≤ 32 || c.toNat == 127) then
        .error (exc .valueError
          "require_route must be a single absolute route path without query or fragment")
      else .ok (some route)

end UserAppCreate

/-- `UserAppUpdate.updated_route_is_valid`. -/
def UserAppUpdate.updatedRouteIsValid (value : Option String) : Except Exc (Option String) :=
  UserAppCreate.routeIsASinglePath value

namespace RouteProbes

/-! ### Safe paths -/

/-- A path that stays where it starts. -/
structure SafePath (path : List Char) : Prop where
  authority : ¬ ['/', '/'] <+: path
  backslash : '\\' ∉ path
  query : '?' ∉ path
  fragment : '#' ∉ path
  control : ∀ c ∈ path, ¬ (c.toNat < 32 ∨ c.toNat = 127)
  dots : ['.'] ∉ path.splitOn '/' ∧ ['.', '.'] ∉ path.splitOn '/'

theorem unsafePath_iff (path : List Char) : unsafePath path = false ↔ SafePath path := by
  have hdots : (path.splitOn '/').any isDotSegment = false ↔
      ['.'] ∉ path.splitOn '/' ∧ ['.', '.'] ∉ path.splitOn '/' := by
    simp only [isDotSegment, List.any_eq_false, Bool.or_eq_true, beq_iff_eq, not_or]
    constructor
    · intro h
      exact ⟨fun hm => (h _ hm).1 rfl, fun hm => (h _ hm).2 rfl⟩
    · rintro ⟨h₁, h₂⟩ x hx
      exact ⟨fun e => h₁ (e ▸ hx), fun e => h₂ (e ▸ hx)⟩
  have hcontrol : path.any isControl = false ↔ ∀ c ∈ path, ¬ (c.toNat < 32 ∨ c.toNat = 127) := by
    simp [isControl]
  simp only [unsafePath, Bool.or_eq_false_iff, hdots, hcontrol, List.contains_eq_mem,
    decide_eq_false_iff_not]
  rw [← Bool.not_eq_true, List.isPrefixOf_iff_prefix]
  constructor
  · rintro ⟨⟨⟨⟨⟨h₁, h₂⟩, h₃⟩, h₄⟩, h₅⟩, h₆⟩
    exact ⟨h₁, h₂, h₃, h₄, h₅, h₆⟩
  · intro h
    exact ⟨⟨⟨⟨⟨h.authority, h.backslash⟩, h.query⟩, h.fragment⟩, h.control⟩, h.dots⟩

instance (path : List Char) : Decidable (SafePath path) :=
  decidable_of_iff _ (unsafePath_iff path)

theorem cuts_control {c : Char} (h : c.toNat < 32 ∨ c.toNat = 127) : Percent.cuts c = true := by
  have ascii : ∀ n, n < 128 → (n < 32 ∨ n = 127) → Percent.cuts (Char.ofNat n) = true := by decide
  have hc := ascii c.toNat (by omega) h
  rwa [Char.ofNat_toNat] at hc

/-- **Decoding mends nothing.**  What makes a path unsafe is still there after a decoding. -/
theorem safePath_of_unquote {path : List Char} (h : SafePath (unquote path)) : SafePath path where
  authority := by
    rintro ⟨rest, rfl⟩
    refine h.authority ⟨unquote rest, ?_⟩
    have hs : Percent.cuts '/' = true := by decide
    simp only [List.cons_append, List.nil_append, Percent.unquote_cons hs]
  backslash hm := h.backslash (Percent.mem_unquote (by decide) hm)
  query hm := h.query (Percent.mem_unquote (by decide) hm)
  fragment hm := h.fragment (Percent.mem_unquote (by decide) hm)
  control c hm hc := h.control c (Percent.mem_unquote (cuts_control hc) hm) hc
  dots := by
    have keep : ∀ segment : List Char, segment ∈ path.splitOn '/' →
        segment ∈ (unquote segment).splitOn '/' → segment ∈ (unquote path).splitOn '/' := by
      intro segment hm hs
      rw [Percent.splitOn_unquote (by decide)]
      exact List.mem_flatMap.mpr ⟨segment, hm, hs⟩
    exact ⟨fun hm => h.dots.1 (keep _ hm (by decide)), fun hm => h.dots.2 (keep _ hm (by decide))⟩

theorem safePath_of_iterate {path : List Char} (n : Nat) (h : SafePath (unquote^[n] path)) :
    SafePath path := by
  induction n generalizing path with
  | zero => exact h
  | succ n ih => exact safePath_of_unquote (ih (by rwa [Function.iterate_succ_apply] at h))

/-- **The loop.**  Of the `n` texts it looks at, the last is as unsafe as any. -/
theorem checkDecodings_iff (n : Nat) (path : List Char) :
    checkDecodings (n + 1) path = .ok () ↔ SafePath (unquote^[n] path) := by
  induction n generalizing path with
  | zero =>
      rw [checkDecodings, Function.iterate_zero_apply, ← unsafePath_iff]
      by_cases hs : unsafePath path = true
      · simp [hs]
      · by_cases hu : unquote path = path <;> simp [hs, hu, checkDecodings]
  | succ n ih =>
      rw [checkDecodings, Function.iterate_succ_apply]
      by_cases hs : unsafePath path = true
      · rw [if_pos hs]
        constructor
        · intro h
          cases h
        · intro h
          have hp := (unsafePath_iff _).mpr (safePath_of_unquote (safePath_of_iterate n h))
          rw [hs] at hp
          cases hp
      · rw [if_neg hs]
        by_cases hu : unquote path = path
        · -- The text is at rest.
          rw [if_pos hu, hu, Function.iterate_fixed hu, ← unsafePath_iff]
          simpa using hs
        · rw [if_neg hu]
          exact ih _

/-- What an accepted route is. -/
theorem validateRoute_ok {route : String} {grpc : Bool} :
    validateRoute route grpc = .ok () ↔
      startsWith route "/" = true ∧ route.length ≤ 4096 ∧ SafePath (unquote^[2] route.toList) ∧
        (grpc = true → (grpcPath route.toList).isSome) := by
  rw [← checkDecodings_iff]
  unfold validateRoute
  by_cases hs : ¬ startsWith route "/" ∨ 4096 < route.length
  · rw [if_pos hs]
    constructor
    · intro h
      cases h
    · rintro ⟨h₁, h₂, -⟩
      rcases hs with hs | hs
      · exact absurd h₁ hs
      · omega
  · rw [if_neg hs]
    obtain ⟨h₁, h₂⟩ := not_or.mp hs
    -- The decodings are looked at before the path of gRPC is.
    cases hc : checkDecodings 3 route.toList with
    | error e =>
        constructor
        · intro h
          cases h
        · rintro ⟨-, -, h, -⟩
          cases h
    | ok u =>
        by_cases hg : grpc = true ∧ (grpcPath route.toList).isNone = true
        · rw [if_pos hg]
          constructor
          · intro h
            cases h
          · rintro ⟨-, -, -, h⟩
            rw [Option.isNone_iff_eq_none.mp hg.2] at h
            exact absurd (h hg.1) (by decide)
        · have hg' : grpc = true → (grpcPath route.toList).isSome := by
            intro h
            cases hp : grpcPath route.toList with
            | none => exact absurd ⟨h, by rw [hp]; rfl⟩ hg
            | some p => rfl
          rw [if_neg hg]
          exact ⟨fun _ => ⟨not_not.mp h₁, by omega, rfl, hg'⟩, fun _ => rfl⟩

/-! ### Unsafe words -/

/-- The words that make a path unsafe, by what stands before and after them. -/
inductive UnsafeWord (left right : List Char) : List Char → Prop
  | authority : left = [] → UnsafeWord left right ['/', '/']
  | mark {c : Char} : c = '\\' ∨ c = '?' ∨ c = '#' ∨ c.toNat < 32 ∨ c.toNat = 127 →
      UnsafeWord left right [c]
  | last {segment : List Char} : segment = ['.'] ∨ segment = ['.', '.'] → right = [] →
      UnsafeWord left right ('/' :: segment)
  | inner {segment : List Char} : segment = ['.'] ∨ segment = ['.', '.'] →
      UnsafeWord left right ('/' :: (segment ++ ['/']))

theorem UnsafeWord.ne_nil {left right word : List Char} (h : UnsafeWord left right word) :
    word ≠ [] := by
  cases h <;> simp

theorem plain_of_path {word : List Char} (h : ∀ d ∈ word, d = '/' ∨ d = '.') :
    Percent.Plain word := by
  intro d hd
  rcases h d hd with rfl | rfl <;> decide

/-- No escape is made of the characters of an unsafe word. -/
theorem UnsafeWord.plain {left right word : List Char} (h : UnsafeWord left right word) :
    Percent.Plain word := by
  cases h with
  | authority _ => exact plain_of_path (by simp)
  | mark hc =>
      intro d hd
      obtain rfl := List.mem_singleton.mp hd
      rcases hc with rfl | rfl | rfl | hc
      · decide
      · decide
      · decide
      · exact ⟨cuts_control hc, by omega⟩
  | last hs _ => rcases hs with rfl | rfl <;> exact plain_of_path (by simp)
  | inner hs => rcases hs with rfl | rfl <;> exact plain_of_path (by simp)

/-- What a word is at the ends of a text, it is at the ends of a decoding of it. -/
theorem UnsafeWord.iterate_iff {left right word : List Char} (n : Nat) :
    UnsafeWord (unquote^[n] left) (unquote^[n] right) word ↔ UnsafeWord left right word := by
  have hnil : ∀ s : List Char, unquote^[n] s = [] ↔ s = [] := fun s =>
    ⟨Percent.iterate_eq_nil, fun h => h ▸ Percent.iterate_nil n⟩
  constructor
  · intro h
    cases h with
    | authority hl => exact .authority ((hnil _).mp hl)
    | mark hc => exact .mark hc
    | last hs hr => exact .last hs ((hnil _).mp hr)
    | inner hs => exact .inner hs
  · intro h
    cases h with
    | authority hl => exact .authority ((hnil _).mpr hl)
    | mark hc => exact .mark hc
    | last hs hr => exact .last hs ((hnil _).mpr hr)
    | inner hs => exact .inner hs

/-- A segment of an absolute path, with the separators around it. -/
theorem mem_segments_iff {path segment : List Char} (hne : segment ≠ []) (hs : '/' ∉ segment) :
    segment ∈ ('/' :: path).splitOn '/' ↔ ∃ left right,
      '/' :: path = left ++ ('/' :: segment ++ right) ∧
        (right = [] ∨ ∃ rest, right = '/' :: rest) := by
  constructor
  · intro h
    obtain ⟨left, right, hp, rfl | ⟨start, rfl⟩, hright⟩ := part_of_splitOn h
    · -- The path starts with a separator, and the segment does not.
      obtain ⟨c, segment, rfl⟩ := List.exists_cons_of_ne_nil hne
      obtain ⟨rfl, -⟩ := List.cons.inj hp
      exact absurd List.mem_cons_self hs
    · exact ⟨start, right, by simpa using hp, hright⟩
  · rintro ⟨left, right, hp, rfl | ⟨rest, rfl⟩⟩
    · rw [hp, List.append_nil, List.splitOn_append_cons_self, List.splitOn_eq_singleton hs]
      exact List.mem_append_right _ List.mem_cons_self
    · rw [hp, List.cons_append, List.splitOn_append_cons_self, List.splitOn_append_cons_self,
        List.splitOn_eq_singleton hs]
      exact List.mem_append_right _ List.mem_cons_self

/-- A safe path has no unsafe word. -/
theorem safePath_iff {path : List Char} : SafePath ('/' :: path) ↔
    ∀ left word right, '/' :: path = left ++ (word ++ right) → ¬ UnsafeWord left right word := by
  have dot : ∀ {segment : List Char}, segment = ['.'] ∨ segment = ['.', '.'] →
      segment ≠ [] ∧ '/' ∉ segment := by
    rintro segment (rfl | rfl) <;> decide
  constructor
  · intro h left word right hp hu
    have hdots : ∀ {segment : List Char}, segment = ['.'] ∨ segment = ['.', '.'] →
        segment ∉ ('/' :: path).splitOn '/' := by
      rintro segment (rfl | rfl)
      · exact h.dots.1
      · exact h.dots.2
    -- Each kind of word breaks one of the rules.
    cases hu with
    | authority hl => exact h.authority ⟨right, by rw [hp, hl]; rfl⟩
    | @mark c hc =>
        have hm : c ∈ '/' :: path := hp ▸ List.mem_append_right left List.mem_cons_self
        rcases hc with rfl | rfl | rfl | hc
        · exact h.backslash hm
        · exact h.query hm
        · exact h.fragment hm
        · exact h.control c hm hc
    | last hs hr =>
        obtain ⟨hne, hslash⟩ := dot hs
        exact hdots hs ((mem_segments_iff hne hslash).mpr ⟨left, right, hp, .inl hr⟩)
    | inner hs =>
        obtain ⟨hne, hslash⟩ := dot hs
        exact hdots hs ((mem_segments_iff hne hslash).mpr
          ⟨left, '/' :: right, by simpa using hp, .inr ⟨right, rfl⟩⟩)
  · intro h
    have hmark : ∀ {c : Char}, (c = '\\' ∨ c = '?' ∨ c = '#' ∨ c.toNat < 32 ∨ c.toNat = 127) →
        c ∉ '/' :: path := by
      intro c hc hm
      obtain ⟨left, right, hp⟩ := List.append_of_mem hm
      exact h left [c] right hp (.mark hc)
    have hdots : ∀ {segment : List Char}, segment = ['.'] ∨ segment = ['.', '.'] →
        segment ∉ ('/' :: path).splitOn '/' := by
      intro segment hs hm
      obtain ⟨hne, hslash⟩ := dot hs
      obtain ⟨left, right, hp, rfl | ⟨rest, rfl⟩⟩ := (mem_segments_iff hne hslash).mp hm
      · exact h left _ [] hp (.last hs rfl)
      · exact h left _ rest (by simpa using hp) (.inner hs)
    -- And each rule is broken by a word of its kind.
    refine ⟨?_, hmark (.inl rfl), hmark (.inr (.inl rfl)), hmark (.inr (.inr (.inl rfl))), ?_,
      hdots (.inl rfl), hdots (.inr rfl)⟩
    · rintro ⟨right, hp⟩
      exact h [] ['/', '/'] right hp.symm (.authority rfl)
    · exact fun c hm hc => hmark (.inr (.inr (.inr hc))) hm

/-! ### Repeated decoding -/

/-- Encodings that are nested at most twice are all looked at. -/
theorem validateRoute_shallow {route : String} {grpc : Bool} (h : validateRoute route grpc = .ok ())
    (hr : unquote (unquote^[2] route.toList) = unquote^[2] route.toList) (n : Nat) :
    SafePath (unquote^[n] route.toList) := by
  have hs := (validateRoute_ok.mp h).2.2.1
  refine (Percent.forall_iterate_iff (fun _ => safePath_of_unquote) _).mpr ?_ n
  refine safePath_of_iterate 2 ?_
  rw [← Function.iterate_add_apply, Nat.add_comm, Function.iterate_add_apply,
    Function.iterate_fixed hr]
  exact hs

theorem iterate_slash (n : Nat) (path : List Char) :
    unquote^[n] ('/' :: path) = '/' :: unquote^[n] path := by
  induction n generalizing path with
  | zero => rfl
  | succ n ih =>
      rw [Function.iterate_succ_apply, Percent.unquote_cons (by decide), ih,
        Function.iterate_succ_apply]

/-- An unsafe word is spelled in the route with escapes that are nested more than twice. -/
def Buried (route : List Char) : Prop :=
  ∃ depth > 2, ∃ left spelled right word, route = left ++ (spelled ++ right) ∧
    Percent.Spells depth word spelled ∧ UnsafeWord left right word

/-- **Repeated decoding.**  An accepted route is safe however often it is decoded, exactly if no
unsafe word is buried in it. -/
theorem validateRoute_decodings {route : String} {grpc : Bool}
    (h : validateRoute route grpc = .ok ()) :
    (∀ n, SafePath (unquote^[n] route.toList)) ↔ ¬ Buried route.toList := by
  obtain ⟨hstart, -, hsafe, -⟩ := validateRoute_ok.mp h
  obtain ⟨path, hpath⟩ := startsWith_iff.mp hstart
  change route.toList = '/' :: path at hpath
  rw [hpath] at hsafe ⊢
  -- A decoding starts as the route does, and the words of it are spelled in the route.
  have hburiedAll : ∀ n, SafePath (unquote^[n] ('/' :: path)) ↔ ¬ ∃ depth ≤ n,
      ∃ left spelled right word, '/' :: path = left ++ (spelled ++ right) ∧
        Percent.Spells depth word spelled ∧ UnsafeWord left right word := by
    intro n
    rw [iterate_slash, safePath_iff, ← iterate_slash]
    constructor
    · rintro hs ⟨depth, hd, left, spelled, right, word, hp, hw, hu⟩
      refine hs (unquote^[n] left) word (unquote^[n] right) ?_ ((UnsafeWord.iterate_iff n).mpr hu)
      exact (Percent.iterate_spelled_iff hu.plain hu.ne_nil n).mpr
        ⟨depth, hd, left, spelled, right, hp, hw, rfl, rfl⟩
    · intro hs left word right hp hu
      obtain ⟨depth, hd, l, spelled, r, hroute, hw, rfl, rfl⟩ :=
        (Percent.iterate_spelled_iff hu.plain hu.ne_nil n).mp hp
      exact hs ⟨depth, hd, l, spelled, r, word, hroute, hw, (UnsafeWord.iterate_iff n).mp hu⟩
  constructor
  · rintro hall ⟨depth, -, hburied⟩
    exact (hburiedAll depth).mp (hall depth) ⟨depth, Nat.le_refl _, hburied⟩
  · intro hburied n
    rw [hburiedAll]
    rintro ⟨depth, -, hword⟩
    -- What is spelled less deep was there when the loop looked.
    by_cases hd : depth ≤ 2
    · exact (hburiedAll 2).mp hsafe ⟨depth, hd, hword⟩
    · exact hburied ⟨depth, by omega, hword⟩

theorem validateRoute_decodings_encoded : validateRoute "/caf%25C3%25A9" false = .ok () ∧
    ¬ Buried "/caf%25C3%25A9".toList := by
  have hok : validateRoute "/caf%25C3%25A9" false = .ok () := by decide
  exact ⟨hok, (validateRoute_decodings hok).mp (validateRoute_shallow hok (by decide))⟩

/-- The check comes before each decoding, so that the third decoding is not looked at. -/
theorem validateRoute_third_decoding : ¬ ∀ (route : String) (grpc : Bool),
    validateRoute route grpc = .ok () → ∀ n, SafePath (unquote^[n] route.toList) := by
  intro h
  have hs := h "/%25252e%25252e/admin" false (by decide) 3
  revert hs
  decide

/-! ### Agreement -/

/-- What the models ask of a route. -/
theorem routeIsASinglePath_ok {route : String}
    (h : UserAppCreate.routeIsASinglePath (some route) = .ok (some route)) :
    startsWith route "/" = true ∧ route.length ≤ 2048 := by
  unfold UserAppCreate.routeIsASinglePath at h
  by_cases hl : 2048 < route.length
  · simp [hl] at h
  · by_cases hs : startsWith route "/" = true
    · exact ⟨hs, by omega⟩
    · simp [hl, hs] at h

/-- **Agreement.**  A route the models accept is a route a probe may have, exactly if it is safe
after two decodings. -/
theorem routes_agree {route : String}
    (h : UserAppCreate.routeIsASinglePath (some route) = .ok (some route)) :
    validateRoute route false = .ok () ↔ SafePath (unquote^[2] route.toList) := by
  obtain ⟨hs, hl⟩ := routeIsASinglePath_ok h
  rw [validateRoute_ok]
  constructor
  · intro hv
    exact hv.2.2.1
  · intro hv
    exact ⟨hs, by omega, hv, fun hg => Bool.noConfusion hg⟩

theorem routes_agree_health : validateRoute "/health" false = .ok () :=
  (routes_agree (by decide)).mpr (by decide)

/-- The models look at the text as it is, and at no segment. -/
theorem routes_disagree : ¬ ∀ route : String,
    UserAppCreate.routeIsASinglePath (some route) = .ok (some route) →
      validateRoute route false = .ok () := by
  intro h
  have hv := h "/reports/../admin" (by decide)
  revert hv
  decide

end RouteProbes

end Orchestrator
